import LandRecords.Decision.ExactlyOnce
import LandRecords.Queue.InMemory
import LandRecords.Worker.AckedMessages

/-! The decision engine behind its queue. However often messages are delivered, and wherever
workers, sessions and acks fail, an acked message has had its extraction decided as it asked,
once, or was published to the dead-letter queue with an entry in the audit log. -/
namespace LandRecords.Decision

open Backend Audit Queue Text Worker

/-- What the engine reads of a message. An entry that is missing is as one that is null. -/
structure DecisionMessage where
  /-- The entries of the payload. -/
  extractionId : Option Text := none
  routingOutcome : Option Text := none
  calibratedConfidence : Option Rat := none
  payloadNoveltyClusterId : Option Text := none
  noveltyClusterId : Option Text := none
  /-- The id in the work envelope. -/
  workEnvelopeId : Option Text := none
  envelopeId : Option Text := none
deriving DecidableEq

inductive HandleError
  | missingPayloadId
  | payloadMismatch (extractionId : Text) (mismatchedFields : List Text)
  | domain (error : Backend.Error)

structure HandleStamps where
  route : RouteStamps
  mismatchEntry : Stamp
  deadLetterEntry : Stamp

/-- The arguments that `record_payload_mismatch` appends with. -/
def recordPayloadMismatch (extractionId : Text) (fieldNames : List Text) : AppendArgs where
  actor := "system:decision-engine".toList
  action := "decision.payload_mismatch".toList
  subject := some extractionId
  purpose := some ("mismatched_fields=".toList ++ join ",".toList fieldNames)
  shardKey := some systemShardKey

/-- The payload may leave an entry out, but not contradict the database. -/
def mismatchedFields (message : DecisionMessage) (extraction : Extraction) : List Text :=
  (if message.routingOutcome.any fun text => extraction.routingOutcome.map RoutingOutcome.text ≠ some text
    then ["routing_outcome".toList] else []) ++
  (if message.calibratedConfidence.any fun value => extraction.calibratedConfidence ≠ some value
    then ["calibrated_confidence".toList] else [])

/-- `a or b`. -/
def orElse (a b : Option Text) : Option Text := if isTruthy a then a else b

/-- A mismatch is committed before the message fails, since the runner is going to roll back. -/
def refuseMismatch (extractionId : Text) (fields : List Text) (entry : Stamp) :
    Fallible (Connection Database) HandleError RouteResult := do
  flushing .domain (auditAppend entry (recordPayloadMismatch extractionId fields))
  commitSession
  Fallible.raise (.payloadMismatch extractionId fields)

def handle (message : DecisionMessage) (stamps : HandleStamps) :
    Fallible (Connection Database) HandleError RouteResult := do
  if !isTruthy message.extractionId then Fallible.raise .missingPayloadId
  else
    let extractionId := orEmpty message.extractionId
    match ← Fallible.read fun session => session.current.extraction? extractionId with
    | none => Fallible.raise (.domain (.extractionNotFoundError extractionId))
    | some extraction =>
      let fields := mismatchedFields message extraction
      if fields ≠ [] then refuseMismatch extractionId fields stamps.mismatchEntry
      else
        flushing .domain (route extractionId
          (orElse message.payloadNoveltyClusterId message.noveltyClusterId)
          (orElse message.workEnvelopeId message.envelopeId) stamps.route)

def decisionService {σ : Type} (port : QueuePort σ DecisionMessage) (runner : WorkerRunner)
    (className : HandleError → Text) : Service σ DecisionMessage Database HandleStamps where
  port := port
  runner := runner
  handler message stamps := named className (handle message stamps)
  auditAppend stamps args := named (fun error => className (.domain error))
    (auditAppend stamps.deadLetterEntry args)

inductive UpstreamWrite
  | insert (row : Extraction)
  | score (extractionId : Text) (outcome : Option RoutingOutcome) (confidence : Option Rat)

def UpstreamWrite.apply : UpstreamWrite → Database → Database
  | .insert row, db =>
      if row.id ∈ db.extractions.map Extraction.id then db
      else { db with extractions := db.extractions ++ [row] }
  | .score extractionId outcome confidence, db =>
      { db with extractions := db.extractions.map fun row =>
          if row.id = extractionId then
            { row with routingOutcome := outcome, calibratedConfidence := confidence }
          else row }

def Asks (message : DecisionMessage) (extractionId : Text) (outcome : RoutingOutcome) : Prop :=
  message.extractionId = some extractionId ∧ ∀ text ∈ message.routingOutcome, outcome.text = text

section Handle

variable {db : Database} {message : DecisionMessage} {stamps : HandleStamps}
  {session : Connection Database}

theorem refuseMismatch_durable (extractionId : Text) (fields : List Text) (entry : Stamp)
    (db : Database) : (refuseMismatch extractionId fields entry ⟨db, db⟩).2.durable = db ∨
      ∃ u db', (refuseMismatch extractionId fields entry ⟨db, db⟩).2.durable = db' ∧
        auditAppend entry (recordPayloadMismatch extractionId fields) db = (.returned u, db') := by
  unfold refuseMismatch
  have hdurable := flushing_durable HandleError.domain
    (auditAppend entry (recordPayloadMismatch extractionId fields)) ⟨db, db⟩
  cases hentry : flushing HandleError.domain
    (auditAppend entry (recordPayloadMismatch extractionId fields)) ⟨db, db⟩ with
  | mk exit session =>
    rw [hentry] at hdurable
    cases exit with
    | returned u =>
      rw [Fallible.bind_returned hentry]
      exact .inr ⟨u, session.current, rfl, (flushing_returned hentry).1⟩
    | raised e =>
      rw [Fallible.bind_raised hentry]
      exact .inl hdurable
    | crashed =>
      rw [Fallible.bind_crashed hentry]
      exact .inl hdurable

/-- Of itself, a handling commits the entry of a mismatch at most. -/
theorem handle_durable (message : DecisionMessage) (stamps : HandleStamps) (db : Database) :
    (handle message stamps ⟨db, db⟩).2.durable = db ∨
      ∃ extractionId fields u db', (handle message stamps ⟨db, db⟩).2.durable = db' ∧
        auditAppend stamps.mismatchEntry (recordPayloadMismatch extractionId fields) db =
          (.returned u, db') := by
  unfold handle
  by_cases hid : (!isTruthy message.extractionId) = true
  · rw [if_pos hid]
    exact .inl rfl
  · rw [if_neg hid, Fallible.read_bind]
    cases hextraction : db.extraction? (orEmpty message.extractionId) with
    | none => exact .inl rfl
    | some extraction =>
      dsimp only
      split
      · rcases refuseMismatch_durable (orEmpty message.extractionId)
          (mismatchedFields message extraction) stamps.mismatchEntry db with hsame | hentry
        · exact .inl hsame
        · exact .inr ⟨_, _, hentry⟩
      · exact .inl (flushing_durable _ _ _)

theorem handle_returned {result : RouteResult}
    (h : handle message stamps ⟨db, db⟩ = (.returned result, session)) :
    session.durable = db ∧ ∃ extractionId extraction cluster envelope,
      message.extractionId = some extractionId ∧ db.extraction? extractionId = some extraction ∧
      mismatchedFields message extraction = [] ∧
      route extractionId cluster envelope stamps.route db = (.returned result, session.current) := by
  unfold handle at h
  by_cases hid : (!isTruthy message.extractionId) = true
  · rw [if_pos hid] at h
    cases h
  · rw [if_neg hid, Fallible.read_bind] at h
    cases hextraction : db.extraction? (orEmpty message.extractionId) with
    | none =>
      simp only [hextraction] at h
      cases h
    | some extraction =>
      simp only [hextraction] at h
      split at h
      · obtain ⟨_, _, _, hrest⟩ := Fallible.bind_eq_returned.mp h
        cases hrest
      · rename_i hfields
        have ⟨hroute, hdurable⟩ := flushing_returned h
        cases hmessage : message.extractionId with
        | none => simp [hmessage, isTruthy] at hid
        | some extractionId =>
          rw [hmessage] at hroute hextraction
          exact ⟨hdurable, extractionId, extraction, _, _, rfl, hextraction, not_not.mp hfields,
            hroute⟩

theorem route_decides {extractionId : Text} {cluster envelope : Option Text} {stamps : RouteStamps}
    {db' : Database} {result : RouteResult}
    (h : route extractionId cluster envelope stamps db = (.returned result, db')) :
    ∃ extraction outcome, db.extraction? extractionId = some extraction ∧
      extraction.routingOutcome = some outcome ∧ decidedOutcome db' extractionId = some outcome ∧
      (db' = db ∨ Decided db extraction outcome db') := by
  rcases route_returned h with rfl | ⟨extraction, outcome, hextraction, houtcome, hdecided⟩
  · unfold route at h
    rw [Fallible.read_bind] at h
    cases hextraction : db'.extraction? extractionId with
    | none =>
      rw [hextraction] at h
      cases h
    | some extraction =>
      simp only [hextraction] at h
      cases houtcome : extraction.routingOutcome with
      | none =>
        rw [houtcome] at h
        cases h
      | some outcome =>
        simp only [houtcome] at h
        obtain ⟨existing, mid, hexisting, h⟩ := Fallible.bind_eq_returned.mp h
        obtain ⟨hrows, rfl⟩ := scalarOneOrNone_returned.mp hexisting
        cases existing with
        | none =>
          have hdecided := decideExtraction_returned h
          have hnone := hdecided.decidedOutcome_own
          have hsome := hdecided.decidedOutcome extraction.id
          rw [if_pos rfl, hnone] at hsome
          cases hsome
        | some existing =>
          dsimp only at h
          by_cases hsame : existing.outcome = outcome
          · refine ⟨extraction, outcome, rfl, houtcome, ?_, .inl rfl⟩
            rw [decidedOutcome, hrows]
            exact congrArg some hsame
          · rw [if_pos hsame] at h
            cases h
  · have hid := Database.extraction?_id hextraction
    refine ⟨extraction, outcome, hextraction, houtcome, ?_, .inr hdecided⟩
    rw [hdecided.decidedOutcome, if_pos hid.symm]

end Handle

/-! ## What the engine is for -/

structure DecidedAsAsked (past : List DecisionMessage) (db : Database) : Prop where
  sound : Sound db
  registered : ∀ id, Registered db id (decidedOutcome db id)
  audited : ∀ id, Audited db id (decidedOutcome db id)
  asked : ∀ decision ∈ db.decisions, ∃ message ∈ past,
    Asks message decision.extractionId decision.outcome

def DecidedFor (message : DecisionMessage) (db : Database) : Prop :=
  ∃ id outcome, Asks message id outcome ∧ decidedOutcome db id = some outcome

def deciding : Purpose DecisionMessage Database where
  invariant := DecidedAsAsked
  done := DecidedFor
  logged args db := ∃ entry ∈ db.audit.rows, Recorded entry args

section Purpose

variable {past : List DecisionMessage} {db db' : Database} {message : DecisionMessage}

theorem extends_of_decided (hdecided : ∀ id outcome, decidedOutcome db id = some outcome →
      decidedOutcome db' id = some outcome) (hrows : db.audit.rows ⊆ db'.audit.rows) :
    deciding.Extends db db' := by
  constructor
  · rintro message ⟨id, outcome, hasks, houtcome⟩
    exact ⟨id, outcome, hasks, hdecided id outcome houtcome⟩
  · rintro args ⟨entry, hentry, hrecorded⟩
    exact ⟨entry, hrows hentry, hrecorded⟩

theorem rows_subset_of_appended {calls : List AppendArgs} (h : Appended db db' calls) :
    db.audit.rows ⊆ db'.audit.rows := by
  obtain ⟨entries, hrows, _⟩ := h
  rw [hrows]
  exact List.subset_append_left _ _

theorem DecidedAsAsked.append {args : AppendArgs} (h : DecidedAsAsked past db)
    (htables : db' = db.withAudit db'.audit) (happended : Appended db db' [args])
    (hforeign : "decision.route.".toList.isPrefixOf args.action = false) :
    DecidedAsAsked past db' ∧ deciding.Extends db db' ∧ deciding.logged args db' := by
  have hdecisions : db'.decisions = db.decisions := by
    rw [htables]
    rfl
  have houtcome : ∀ id, decidedOutcome db' id = decidedOutcome db id := by
    intro id
    rw [decidedOutcome, decisionsFor, hdecisions]
    rfl
  have hentries : ∀ id, (routedEntries db' id).map AuditEntry.action =
      (routedEntries db id).map AuditEntry.action := by
    intro id
    have hgrown := happended.filter_map (f := AuditEntry.action) (g := AppendArgs.action)
      (p := fun entry => "decision.route.".toList.isPrefixOf entry.action && entry.subject = some id)
      (q := fun args => "decision.route.".toList.isPrefixOf args.action && args.subject = some id)
      (fun entry args h => by rw [h.action, h.subject]) fun entry args h => h.action
    unfold routedEntries
    rw [hgrown, List.filter_singleton, hforeign]
    simp
  refine ⟨⟨⟨?_, fun id => ?_⟩, fun id => ?_, fun id => ?_, ?_⟩, ?_, ?_⟩
  · rw [htables]
    exact h.sound.alertKeys
  · rw [houtcome, htables]
    exact ⟨(h.sound.settled id).decisions, (h.sound.settled id).tasks, (h.sound.settled id).samples,
      (h.sound.settled id).alerts⟩
  · rw [houtcome, htables]
    exact h.registered id
  · rw [houtcome, Audited, hentries]
    exact h.audited id
  · rw [hdecisions]
    exact h.asked
  · exact extends_of_decided (fun id outcome hid => (houtcome id).trans hid)
      (rows_subset_of_appended happended)
  · obtain ⟨entries, hrows, hrecorded⟩ := happended
    cases hrecorded with
    | cons hentry hrest =>
      cases hrest
      exact ⟨_, hrows ▸ List.mem_append_right _ List.mem_cons_self, hentry⟩

theorem DecidedAsAsked.decide {extraction : Extraction} {outcome : RoutingOutcome}
    (h : DecidedAsAsked past db) (hdecided : Decided db extraction outcome db')
    (hasks : Asks message extraction.id outcome) :
    DecidedAsAsked (past ++ [message]) db' ∧ deciding.Extends db db' := by
  obtain ⟨decision, hextraction, houtcome, hdecisions⟩ := hdecided.decisions
  refine ⟨⟨hdecided.sound h.sound, hdecided.registered h.registered,
    hdecided.audited h.audited, fun row hrow => ?_⟩, ?_⟩
  · rw [hdecisions] at hrow
    cases List.mem_append.mp hrow with
    | inl hold =>
      obtain ⟨asking, hmem, hold⟩ := h.asked row hold
      exact ⟨asking, List.mem_append_left _ hmem, hold⟩
    | inr hnew =>
      rw [List.mem_singleton.mp hnew, hextraction, houtcome]
      exact ⟨message, List.mem_append_right _ List.mem_cons_self, hasks⟩
  · apply extends_of_decided _ (rows_subset_of_appended hdecided.entries)
    intro id other hother
    have hfirst : id ≠ extraction.id := by
      rintro rfl
      rw [hdecided.decidedOutcome_own] at hother
      cases hother
    rw [hdecided.decidedOutcome, if_neg hfirst]
    exact hother

theorem DecidedAsAsked.mono (h : DecidedAsAsked past db) :
    DecidedAsAsked (past ++ [message]) db := by
  refine ⟨h.sound, h.registered, h.audited, fun decision hdecision => ?_⟩
  obtain ⟨asking, hmem, hasks⟩ := h.asked decision hdecision
  exact ⟨asking, List.mem_append_left _ hmem, hasks⟩

theorem DecidedAsAsked.upstream (h : DecidedAsAsked past db) (write : UpstreamWrite) :
    DecidedAsAsked past (write.apply db) ∧ deciding.Extends db (write.apply db) := by
  have hrows : ∃ rows, write.apply db = { db with extractions := rows } := by
    cases write with
    | insert row =>
      by_cases htaken : row.id ∈ db.extractions.map Extraction.id
      · exact ⟨db.extractions, if_pos htaken⟩
      · exact ⟨_, if_neg htaken⟩
    | score extractionId outcome confidence => exact ⟨_, rfl⟩
  obtain ⟨rows, hrows⟩ := hrows
  rw [hrows]
  refine ⟨⟨⟨h.sound.alertKeys, fun id => ?_⟩, h.registered, h.audited, h.asked⟩,
    extends_of_decided (fun _ _ hid => hid) (List.Subset.refl _)⟩
  exact ⟨(h.sound.settled id).decisions, (h.sound.settled id).tasks, (h.sound.settled id).samples,
    (h.sound.settled id).alerts⟩

theorem asks_of_agrees {extraction : Extraction} {outcome : RoutingOutcome} {id : Text}
    (hid : message.extractionId = some id) (hfields : mismatchedFields message extraction = [])
    (houtcome : extraction.routingOutcome = some outcome) : Asks message id outcome := by
  refine ⟨hid, fun text htext => ?_⟩
  by_contra hne
  have hfirst := (List.append_eq_nil_iff.mp hfields).1
  have hmismatch : message.routingOutcome.any (fun text =>
      extraction.routingOutcome.map RoutingOutcome.text ≠ some text) = true := by
    rw [Option.mem_def.mp htext, houtcome]
    simp [hne]
  rw [if_pos hmismatch] at hfirst
  cases hfirst

end Purpose

theorem decision_serves {σ : Type} (port : QueuePort σ DecisionMessage) (runner : WorkerRunner)
    (className : HandleError → Text) :
    Serves UpstreamWrite.apply (decisionService port runner className) deciding := by
  constructor
  · intro past db message stamps hinvariant
    have hworld := named_world className (handle message stamps) ⟨db, db⟩
    change DecidedAsAsked past (named className (handle message stamps) ⟨db, db⟩).2.durable ∧
      deciding.Extends db (named className (handle message stamps) ⟨db, db⟩).2.durable
    rw [hworld]
    rcases handle_durable message stamps db with hsame | ⟨_, _, u, db', hdurable, hentry⟩
    · rw [hsame]
      exact ⟨hinvariant, .refl db⟩
    · rw [hdurable]
      have ⟨htables, happended⟩ := auditAppend_returned hentry
      have ⟨hkept, hextends, _⟩ := DecidedAsAsked.append hinvariant htables happended rfl
      exact ⟨hkept, hextends⟩
  · intro past db message stamps session hinvariant hran
    obtain ⟨result, hhandled⟩ := named_returned hran
    obtain ⟨hdurable, id, extraction, cluster, envelope, hid, hextraction, hfields, hroute⟩ :=
      handle_returned hhandled
    obtain ⟨routed, outcome, hfound, houtcome, hdecided, heffect⟩ := route_decides hroute
    cases hextraction.symm.trans hfound
    have hasks := asks_of_agrees hid hfields houtcome
    have hdone : DecidedFor message session.current := ⟨id, outcome, hasks, hdecided⟩
    rw [hdurable]
    rcases heffect with hsame | hnew
    · rw [hsame] at hdone ⊢
      exact ⟨DecidedAsAsked.mono hinvariant, .refl db, hdone⟩
    · have hown := Database.extraction?_id hextraction
      have ⟨hkept, hextends⟩ := DecidedAsAsked.decide hinvariant hnew (hown.symm ▸ hasks)
      exact ⟨hkept, hextends, hdone⟩
  · intro past db db' stamps msg errorClass hinvariant happend
    obtain ⟨u, hentry⟩ := named_returned happend
    have ⟨htables, happended⟩ := auditAppend_returned hentry
    exact DecidedAsAsked.append hinvariant htables happended rfl
  · intro past db write hinvariant
    exact DecidedAsAsked.upstream hinvariant write

structure DecidedOnce {σ : Type} (runner : WorkerRunner)
    (w : ServiceWorld (RecordedQueue σ DecisionMessage) DecisionMessage Database) : Prop where
  once : ExactlyOnce w.db
  asked : ∀ decision ∈ w.db.decisions, ∃ message ∈ committedOf w.log,
    Asks message decision.extractionId decision.outcome
  decided : ∀ message ∈ committedOf w.log, DecidedFor message w.db
  acked : AcksAccounted runner deciding w

def decisionRunner : WorkerRunner where
  queueName := "DECISION_QUEUE".toList
  group := "backend.decision".toList
  consumerName := "host-1".toList

def sampleHandleStamps : HandleStamps where
  route := sampleStamps
  mismatchEntry := ⟨"m1".toList, sampleStamps.decision.time⟩
  deadLetterEntry := ⟨"d1".toList, sampleStamps.decision.time⟩

/-- A message is delivered twice, since the first ack raises. -/
def redeliveredDecision : List (ServiceStep HandleStamps DecisionMessage UpstreamWrite) :=
  [.upstream (.insert sampleConflict),
    .others { extractionId := some sampleConflict.id, routingOutcome := some "conflict".toList },
    .consume "host-1".toList .none,
    .deliver "host-1".toList sampleHandleStamps { ack := .raises false "ConnectionError".toList },
    .consume "host-1".toList .none,
    .deliver "host-1".toList sampleHandleStamps {}]

example : (Runs.run
    (serviceStep (fun message q => (InMemoryQueue.publish decisionRunner.queueName message q).2)
      UpstreamWrite.apply
      (decisionService InMemoryQueue.port decisionRunner fun _ => "Exception".toList))
    (ServiceState.initial InMemoryQueue.empty {}) redeliveredDecision).map (fun s =>
      (s.world.db.decisions.length, s.world.db.conflicts.length, s.world.log.map Prod.fst)) =
    some (1, 1, [.committed "1".toList, .committed "1".toList, .acked "1".toList]) := by
  decide +kernel

end LandRecords.Decision
