import LandRecords.Backend.Database
import LandRecords.Queue.InMemory
import LandRecords.Triage.ModelRegistry
import LandRecords.Triage.PinnedOnce
import LandRecords.Worker.AckedMessages
import Mathlib

/-! The triage router behind its queue. However often a message is delivered, and whatever is
promoted in between, a page that a committed message asked about has its one envelope, with a
complete set of versions, and a message for each of its lanes that carries it. A message is acked
when it was committed, or published to the dead-letter queue with an entry in the audit log. -/
namespace LandRecords.Triage

open Audit Datetime Outbox Queue Text Worker
open Backend (Stamp)

/-- The entries of the payload, where they are there. The ids of a page are texts; its type, its
role and the configuration version may be null. -/
structure TriageMessage where
  documentId : Option Text := none
  id : Option Text := none
  docType : Option (Option Text) := none
  pageRole : Option (Option Text) := none
  configVersion : Option (Option Text) := none
deriving DecidableEq

/-- `payload.get("config_version", "unversioned")`. -/
def TriageMessage.versionEntry (message : TriageMessage) : Option Text :=
  message.configVersion.getD (some "unversioned".toList)

inductive TriageError
  | keyError (field : Text)
  | multipleResultsFound
  | modelRegistryResolution (error : ResolutionError)
  | incompleteModelVersions (error : IncompleteModelVersions)
  | integrityError
  | audit (error : Backend.Error)

/-- The answers of the registry, the time zone of the session, the generated ids and the clock
readings of a delivery. -/
structure TriageSeed where
  ask : Text → RegistryReply
  zone : Zone
  envelopeId : Text
  messageId : Text → Text
  outboxId : Text → Text
  pinnedAt : Instant
  laneTime : Text → Instant
  deadLetterEntry : Stamp

/-- The arguments of `route_page` and what it is going to draw. -/
def TriageSeed.routing (seed : TriageSeed) (documentId pageId : Text)
    (docType pageRole configVersion : Option Text) : Routing where
  documentId := documentId
  pageId := pageId
  docType := docType
  pageRole := pageRole
  configVersion := configVersion
  resolved := (resolveActiveModelVersions seed.ask).toOption
  zone := seed.zone
  envelopeId := seed.envelopeId
  messageId := seed.messageId
  outboxId := seed.outboxId

abbrev RouteSession := Fallible Routes TriageError

def byPage (pageId : Text) : RouteSession (Option WorkEnvelope) := do
  match ← Fallible.read fun db => findByPage db pageId with
  | none => Fallible.raise .multipleResultsFound
  | some found => return found

/-- The `except` branch of `pin`, which looks for the winner of a race. -/
def afterIntegrityError (routing : Routing) : RouteSession (WorkEnvelope × Zone) := do
  match ← byPage routing.pageId with
  | some winner => return (winner, routing.zone)
  | none => Fallible.raise .integrityError

def pin (routing : Routing) (modelVersions : ModelVersions) (pinnedAt : Instant) :
    RouteSession (WorkEnvelope × Zone) := do
  match ← byPage routing.pageId with
  | some existing => return (existing, routing.zone)
  | none =>
      match checkModelVersions modelVersions with
      | .error error => Fallible.raise (.incompleteModelVersions error)
      | .ok _ =>
          match routing.configVersion with
          | none => afterIntegrityError routing
          | some configVersion =>
              let envelope := newEnvelope routing modelVersions configVersion pinnedAt
              let duplicate ← Fallible.read fun db =>
                decide (envelope.pageId ∈ db.envelopes.map WorkEnvelope.pageId ∨
                  envelope.envelopeId ∈ db.envelopes.map WorkEnvelope.envelopeId)
              if duplicate then afterIntegrityError routing
              else
                Fallible.write (Write.addEnvelope envelope).apply
                return (envelope, utc)

def sendLanes (routing : Routing) (laneTime : Text → Instant) (envelope : WorkEnvelope)
    (zone : Zone) : List Text → RouteSession Unit
  | [] => return ()
  | lane :: rest => do
      let row := laneMessage routing envelope zone lane (laneTime lane)
      let duplicate ← Fallible.read fun db => decide (row.id ∈ db.messages.map OutboxMessage.id)
      if duplicate then Fallible.raise .integrityError
      else
        Fallible.write (Write.addMessage row).apply
        sendLanes routing laneTime envelope zone rest

/-- The envelope that `route_page` goes on with. The registry is asked only where the page has
none. -/
def envelopeFor (routing : Routing) (seed : TriageSeed) : RouteSession (WorkEnvelope × Zone) := do
  match ← byPage routing.pageId with
  | some envelope => return (envelope, routing.zone)
  | none =>
      match resolveActiveModelVersions seed.ask with
      | .error error => Fallible.raise (.modelRegistryResolution error)
      | .ok modelVersions => pin routing modelVersions seed.pinnedAt

def routePage (routing : Routing) (seed : TriageSeed) : RouteSession (WorkEnvelope × List Text) := do
  let (envelope, zone) ← envelopeFor routing seed
  let lanes := laneFor routing.docType routing.pageRole
  sendLanes routing seed.laneTime envelope zone lanes
  return (envelope, lanes)

structure TriageDatabase where
  routes : Routes := {}
  backend : Backend.Database := {}

abbrev TriageSession := Fallible (Connection TriageDatabase) TriageError

def payloadEntry {α : Type} (field : Text) : Option α → TriageSession α
  | some value => return value
  | none => Fallible.raise (.keyError field)

def onRoutes {α : Type} (m : RouteSession α) : Fallible TriageDatabase TriageError α :=
  Fallible.within TriageDatabase.routes (fun routes tables => { tables with routes }) id m

def handle (message : TriageMessage) (seed : TriageSeed) : TriageSession (Text × List Text) := do
  let documentId ← payloadEntry "document_id".toList message.documentId
  let pageId ← payloadEntry "id".toList message.id
  let docType ← payloadEntry "doc_type".toList message.docType
  let pageRole ← payloadEntry "page_role".toList message.pageRole
  let routing := seed.routing documentId pageId docType pageRole message.versionEntry
  let (envelope, queuedTo) ← flushing id (onRoutes (routePage routing seed))
  return (envelope.envelopeId, queuedTo)

def appendEntry (stamp : Stamp) (args : AppendArgs) : Fallible TriageDatabase TriageError Unit :=
  Fallible.within TriageDatabase.backend (fun backend tables => { tables with backend }) .audit
    (Backend.auditAppend stamp args)

def triageService {σ : Type} (port : QueuePort σ TriageMessage) (runner : WorkerRunner)
    (className : TriageError → Text) : Service σ TriageMessage TriageDatabase TriageSeed where
  port := port
  runner := runner
  handler message seed := named className (handle message seed)
  auditAppend seed args := named className (appendEntry seed.deadLetterEntry args)

def backendWrite (write : Stamp × AppendArgs) (tables : TriageDatabase) : TriageDatabase :=
  (appendEntry write.1 write.2 tables).2

section Route

variable {routing : Routing} {seed : TriageSeed} {db db' : Routes}

theorem byPage_returned {pageId : Text} {found : Option WorkEnvelope}
    (h : byPage pageId db = (.returned found, db')) :
    findByPage db pageId = some found ∧ db' = db := by
  unfold byPage at h
  rw [Fallible.read_bind] at h
  cases hfound : findByPage db pageId with
  | none =>
    rw [hfound] at h
    cases h
  | some answer =>
    rw [hfound] at h
    cases h
    exact ⟨rfl, rfl⟩

theorem findByPage_none {pageId : Text} (h : findByPage db pageId = some none) :
    pageId ∉ db.envelopes.map WorkEnvelope.pageId := by
  unfold findByPage at h
  split at h
  case h_1 hnone =>
    intro hmem
    obtain ⟨envelope, henvelope, hpage⟩ := List.mem_map.mp hmem
    have hfound : envelope ∈ db.envelopes.filter fun row => row.pageId = pageId :=
      List.mem_filter.mpr ⟨henvelope, decide_eq_true hpage⟩
    rw [hnone] at hfound
    cases hfound
  case h_2 => cases h
  case h_3 => cases h

def Pins (routing : Routing) (db : Routes) (envelope : WorkEnvelope) (base : Routes) : Prop :=
  envelope.pageId = routing.pageId ∧
    ((envelope ∈ db.envelopes ∧ base = db) ∨
      ∃ modelVersions configVersion pinnedAt, routing.configVersion = some configVersion ∧
        envelope = newEnvelope routing modelVersions configVersion pinnedAt ∧
        CompleteVersions modelVersions ∧
        routing.pageId ∉ db.envelopes.map WorkEnvelope.pageId ∧
        base = (Write.addEnvelope envelope).apply db)

theorem afterIntegrityError_none (hpage : findByPage db routing.pageId = some none)
    {pinned : WorkEnvelope × Zone} :
    afterIntegrityError routing db ≠ (.returned pinned, db') := by
  intro h
  obtain ⟨winner, after, hwinner, hend⟩ := Fallible.bind_eq_returned.mp h
  obtain ⟨hsame, rfl⟩ := byPage_returned hwinner
  rw [hpage] at hsame
  cases hsame
  cases hend

theorem pin_returned {modelVersions : ModelVersions} {pinnedAt : Instant}
    {pinned : WorkEnvelope × Zone} (hversions : CompleteVersions modelVersions)
    (h : pin routing modelVersions pinnedAt db = (.returned pinned, db')) :
    Pins routing db pinned.1 db' := by
  unfold pin at h
  obtain ⟨found, middle, hfound, hrest⟩ := Fallible.bind_eq_returned.mp h
  obtain ⟨hpage, rfl⟩ := byPage_returned hfound
  cases found with
  | some existing =>
    cases hrest
    obtain ⟨hmem, hown⟩ := findByPage_some hpage
    exact ⟨hown, .inl ⟨hmem, rfl⟩⟩
  | none =>
    dsimp only at hrest
    rw [hversions.checked] at hrest
    cases hconfig : routing.configVersion with
    | none =>
      rw [hconfig] at hrest
      exact absurd hrest (afterIntegrityError_none hpage)
    | some configVersion =>
      rw [hconfig] at hrest
      dsimp only at hrest
      rw [Fallible.read_bind] at hrest
      split at hrest
      · exact absurd hrest (afterIntegrityError_none hpage)
      · cases hrest
        exact ⟨rfl, .inr ⟨modelVersions, configVersion, pinnedAt, hconfig, rfl, hversions,
          findByPage_none hpage, rfl⟩⟩

theorem envelopeFor_returned {pinned : WorkEnvelope × Zone}
    (h : envelopeFor routing seed db = (.returned pinned, db')) :
    Pins routing db pinned.1 db' := by
  unfold envelopeFor at h
  obtain ⟨found, middle, hfound, hrest⟩ := Fallible.bind_eq_returned.mp h
  obtain ⟨hpage, rfl⟩ := byPage_returned hfound
  cases found with
  | some existing =>
    cases hrest
    obtain ⟨hmem, hown⟩ := findByPage_some hpage
    exact ⟨hown, .inl ⟨hmem, rfl⟩⟩
  | none =>
    dsimp only at hrest
    cases hresolved : resolveActiveModelVersions seed.ask with
    | error error =>
      rw [hresolved] at hrest
      cases hrest
    | ok modelVersions =>
      rw [hresolved] at hrest
      exact pin_returned (resolveActiveModelVersions_complete hresolved) hrest

theorem sendLanes_returned {laneTime : Text → Instant} {envelope : WorkEnvelope} {zone : Zone}
    {lanes : List Text}
    (h : sendLanes routing laneTime envelope zone lanes db = (.returned (), db')) :
    db' = { db with messages := db.messages ++
      (lanes.map fun lane => laneMessage routing envelope zone lane (laneTime lane)) } := by
  induction lanes generalizing db with
  | nil =>
    cases h
    simp
  | cons lane rest ih =>
    rw [sendLanes] at h
    rw [Fallible.read_bind] at h
    split at h
    · cases h
    · rw [Fallible.write_bind] at h
      rw [ih h]
      simp [Write.apply]

/-- A returned routing has sent the page's envelope to each of its lanes. -/
theorem routePage_returned {result : WorkEnvelope × List Text}
    (h : routePage routing seed db = (.returned result, db')) :
    ∃ zone base, Pins routing db result.1 base ∧ db' = { base with messages := base.messages ++
      ((laneFor routing.docType routing.pageRole).map fun lane =>
        laneMessage routing result.1 zone lane (seed.laneTime lane)) } := by
  unfold routePage at h
  obtain ⟨⟨envelope, zone⟩, base, hpinned, hrest⟩ := Fallible.bind_eq_returned.mp h
  obtain ⟨_, after, hsent, hend⟩ := Fallible.bind_eq_returned.mp hrest
  cases hend
  exact ⟨zone, base, envelopeFor_returned hpinned, sendLanes_returned hsent⟩

end Route

/-! ## What the router is for -/

structure Reads (message : TriageMessage) (payload : LanePayload) : Prop where
  documentId : message.documentId = some payload.documentId
  pageId : message.id = some payload.pageId
  docType : message.docType = some payload.docType
  pageRole : message.pageRole = some payload.pageRole

def payloadOf (routing : Routing) : LanePayload :=
  ⟨routing.documentId, routing.pageId, routing.docType, routing.pageRole⟩

/-- The envelope is for the page of the message, with the configuration version that it names. -/
def PinnedFor (message : TriageMessage) (envelope : WorkEnvelope) : Prop :=
  message.documentId = some envelope.documentId ∧ message.id = some envelope.pageId ∧
    message.versionEntry = some envelope.configVersion

def SentFor (message : TriageMessage) (row : LaneMessage) : Prop :=
  Reads message row.envelope.payload ∧
    row.queue ∈ laneFor row.envelope.payload.docType row.envelope.payload.pageRole

structure TriagedAsAsked (past : List TriageMessage) (tables : TriageDatabase) : Prop where
  pinned : PinnedOnce tables.routes
  complete : ∀ envelope ∈ tables.routes.envelopes, CompleteVersions envelope.modelVersions
  asked : ∀ envelope ∈ tables.routes.envelopes, ∃ message ∈ past, PinnedFor message envelope
  sent : ∀ row ∈ tables.routes.messages, ∃ message ∈ past, SentFor message row

def TriagedFor (message : TriageMessage) (tables : TriageDatabase) : Prop :=
  ∃ payload, Reads message payload ∧ ∃ envelope ∈ tables.routes.envelopes,
    envelope.pageId = payload.pageId ∧ ∀ lane ∈ laneFor payload.docType payload.pageRole,
      ∃ row ∈ tables.routes.messages, row.queue = lane ∧ Carries envelope row

def triaging : Purpose TriageMessage TriageDatabase where
  invariant := TriagedAsAsked
  done := TriagedFor
  logged args tables := ∃ entry ∈ tables.backend.audit.rows, Backend.Recorded entry args

section Purpose

variable {past : List TriageMessage} {tables tables' : TriageDatabase} {message : TriageMessage}
  {routing : Routing} {base : Routes} {envelope : WorkEnvelope} {zone : Zone}
  {laneTime : Text → Instant}

theorem triaging_extends (henvelopes : tables.routes.envelopes ⊆ tables'.routes.envelopes)
    (hmessages : tables.routes.messages ⊆ tables'.routes.messages)
    (hrows : tables.backend.audit.rows ⊆ tables'.backend.audit.rows) :
    triaging.Extends tables tables' := by
  constructor
  · rintro message ⟨payload, hreads, envelope, henvelope, hpage, hlanes⟩
    refine ⟨payload, hreads, envelope, henvelopes henvelope, hpage, ?_⟩
    intro lane hlane
    obtain ⟨row, hrow, hqueue, hcarries⟩ := hlanes lane hlane
    exact ⟨row, hmessages hrow, hqueue, hcarries⟩
  · rintro args ⟨entry, hentry, hrecorded⟩
    exact ⟨entry, hrows hentry, hrecorded⟩

theorem Pins.envelopes (h : Pins routing tables.routes envelope base) :
    tables.routes.envelopes ⊆ base.envelopes ∧ envelope ∈ base.envelopes ∧
      base.messages = tables.routes.messages := by
  obtain ⟨-, ⟨hmem, rfl⟩ | ⟨modelVersions, configVersion, pinnedAt, -, -, -, -, rfl⟩⟩ := h
  · exact ⟨List.Subset.refl _, hmem, rfl⟩
  · exact ⟨List.subset_append_left _ _, List.mem_append_right _ (List.mem_singleton_self _), rfl⟩

theorem Pins.pinnedOnce (h : Pins routing tables.routes envelope base)
    (hpinned : PinnedOnce tables.routes) : PinnedOnce base := by
  obtain ⟨hpage, ⟨-, rfl⟩ | ⟨modelVersions, configVersion, pinnedAt, -, -, -, hnew, rfl⟩⟩ := h
  · exact hpinned
  · exact hpinned.addEnvelope (hpage ▸ hnew)

theorem Pins.cases (h : Pins routing tables.routes envelope base) {other : WorkEnvelope}
    (hother : other ∈ base.envelopes) : other ∈ tables.routes.envelopes ∨
      ∃ modelVersions configVersion pinnedAt, routing.configVersion = some configVersion ∧
        other = newEnvelope routing modelVersions configVersion pinnedAt ∧
        CompleteVersions modelVersions := by
  obtain ⟨-, ⟨-, rfl⟩ | ⟨modelVersions, configVersion, pinnedAt, hconfig, hnew, hversions, -,
    rfl⟩⟩ := h
  · exact .inl hother
  · rcases List.mem_append.mp hother with hold | hadded
    · exact .inl hold
    · rw [List.mem_singleton.mp hadded]
      exact .inr ⟨modelVersions, configVersion, pinnedAt, hconfig, hnew, hversions⟩

theorem PinnedOnce.addMessages (h : PinnedOnce base) (henvelope : envelope ∈ base.envelopes)
    (hpage : envelope.pageId = routing.pageId) (lanes : List Text) :
    PinnedOnce { base with messages := base.messages ++
      (lanes.map fun lane => laneMessage routing envelope zone lane (laneTime lane)) } := by
  refine ⟨h.once, fun row hrow => ?_⟩
  rcases List.mem_append.mp hrow with hold | hnew
  · exact h.carries row hold
  · obtain ⟨lane, -, rfl⟩ := List.mem_map.mp hnew
    exact ⟨envelope, henvelope, hpage.symm, zone, rfl⟩

theorem TriagedAsAsked.route (h : TriagedAsAsked past tables)
    (hreads : Reads message (payloadOf routing))
    (hconfig : routing.configVersion = message.versionEntry)
    (hpins : Pins routing tables.routes envelope base)
    (hroutes : tables'.routes = { base with messages := base.messages ++
      ((laneFor routing.docType routing.pageRole).map fun lane =>
        laneMessage routing envelope zone lane (laneTime lane)) })
    (hbackend : tables'.backend = tables.backend) :
    TriagedAsAsked (past ++ [message]) tables' ∧ triaging.Extends tables tables' ∧
      TriagedFor message tables' := by
  obtain ⟨hkept, hown, hmessages⟩ := hpins.envelopes
  have hself : message ∈ past ++ [message] := List.mem_append_right _ List.mem_cons_self
  refine ⟨⟨?_, ?_, ?_, ?_⟩, ?_, ?_⟩
  · rw [hroutes]
    exact (hpins.pinnedOnce h.pinned).addMessages hown hpins.1 _
  · rw [hroutes]
    intro other hother
    rcases hpins.cases hother with hold | ⟨modelVersions, configVersion, pinnedAt, -, rfl, hversions⟩
    · exact h.complete other hold
    · exact hversions
  · rw [hroutes]
    intro other hother
    rcases hpins.cases hother with hold | ⟨modelVersions, configVersion, pinnedAt, hnew, rfl, -⟩
    · obtain ⟨asking, hmem, hasks⟩ := h.asked other hold
      exact ⟨asking, List.mem_append_left _ hmem, hasks⟩
    · exact ⟨message, hself, hreads.documentId, hreads.pageId, hconfig.symm.trans hnew⟩
  · rw [hroutes]
    intro row hrow
    rcases List.mem_append.mp hrow with hold | hnew
    · rw [hmessages] at hold
      obtain ⟨asking, hmem, hasks⟩ := h.sent row hold
      exact ⟨asking, List.mem_append_left _ hmem, hasks⟩
    · obtain ⟨lane, hlane, rfl⟩ := List.mem_map.mp hnew
      exact ⟨message, hself, hreads, hlane⟩
  · apply triaging_extends
    · rw [hroutes]
      exact hkept
    · rw [hroutes, ← hmessages]
      exact List.subset_append_left _ _
    · rw [hbackend]
      exact List.Subset.refl _
  · refine ⟨payloadOf routing, hreads, envelope, ?_, hpins.1, ?_⟩
    · rw [hroutes]
      exact hown
    · intro lane hlane
      refine ⟨laneMessage routing envelope zone lane (laneTime lane), ?_, rfl, ?_⟩
      · rw [hroutes]
        exact List.mem_append_right _ (List.mem_map_of_mem hlane)
      · exact ⟨hpins.1.symm, zone, rfl⟩

theorem payloadEntry_returned {α : Type} {field : Text} {value : α} {entry : Option α}
    {session session' : Connection TriageDatabase}
    (h : payloadEntry field entry session = (.returned value, session')) :
    entry = some value ∧ session' = session := by
  cases entry with
  | none => cases h
  | some found =>
    cases h
    exact ⟨rfl, rfl⟩

theorem handle_returned {seed : TriageSeed} {result : Text × List Text}
    {session : Connection TriageDatabase}
    (h : handle message seed ⟨tables, tables⟩ = (.returned result, session)) :
    session.durable = tables ∧ ∃ (routing : Routing) (envelope : WorkEnvelope) (zone : Zone)
      (base : Routes) (laneTime : Text → Instant), Reads message (payloadOf routing) ∧
      routing.configVersion = message.versionEntry ∧
      Pins routing tables.routes envelope base ∧
      session.current.routes = { base with messages := base.messages ++
        ((laneFor routing.docType routing.pageRole).map fun lane =>
          laneMessage routing envelope zone lane (laneTime lane)) } ∧
      session.current.backend = tables.backend := by
  unfold handle at h
  obtain ⟨documentId, _, hdocument, hrest⟩ := Fallible.bind_eq_returned.mp h
  obtain ⟨hdocumentId, rfl⟩ := payloadEntry_returned hdocument
  obtain ⟨pageId, _, hpage, hrest⟩ := Fallible.bind_eq_returned.mp hrest
  obtain ⟨hpageId, rfl⟩ := payloadEntry_returned hpage
  obtain ⟨docType, _, htype, hrest⟩ := Fallible.bind_eq_returned.mp hrest
  obtain ⟨hdocType, rfl⟩ := payloadEntry_returned htype
  obtain ⟨pageRole, _, hrole, hrest⟩ := Fallible.bind_eq_returned.mp hrest
  obtain ⟨hpageRole, rfl⟩ := payloadEntry_returned hrole
  obtain ⟨⟨envelope, queuedTo⟩, after, hflushed, hend⟩ := Fallible.bind_eq_returned.mp hrest
  cases hend
  obtain ⟨hrouted, hdurable⟩ := flushing_returned hflushed
  obtain ⟨routes, hroute, htables⟩ := Fallible.within_returned.mp hrouted
  obtain ⟨zone, base, hpins, hroutes⟩ := routePage_returned hroute
  refine ⟨hdurable, seed.routing documentId pageId docType pageRole message.versionEntry, envelope,
    zone, base, seed.laneTime,
    ⟨hdocumentId, hpageId, hdocType, hpageRole⟩, rfl, hpins, ?_, ?_⟩
  · rw [← htables, hroutes]
  · rw [← htables]

theorem preserves_payloadEntry {α : Type} (field : Text) (entry : Option α)
    (I : Connection TriageDatabase → Prop) : Fallible.Preserves I (payloadEntry field entry) := by
  cases entry with
  | none => exact Fallible.triple_raise fun _ h => h
  | some value => exact Fallible.preserves_pure value

theorem handle_durable (message : TriageMessage) (seed : TriageSeed) (tables : TriageDatabase) :
    (handle message seed ⟨tables, tables⟩).2.durable = tables := by
  have hpreserves : Fallible.Preserves (fun session => session.durable = tables)
      (handle message seed) := by
    unfold handle
    apply Fallible.preserves_bind (preserves_payloadEntry _ _ _)
    intro documentId
    apply Fallible.preserves_bind (preserves_payloadEntry _ _ _)
    intro pageId
    apply Fallible.preserves_bind (preserves_payloadEntry _ _ _)
    intro docType
    apply Fallible.preserves_bind (preserves_payloadEntry _ _ _)
    intro pageRole
    apply Fallible.preserves_bind (preserves_flushing id _ (· = tables))
    intro routed
    exact Fallible.preserves_pure _
  exact hpreserves.world rfl

theorem TriagedAsAsked.append (h : TriagedAsAsked past tables) (stamp : Stamp)
    (args : AppendArgs) : TriagedAsAsked past (appendEntry stamp args tables).2 ∧
      triaging.Extends tables (appendEntry stamp args tables).2 ∧
        ((appendEntry stamp args tables).1 = .returned () →
          triaging.logged args (appendEntry stamp args tables).2) := by
  unfold appendEntry Fallible.within
  cases hrun : Backend.auditAppend stamp args tables.backend with
  | mk exit backend =>
    cases exit with
    | returned u =>
      obtain ⟨entries, hrows, hrecorded⟩ := (Backend.auditAppend_returned hrun).2
      refine ⟨⟨h.pinned, h.complete, h.asked, h.sent⟩, ?_, ?_⟩
      · change triaging.Extends tables { tables with backend }
        have hgrown : tables.backend.audit.rows ⊆ backend.audit.rows := by
          rw [hrows]
          exact List.subset_append_left _ _
        exact triaging_extends (List.Subset.refl _) (List.Subset.refl _) hgrown
      · intro _
        cases hrecorded with
        | cons hentry hnone =>
          cases hnone
          refine ⟨_, ?_, hentry⟩
          change _ ∈ backend.audit.rows
          rw [hrows]
          exact List.mem_append_right _ List.mem_cons_self
    | raised e =>
      have hunchanged : backend = tables.backend := by
        unfold Backend.auditAppend at hrun
        split at hrun
        · cases hrun
          rfl
        · cases hrun
      subst hunchanged
      refine ⟨h, .refl tables, ?_⟩
      intro hreturned
      cases hreturned
    | crashed =>
      unfold Backend.auditAppend at hrun
      split at hrun
      · cases hrun
      · cases hrun

end Purpose

theorem triage_serves {σ : Type} (port : QueuePort σ TriageMessage) (runner : WorkerRunner)
    (className : TriageError → Text) :
    Serves backendWrite (triageService port runner className) triaging := by
  constructor
  · intro past tables message seed hinvariant
    have hdurable := (congrArg Connection.durable (named_world className (handle message seed)
      ⟨tables, tables⟩)).trans (handle_durable message seed tables)
    change TriagedAsAsked past (named className (handle message seed) ⟨tables, tables⟩).2.durable ∧
      triaging.Extends tables (named className (handle message seed) ⟨tables, tables⟩).2.durable
    rw [hdurable]
    exact ⟨hinvariant, .refl tables⟩
  · intro past tables message seed session hinvariant hran
    obtain ⟨result, hhandled⟩ := named_returned hran
    obtain ⟨hdurable, routing, envelope, zone, base, laneTime, hreads, hconfig, hpins, hroutes,
      hbackend⟩ := handle_returned hhandled
    rw [hdurable]
    exact TriagedAsAsked.route hinvariant hreads hconfig hpins hroutes hbackend
  · intro past tables tables' seed msg errorClass hinvariant happend
    obtain ⟨u, hentry⟩ := named_returned happend
    have ⟨hkept, hextends, hlogged⟩ := TriagedAsAsked.append hinvariant seed.deadLetterEntry
      (letterEntry (triageService port runner className) msg errorClass)
    rw [hentry] at hkept hextends hlogged
    exact ⟨hkept, hextends, hlogged rfl⟩
  · intro past tables write hinvariant
    have ⟨hkept, hextends, _⟩ := TriagedAsAsked.append hinvariant write.1 write.2
    exact ⟨hkept, hextends⟩

/-- The pages that were triaged, and the messages that were acked. A page that a committed message
asked about has one envelope, and its lanes have their messages. -/
structure TriagedOnce {σ : Type} (runner : WorkerRunner)
    (w : ServiceWorld (RecordedQueue σ TriageMessage) TriageMessage TriageDatabase) : Prop where
  triaged : TriagedAsAsked (committedOf w.log) w.db
  one : ∀ message ∈ committedOf w.log, TriagedFor message w.db ∧
    ∃! envelope, envelope ∈ w.db.routes.envelopes ∧ message.id = some envelope.pageId
  acked : AcksAccounted runner triaging w

theorem TriagedFor.one {message : TriageMessage} {tables : TriageDatabase}
    (h : TriagedFor message tables) (hpinned : PinnedOnce tables.routes) :
    ∃! envelope, envelope ∈ tables.routes.envelopes ∧ message.id = some envelope.pageId := by
  obtain ⟨payload, hreads, envelope, henvelope, hpage, -⟩ := h
  have hown : message.id = some envelope.pageId := by rw [hreads.pageId, hpage]
  refine ⟨envelope, ⟨henvelope, hown⟩, fun other hother => ?_⟩
  have hsame : other.pageId = envelope.pageId := Option.some.inj (hother.2.symm.trans hown)
  exact List.inj_on_of_nodup_map hpinned.once hother.1 henvelope hsame

/-- Throughout every run of the workers, a page that a committed message asked about has one complete
envelope, its lanes are sent that one however often it is triaged, and no message is lost. -/
theorem pages_triaged {σ Env : Type} (act : Env → σ → σ) (port : QueuePort σ TriageMessage)
    (runner : WorkerRunner) (className : TriageError → Text) (queue : σ)
    (backend : Backend.Database) (steps : List (ServiceStep TriageSeed Env (Stamp × AppendArgs))) :
    ThroughoutRecorded act backendWrite (triageService port runner className)
      (fun s => TriagedOnce runner s.world) queue { backend } steps := by
  have hstart : triaging.invariant [] { backend } := by
    refine ⟨⟨List.nodup_nil, ?_⟩, ?_, ?_, ?_⟩
    · intro row hrow
      cases hrow
    · intro envelope henvelope
      cases henvelope
    · intro envelope henvelope
      cases henvelope
    · intro row hrow
      cases hrow
  refine (serving_throughout _ (triage_serves port.recorded runner className) hstart steps).imp
    fun s ⟨hs, hacked⟩ => ⟨hs.invariant, fun message hmessage => ?_, hacked⟩
  have hdone : TriagedFor message s.world.db := hs.done message hmessage
  exact ⟨hdone, hdone.one hs.invariant.pinned⟩

def triageRunner : WorkerRunner where
  queueName := "TRIAGE_QUEUE".toList
  group := "backend.triage".toList
  consumerName := "host-1".toList

def sampleTriageMessage : TriageMessage where
  documentId := some "d1".toList
  id := some "p1".toList
  docType := some (some "fmb_sketch".toList)
  pageRole := some (some "tabular_register".toList)

def sampleTriageSeed (registry : ModelRegistry) (id : String) : TriageSeed where
  ask := registry.reply
  zone := utc
  envelopeId := ("w" ++ id).toList
  messageId := fun lane => lane ++ id.toList
  outboxId := fun lane => lane ++ id.toList
  pinnedAt := newYear 1
  laneTime := fun _ => newYear 2
  deadLetterEntry := ⟨("l" ++ id).toList, newYear 3⟩

def promotedRegistry : ModelRegistry where
  promoted := validModules.map fun module => (module, { modelVersion := module ++ "_v2".toList })

def retriagedPage : List (ServiceStep TriageSeed TriageMessage (Stamp × AppendArgs)) :=
  [.others sampleTriageMessage, .consume "host-1".toList .none,
    .deliver "host-1".toList (sampleTriageSeed .baseline "1")
      { ack := .raises false "ConnectionError".toList },
    .consume "host-1".toList .none,
    .deliver "host-1".toList (sampleTriageSeed promotedRegistry "2") {}]

/-- Both lanes are sent the versions of the first delivery each time. -/
example : (Runs.run (serviceStep
    (fun message q => (InMemoryQueue.publish triageRunner.queueName message q).2) backendWrite
      (triageService InMemoryQueue.port triageRunner fun _ => "Exception".toList))
    (ServiceState.initial InMemoryQueue.empty {}) retriagedPage).map (fun s =>
      (s.world.db.routes.envelopes.length, s.world.db.routes.messages.map fun row =>
        (row.queue, row.envelope.workEnvelope.map fun envelope =>
          envelope.modelVersions.lookup "hwr".toList))) =
    some (1, [(textQueue, some (some "hwr_v1".toList)), (mapQueue, some (some "hwr_v1".toList)),
      (textQueue, some (some "hwr_v1".toList)), (mapQueue, some (some "hwr_v1".toList))]) := by
  decide +kernel

end LandRecords.Triage
