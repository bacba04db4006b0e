import LandRecords.Decision.ExactlyOnce
import LandRecords.Publication.ConflictRegister
import LandRecords.Review.Returned

/-! Replays while the conflict register and the review workflow are at work. The
replay of a conflict looks for one conflict row that names the extraction, and
fails once a second row does. -/
namespace LandRecords.Decision

open Backend Audit Datetime Text

/-- What the decision engine, the validators and the officers do. -/
inductive Activity
  | decision (step : Step)
  | openConflict (records : List Text) (rule : Text) (evidence : List (Text × Text))
      (origin : ConflictOrigin) (stamp entry : Stamp)
  | transition (conflictId newState actor : Text) (resolution : Option Text) (entry : Stamp)
  | claimNext (actor sessionId : Text) (now : Instant)
  | skip (taskId actor : Text) (entry : Stamp)
  | submit (taskId actor correctedValue : Text) (verdict : Option Text)
      (stamps : Review.SubmitStamps)

def act (db : Database) : Activity → Option Database
  | .decision a => step db a
  | .openConflict records rule evidence origin stamp entry =>
      commit (Publication.openConflict records rule evidence origin stamp entry) db
  | .transition conflictId newState actor resolution entry =>
      commit (Publication.transition conflictId newState actor resolution entry) db
  | .claimNext actor sessionId now => commit (Review.claimNext actor sessionId now) db
  | .skip taskId actor entry => commit (Review.skip taskId actor entry) db
  | .submit taskId actor correctedValue verdict stamps =>
      commit (Review.submit taskId actor correctedValue verdict stamps) db

def taskKey (task : ReviewTask) : Text × Text × SourceStream :=
  (task.id, task.extractionId, task.sourceStream)

structure SameEffects (db db' : Database) : Prop where
  extractions : db'.extractions = db.extractions
  decisions : db'.decisions = db.decisions
  tasks : db'.reviewTasks.map taskKey = db.reviewTasks.map taskKey
  samples : db'.auditSamples.map Review.sampleKey = db.auditSamples.map Review.sampleKey
  alerts : db'.operationalAlerts = db.operationalAlerts

theorem SameEffects.refl (db : Database) : SameEffects db db := ⟨rfl, rfl, rfl, rfl, rfl⟩

section Frame

variable {db db' : Database} {id : Text}

theorem SameEffects.decidedOutcome (h : SameEffects db db') (id : Text) :
    decidedOutcome db' id = decidedOutcome db id := by
  rw [Decision.decidedOutcome, decisionsFor, h.decisions]
  rfl

theorem map_reviewTasksFor {β : Type} (f : Text × Text × SourceStream → β) (db : Database)
    (id : Text) : (reviewTasksFor db id).map (f ∘ taskKey) =
      ((db.reviewTasks.map taskKey).filter fun key => key.2.1 = id).map f := by
  rw [List.filter_map, List.map_map]
  rfl

theorem map_auditSamplesFor {β : Type} (f : Text × Text × Option Text → β) (db : Database)
    (id : Text) : (auditSamplesFor db id).map (f ∘ Review.sampleKey) =
      ((db.auditSamples.map Review.sampleKey).filter fun key => key.2.1 = id).map f := by
  rw [List.filter_map, List.map_map]
  rfl

theorem SameEffects.reviewTasksFor (h : SameEffects db db') {β : Type}
    (f : Text × Text × SourceStream → β) (id : Text) :
    (reviewTasksFor db' id).map (f ∘ taskKey) = (reviewTasksFor db id).map (f ∘ taskKey) := by
  rw [map_reviewTasksFor, map_reviewTasksFor, h.tasks]

theorem SameEffects.auditSamplesFor (h : SameEffects db db') {β : Type}
    (f : Text × Text × Option Text → β) (id : Text) :
    (auditSamplesFor db' id).map (f ∘ Review.sampleKey) =
      (auditSamplesFor db id).map (f ∘ Review.sampleKey) := by
  rw [map_auditSamplesFor, map_auditSamplesFor, h.samples]

theorem SameEffects.settled (h : SameEffects db db') {decided : Option RoutingOutcome}
    (hs : Settled db id decided) : Settled db' id decided := by
  constructor
  · rw [decisionsFor, h.decisions]
    exact hs.decisions
  · exact (h.reviewTasksFor (fun key => key.2.2) id).trans hs.tasks
  · have hids := h.reviewTasksFor (fun key => some key.1) id
    refine (h.auditSamplesFor (fun key => key.2.2) id).trans (hs.samples.trans ?_)
    split
    · exact hids.symm
    · rfl
  · rw [alertsListing, h.alerts]
    exact hs.alerts

theorem SameEffects.sound (h : SameEffects db db') (hs : Sound db) : Sound db' := by
  constructor
  · rw [AlertKeys, h.alerts]
    exact hs.alertKeys
  · intro id
    rw [h.decidedOutcome id]
    exact h.settled (hs.settled id)

theorem map_taskKey_mapTask (taskId : Text) (update : ReviewTask → ReviewTask)
    (hkey : ∀ row, taskKey (update row) = taskKey row) (db : Database) :
    (Review.mapTask taskId update db).reviewTasks.map taskKey = db.reviewTasks.map taskKey :=
  Rows.map_updateAt hkey db.reviewTasks

def Listed (db db' : Database) (records : List Text) : Prop :=
  ∀ id, (conflictsNaming db' id).length =
    (conflictsNaming db id).length + if id ∈ records then 1 else 0

theorem listed_of_conflicts (h : db'.conflicts = db.conflicts) : Listed db db' [] := by
  intro id
  rw [conflictsNaming, h]
  rfl

theorem listed_withState (conflictId : Text) (state : ConflictState) :
    Listed db (Publication.withState conflictId state db) [] := by
  intro id
  have hnaming : conflictsNaming (Publication.withState conflictId state db) id =
      Publication.setState conflictId state (conflictsNaming db id) := by
    apply Rows.filter_updateAt
    intro row
    rfl
  rw [hnaming, Publication.setState, List.length_map]
  rfl

def newRecords : Activity → List Text
  | .openConflict records .. => records
  | _ => []

theorem act_cases {a : Activity} (h : act db a = some db') :
    (∃ b, a = .decision b ∧ step db b = some db') ∨
      (SameEffects db db' ∧ Listed db db' (newRecords a)) := by
  cases a with
  | decision b => exact .inl ⟨b, rfl, h⟩
  | openConflict records rule evidence origin stamp entry =>
    obtain ⟨_, hopened⟩ := commit_returned h (Publication.openConflict_raisesOnly _ _ _ _ _ _)
    obtain ⟨-, hdb'⟩ := Publication.openConflict_returned hopened
    rw [hdb']
    refine .inr ⟨⟨rfl, rfl, rfl, rfl, rfl⟩, fun id => ?_⟩
    simp only [conflictsNaming, Database.withAudit, withConflict, List.filter_append,
      List.length_append, newRecords]
    congr 1
    by_cases hmem : id ∈ records
    · simp [Publication.openedConflict, hmem]
    · simp [Publication.openedConflict, hmem]
  | transition conflictId newState actor resolution entry =>
    rcases commit_eq_some h with rfl | ⟨_, hresult⟩
    · exact .inr ⟨.refl _, listed_of_conflicts rfl⟩
    · obtain ⟨conflict, state, -, hdb'⟩ := Publication.transition_returned hresult
      rw [hdb']
      exact .inr ⟨⟨rfl, rfl, rfl, rfl, rfl⟩, listed_withState conflictId state⟩
  | claimNext actor sessionId now =>
    rcases commit_eq_some h with rfl | ⟨_, hresult⟩
    · exact .inr ⟨.refl _, listed_of_conflicts rfl⟩
    · rcases Review.claimNext_returned hresult with rfl | ⟨task, sessions, hour, -, -, -, rfl⟩
      · exact .inr ⟨.refl _, listed_of_conflicts rfl⟩
      · have htasks := map_taskKey_mapTask task.id (Review.claimedBy actor hour) (fun _ => rfl)
          (Review.withSessions sessions db)
        exact .inr ⟨⟨rfl, rfl, htasks, rfl, rfl⟩, listed_of_conflicts rfl⟩
  | skip taskId actor entry =>
    rcases commit_eq_some h with rfl | ⟨_, hresult⟩
    · exact .inr ⟨.refl _, listed_of_conflicts rfl⟩
    · obtain ⟨task, -, -, -, hdb'⟩ := Review.skip_returned hresult
      rw [hdb']
      have htasks := map_taskKey_mapTask taskId Review.released (fun _ => rfl) db
      exact .inr ⟨⟨rfl, rfl, htasks, rfl, rfl⟩, listed_of_conflicts rfl⟩
  | submit taskId actor correctedValue verdict stamps =>
    rcases commit_eq_some h with rfl | ⟨_, hresult⟩
    · exact .inr ⟨.refl _, listed_of_conflicts rfl⟩
    · obtain ⟨task, extraction, row, mid, samples, -, -, -, -, hmid, hsamples, hdb', -⟩ :=
        Review.submit_returned hresult
      rw [hdb']
      have htasks := map_taskKey_mapTask taskId (Review.closedOn stamps.closedAt) (fun _ => rfl)
        (Review.withSamples samples mid)
      cases hmid with
      | held digest stamp _ _ =>
        exact .inr ⟨⟨rfl, rfl, htasks, hsamples, rfl⟩, listed_of_conflicts rfl⟩
      | written digest stamp _ _ =>
        exact .inr ⟨⟨rfl, rfl, htasks, hsamples, rfl⟩, listed_of_conflicts rfl⟩

end Frame

/-- Every decided extraction whose outcome still stands is replayed. -/
def ReplayReturns (db : Database) : Prop :=
  ∀ extractionId extraction decision, db.extraction? extractionId = some extraction →
    decision ∈ decisionsFor db extractionId → extraction.routingOutcome = some decision.outcome →
    ∀ noveltyClusterId envelopeId stamps, ∃ stored,
      route extractionId noveltyClusterId envelopeId stamps db = (.returned (.replayed stored), db)

def stillConflict (db : Database) (extractionId : Text) : Bool :=
  (db.extraction? extractionId).any (fun row => row.routingOutcome = some .conflict) &&
    decidedOutcome db extractionId = some .conflict

/-- No step gives a conflict-decided extraction a second conflict row. -/
def NamesOnce (db : Database) : Activity → Prop
  | .openConflict records .. => ∀ id ∈ records, stillConflict db id = false
  | .decision (.route extractionId ..) => ∀ extraction,
      Routable db extractionId extraction .conflict → conflictsNaming db extractionId = []
  | .decision (.setRoutingOutcome extractionId outcome) => outcome = some .conflict →
      decidedOutcome db extractionId = some .conflict →
      (conflictsNaming db extractionId).length ≤ 1
  | _ => True

def Once (db : Database) : Prop :=
  ∀ id, stillConflict db id = true → (conflictsNaming db id).length ≤ 1

/-- What holds whatever else is opened: a decided extraction has its row, and a
conflict-decided one its conflict. -/
structure Tracked (db : Database) : Prop where
  sound : Sound db
  rows : ∀ id, decidedOutcome db id ≠ none → id ∈ db.extractions.map Extraction.id
  named : ∀ id, decidedOutcome db id = some .conflict → 0 < (conflictsNaming db id).length

section Rows

variable {db : Database} {id extractionId : Text}

theorem extraction?_eq_none : db.extraction? id = none ↔ id ∉ db.extractions.map Extraction.id := by
  simp [Database.extraction?, List.find?_eq_none]

theorem extraction?_append {row : Extraction} (h : row.id ≠ id) :
    ({ db with extractions := db.extractions ++ [row] } : Database).extraction? id =
      db.extraction? id := by
  simp [Database.extraction?, List.find?_append, h]

theorem extraction?_withRoutingOutcome (outcome : Option RoutingOutcome) :
    ({ db with extractions := withRoutingOutcome extractionId outcome db.extractions } :
      Database).extraction? id = (db.extraction? id).map fun row =>
        if row.id = extractionId then { row with routingOutcome := outcome } else row := by
  apply Rows.find?_updateAt
  intro row
  rfl

end Rows

theorem Tracked.act {db db' : Database} {a : Activity} (h : Tracked db)
    (hact : act db a = some db') : Tracked db' := by
  rcases act_cases hact with ⟨b, rfl, hstep⟩ | ⟨hsame, hlisted⟩
  · have hsound := h.sound.step hstep
    rcases step_cases hstep with ⟨rows, rfl, hrows⟩ | ⟨extraction, outcome, hroutable, hdecided⟩
    · exact ⟨hsound, fun id hid => hrows (h.rows id hid), h.named⟩
    · refine ⟨hsound, ?_, ?_⟩
      · intro id hid
        rw [hdecided.extractions]
        rw [hdecided.decidedOutcome id] at hid
        split at hid
        · rename_i hown
          rw [hown]
          exact List.mem_map_of_mem (List.mem_of_find?_eq_some hroutable.1)
        · exact h.rows id hid
      · intro id hid
        rw [hdecided.decidedOutcome id] at hid
        rw [hdecided.conflictsNaming_length id]
        split at hid
        · rename_i hown
          rw [if_pos ⟨hown, Option.some.inj hid⟩]
          exact Nat.succ_pos _
        · exact Nat.add_pos_left (h.named id hid) _
  · refine ⟨hsame.sound h.sound, ?_, ?_⟩
    · intro id hdecided
      rw [hsame.decidedOutcome] at hdecided
      rw [hsame.extractions]
      exact h.rows id hdecided
    · intro id hdecided
      rw [hsame.decidedOutcome] at hdecided
      rw [hlisted id]
      exact Nat.add_pos_left (h.named id hdecided) _

theorem stillConflict_iff {db : Database} {id : Text} : stillConflict db id = true ↔
    ∃ extraction, db.extraction? id = some extraction ∧
      extraction.routingOutcome = some .conflict ∧ decidedOutcome db id = some .conflict := by
  unfold stillConflict
  cases db.extraction? id with
  | none => simp
  | some extraction => simp

/-- Where the rows are tracked, replays return exactly when no row is in the way. -/
theorem replayReturns_iff_once {db : Database} (h : Tracked db) : ReplayReturns db ↔ Once db := by
  constructor
  · intro hreturns id hstill
    obtain ⟨extraction, hextraction, houtcome, hdecided⟩ := stillConflict_iff.mp hstill
    have hsettled := h.sound.settled id
    rw [hdecided] at hsettled
    obtain ⟨decision, hdecision, hconflict⟩ := hsettled.decision
    by_contra hmany
    have hid := Database.extraction?_id hextraction
    subst hid
    obtain ⟨stored, hstored⟩ := hreturns extraction.id extraction decision hextraction
      (by rw [hdecision]; exact List.mem_singleton_self _) (hconflict ▸ houtcome) none none
      ⟨newYear 0, ⟨[], newYear 0⟩, [], ⟨[], newYear 0⟩, ⟨[], newYear 0⟩, ⟨[], newYear 0⟩⟩
    rw [route_of_decided hextraction houtcome hdecision, if_pos hconflict,
      Fallible.bind_raised (replay_raises (Nat.lt_of_not_le hmany))] at hstored
    cases hstored
  · intro honce extractionId extraction decision hextraction hdecision houtcome _ _ _
    have hid := Database.extraction?_id hextraction
    subst hid
    have hsettled := h.sound.settled extraction.id
    have hdecided := decidedOutcome_of_mem hsettled hdecision
    obtain ⟨stored, hstored⟩ := replay_returns extraction decision.outcome
      hsettled.reviewTasksFor_le_one hsettled.auditSamplesFor_le_one
      (fun hconflict => honce extraction.id (stillConflict_iff.mpr
        ⟨extraction, hextraction, hconflict ▸ houtcome, hconflict ▸ hdecided⟩))
      hsettled.alertsListing_le_one
    apply Exists.intro stored
    rw [route_of_decided hextraction houtcome (hsettled.eq_singleton hdecision), if_pos rfl,
      Fallible.bind_returned hstored]
    rfl

section Step

variable {db db' : Database} {id : Text}

theorem SameEffects.stillConflict (h : SameEffects db db') (id : Text) :
    stillConflict db' id = stillConflict db id := by
  rw [Decision.stillConflict, h.decidedOutcome, Database.extraction?, h.extractions]
  rfl

theorem once_of_listed {records : List Text} (h : Tracked db) (honce : Once db)
    (hsame : SameEffects db db') (hlisted : Listed db db' records) :
    Once db' ↔ ∀ id ∈ records, stillConflict db id = false := by
  constructor
  · intro honce' id hid
    by_contra hstill
    rw [Bool.not_eq_false] at hstill
    obtain ⟨-, -, -, hdecided⟩ := stillConflict_iff.mp hstill
    have hnamed := h.named id hdecided
    have hlength := honce' id ((hsame.stillConflict id).trans hstill)
    rw [hlisted id, if_pos hid] at hlength
    omega
  · intro hfree id hstill
    rw [hsame.stillConflict] at hstill
    have hid : id ∉ records := by
      intro hid
      rw [hfree id hid] at hstill
      cases hstill
    rw [hlisted id, if_neg hid]
    exact honce id hstill

theorem once_insertExtraction {row : Extraction} (h : Tracked db) (honce : Once db)
    (hfresh : row.id ∉ db.extractions.map Extraction.id) :
    Once { db with extractions := db.extractions ++ [row] } := by
  intro id hstill
  obtain ⟨extraction, hextraction, houtcome, hdecided⟩ := stillConflict_iff.mp hstill
  have hdecidedDb : decidedOutcome db id = some .conflict := hdecided
  have hother : row.id ≠ id := by
    rintro rfl
    exact hfresh (h.rows row.id (by simp [hdecidedDb]))
  rw [extraction?_append hother] at hextraction
  exact honce id (stillConflict_iff.mpr ⟨extraction, hextraction, houtcome, hdecidedDb⟩)

theorem once_setRoutingOutcome {extractionId : Text} {outcome : Option RoutingOutcome}
    (h : Tracked db) (honce : Once db) :
    Once { db with extractions := withRoutingOutcome extractionId outcome db.extractions } ↔
      (outcome = some .conflict → decidedOutcome db extractionId = some .conflict →
        (conflictsNaming db extractionId).length ≤ 1) := by
  constructor
  · rintro honce' rfl hdecided
    apply honce' extractionId
    cases hfound : db.extraction? extractionId with
    | none => exact absurd (h.rows extractionId (by simp [hdecided])) (extraction?_eq_none.mp hfound)
    | some extraction =>
      have hid := Database.extraction?_id hfound
      apply stillConflict_iff.mpr
      rw [extraction?_withRoutingOutcome, hfound, Option.map_some, if_pos hid]
      exact ⟨_, rfl, rfl, hdecided⟩
  · intro hok id hstill
    obtain ⟨extraction, hextraction, houtcome, hdecided⟩ := stillConflict_iff.mp hstill
    have hdecidedDb : decidedOutcome db id = some .conflict := hdecided
    rw [extraction?_withRoutingOutcome, Option.map_eq_some_iff] at hextraction
    obtain ⟨old, hold, rfl⟩ := hextraction
    have hid := Database.extraction?_id hold
    by_cases hown : old.id = extractionId
    · rw [if_pos hown] at houtcome
      subst hid
      rw [hown] at hdecidedDb ⊢
      exact hok houtcome hdecidedDb
    · rw [if_neg hown] at houtcome
      exact honce id (stillConflict_iff.mpr ⟨old, hold, houtcome, hdecidedDb⟩)

theorem once_decided {extraction : Extraction} {outcome : RoutingOutcome} (honce : Once db)
    (hroutable : Routable db extraction.id extraction outcome)
    (hdecided : Decided db extraction outcome db') :
    Once db' ↔ (outcome = .conflict → conflictsNaming db extraction.id = []) := by
  have hrow : ∀ id, db'.extraction? id = db.extraction? id := by
    intro id
    rw [Database.extraction?, hdecided.extractions]
    rfl
  constructor
  · rintro honce' rfl
    have hstill : stillConflict db' extraction.id = true := by
      refine stillConflict_iff.mpr ⟨extraction, ?_, hroutable.2.1, ?_⟩
      · rw [hrow]
        exact hroutable.1
      · rw [hdecided.decidedOutcome, if_pos rfl]
    have hlength := honce' extraction.id hstill
    rw [hdecided.conflictsNaming_length, if_pos ⟨rfl, rfl⟩] at hlength
    exact List.length_eq_zero_iff.mp (by omega)
  · intro hok id hstill
    obtain ⟨row, hfound, hconflict, hown⟩ := stillConflict_iff.mp hstill
    rw [hdecided.decidedOutcome] at hown
    rw [hrow] at hfound
    rw [hdecided.conflictsNaming_length]
    by_cases hid : id = extraction.id
    · subst hid
      rw [if_pos rfl] at hown
      rw [hok (Option.some.inj hown)]
      split <;> simp
    · rw [if_neg hid] at hown
      rw [if_neg (fun hboth => hid hboth.1)]
      exact honce id (stillConflict_iff.mpr ⟨row, hfound, hconflict, hown⟩)

theorem once_step {b : Step} (h : Tracked db) (honce : Once db) (hstep : step db b = some db') :
    Once db' ↔ NamesOnce db (.decision b) := by
  cases b with
  | insertExtraction row =>
    simp only [step] at hstep
    split at hstep
    · cases hstep
    · rename_i hfresh
      cases hstep
      exact iff_of_true (once_insertExtraction h honce hfresh) trivial
  | setRoutingOutcome extractionId outcome =>
    cases hstep
    exact once_setRoutingOutcome h honce
  | route extractionId noveltyClusterId envelopeId stamps =>
    rcases step_route hstep with ⟨rfl, hnone⟩ | ⟨extraction, outcome, hroutable, hdecided⟩
    · exact iff_of_true honce fun row hroutable => absurd hroutable (hnone row _)
    · have hid := Database.extraction?_id hroutable.1
      subst hid
      rw [once_decided honce hroutable hdecided]
      constructor
      · intro hok row hrow
        obtain rfl := Option.some.inj (hroutable.1.symm.trans hrow.1)
        exact hok (Option.some.inj (hroutable.2.1.symm.trans hrow.2.1))
      · rintro hok rfl
        exact hok extraction hroutable

/-- An activity keeps every conflict-decided extraction once named exactly when
it names none a second time. -/
theorem once_iff_namesOnce {a : Activity} (h : Tracked db) (honce : Once db)
    (hact : act db a = some db') : Once db' ↔ NamesOnce db a := by
  rcases act_cases hact with ⟨b, rfl, hstep⟩ | ⟨hsame, hlisted⟩
  · exact once_step h honce hstep
  · have hiff := once_of_listed h honce hsame hlisted
    cases a with
    | decision b => exact once_step h honce hact
    | openConflict records rule evidence origin stamp entry => exact hiff
    | _ => exact iff_of_true (hiff.mpr (by simp [newRecords])) trivial

end Step

theorem Undecided.tracked {db : Database} (h : Undecided db) : Tracked db := by
  constructor
  · exact h.sound
  · intro id hdecided
    exact absurd (h.decidedOutcome id) hdecided
  · intro id hdecided
    rw [h.decidedOutcome id] at hdecided
    cases hdecided

theorem Undecided.once {db : Database} (h : Undecided db) : Once db := by
  intro id hstill
  obtain ⟨-, -, -, hdecided⟩ := stillConflict_iff.mp hstill
  rw [h.decidedOutcome id] at hdecided
  cases hdecided

/-- Replays return throughout a run exactly when no step of it names a
conflict-decided extraction a second time. -/
theorem replays_return_iff {db : Database} (h : Undecided db) (activities : List Activity) :
    Runs.Throughout act ReplayReturns db activities ↔
      Runs.AllSteps act NamesOnce db activities := by
  apply Runs.throughout_iff_of_exact (I := Tracked) (C := Once) h.tracked h.once
  · intro db a db' hdb honce hact
    exact ⟨hdb.act hact, once_iff_namesOnce hdb honce hact⟩
  · exact fun db hdb => replayReturns_iff_once hdb

def namedTwice : List Activity :=
  [.decision (.insertExtraction sampleConflict),
    .decision (.route sampleConflict.id none none sampleStamps),
    .openConflict [sampleConflict.id] "area-mismatch".toList [] .downstream
      ⟨"c2".toList, newYear 3⟩ ⟨"a3".toList, newYear 3⟩]

theorem replays_return_iff_namedTwice : Runs.Throughout act ReplayReturns {} namedTwice ↔
    Runs.AllSteps act NamesOnce {} namedTwice := replays_return_iff undecided_empty namedTwice

theorem namedTwice_replay_raises : ¬ Runs.Throughout act ReplayReturns {} namedTwice := by
  intro h
  have hraised : (Runs.run act {} namedTwice).any (fun db =>
      db.extraction? sampleConflict.id = some sampleConflict ∧
        (decisionsFor db sampleConflict.id).map DecisionRecord.outcome = [.conflict] ∧
        (route sampleConflict.id none none sampleStamps db).1 = .raised .multipleResultsFound) =
      true := by decide +kernel
  obtain ⟨db, hrun, hdb⟩ := (Option.any_eq_true _ _).mp hraised
  obtain ⟨hextraction, hdecisions, hroute⟩ := of_decide_eq_true hdb
  obtain ⟨decision, hdecision, houtcome⟩ := List.map_eq_singleton_iff.mp hdecisions
  obtain ⟨stored, hstored⟩ := h.at_run hrun _ _ decision hextraction
    (by rw [hdecision]; exact List.mem_singleton_self _) (by rw [houtcome]; rfl) none none
    sampleStamps
  rw [hstored] at hroute
  cases hroute

end LandRecords.Decision
