import LandRecords.Backend.Database

/-! The conflict register: conflicts are opened by validators and downstream
defect reports and moved through their states by officers. -/
namespace LandRecords.Publication

open Backend Audit Datetime Text

def ConflictState.ofText? : Text → Option ConflictState := fun text =>
  [.open, .underEnquiry, .resolved, .referred].find? fun state => state.text = text

/-- `BLOCKING_CONFLICT_STATES`. -/
def isBlocking : ConflictState → Bool
  | .open | .underEnquiry | .referred => true
  | .resolved => false

def openedConflict (stamp : Stamp) (records : List Text) (rule : Text)
    (evidence : List (Text × Text)) (origin : ConflictOrigin) : Conflict where
  id := stamp.id
  records := records
  rule := rule
  evidence := evidence
  origin := origin
  openedAt := stamp.time

def openConflict (records : List Text) (rule : Text) (evidence : List (Text × Text))
    (origin : ConflictOrigin) (stamp entry : Stamp) : Session Conflict := do
  let conflict := openedConflict stamp records rule evidence origin
  addConflict conflict
  auditAppend entry {
    actor := "system:".toList ++ origin.text
    action := "conflict.opened".toList
    subject := some conflict.id
    purpose := some rule }
  return conflict

/-- `{**evidence, "reported_by": name}`. -/
def reportedBy (name : Text) (evidence : List (Text × Text)) : List (Text × Text) :=
  (evidence.filter fun field => field.1 ≠ "reported_by".toList) ++ [("reported_by".toList, name)]

/-- `report_defect` of the adapter with the given name. -/
def reportDefect (name recordId rule : Text) (evidence : List (Text × Text))
    (stamp entry : Stamp) : Session Conflict :=
  openConflict [recordId] rule (reportedBy name evidence) .downstream stamp entry

def setState (conflictId : Text) (state : ConflictState) (conflicts : List Conflict) :
    List Conflict :=
  conflicts.map fun row => if row.id = conflictId then { row with state := state } else row

def withState (conflictId : Text) (state : ConflictState) (db : Database) : Database :=
  { db with conflicts := setState conflictId state db.conflicts }

def transition (conflictId newState actor : Text) (resolution : Option Text) (entry : Stamp) :
    Session Unit := do
  match ConflictState.ofText? newState with
  | none => Fallible.raise (.unrecognisedConflictState newState)
  | some state =>
    match ← Fallible.read fun db => db.conflict? conflictId with
    | none => Fallible.raise (.keyError "conflict".toList conflictId)
    | some conflict =>
      if conflict.state = state then
        Fallible.raise (.conflictAlreadyInState conflictId state)
      else if state = .resolved ∧ !isTruthy resolution then
        Fallible.raise .resolutionRequired
      else
        Fallible.write (withState conflict.id state)
        auditAppend entry {
          actor := actor
          action := "conflict.transitioned.".toList ++ newState
          subject := some conflict.id
          purpose := resolution }

def Moves (db : Database) (conflictId newState : Text) (resolution : Option Text)
    (conflict : Conflict) (state : ConflictState) : Prop :=
  db.conflict? conflictId = some conflict ∧ ConflictState.ofText? newState = some state ∧
    conflict.state ≠ state ∧ (state = .resolved → isTruthy resolution = true)

def openConflicts (db : Database) (recordId : Text) : List Conflict :=
  db.conflicts.filter fun row => recordId ∈ row.records ∧ isBlocking row.state

def checkOpenConflict (db : Database) (recordId : Text) : Option BlockReason :=
  let conflicts := openConflicts db recordId
  if conflicts.isEmpty then none
  else some (.openConflict recordId (conflicts.map Conflict.id) (conflicts.map Conflict.rule))

def isPublishBlocked (db : Database) (recordId : Text) : Bool :=
  (checkOpenConflict db recordId).isSome

section Returned

variable {db db' : Database}

theorem openConflict_returned {records : List Text} {rule : Text} {evidence : List (Text × Text)}
    {origin : ConflictOrigin} {stamp entry : Stamp} {conflict : Conflict}
    (h : openConflict records rule evidence origin stamp entry db = (.returned conflict, db')) :
    stamp.id ∉ db.conflicts.map Conflict.id ∧
      db' = (withConflict (openedConflict stamp records rule evidence origin) db).withAudit
        db'.audit := by
  simp only [openConflict, Fallible.bind_eq_returned, addConflict, addRow_returned] at h
  obtain ⟨_, _, ⟨hfresh, rfl⟩, _, _, hentry, h⟩ := h
  cases h
  exact ⟨of_decide_eq_false hfresh, (auditAppend_returned hentry).1⟩

theorem openConflict_raisesOnly (records : List Text) (rule : Text)
    (evidence : List (Text × Text)) (origin : ConflictOrigin) (stamp entry : Stamp) :
    Fallible.RaisesOnly (· = Error.integrityError)
      (openConflict records rule evidence origin stamp entry) := by
  apply Fallible.raisesOnly_bind (addRow_raisesOnly _ _)
  intro _
  exact Fallible.raisesOnly_bind (auditAppend_raisesOnly _ _) fun _ => Fallible.raisesOnly_pure _

theorem transition_returned {conflictId newState actor : Text} {resolution : Option Text}
    {entry : Stamp} {u : Unit}
    (h : transition conflictId newState actor resolution entry db = (.returned u, db')) :
    ∃ conflict state, Moves db conflictId newState resolution conflict state ∧
      db' = (withState conflictId state db).withAudit db'.audit := by
  unfold transition at h
  cases hstate : ConflictState.ofText? newState with
  | none =>
    rw [hstate] at h
    cases h
  | some state =>
    simp only [hstate, Fallible.read_bind] at h
    cases hconflict : db.conflict? conflictId with
    | none =>
      rw [hconflict] at h
      cases h
    | some conflict =>
      have hid := Database.conflict?_id hconflict
      simp only [hconflict] at h
      by_cases hsame : conflict.state = state
      · rw [if_pos hsame] at h
        cases h
      · rw [if_neg hsame] at h
        split at h
        · cases h
        · rename_i hreason
          rw [Fallible.write_bind, hid] at h
          refine ⟨conflict, state, ⟨hconflict, hstate, hsame, fun hresolved => ?_⟩,
            (auditAppend_returned h).1⟩
          by_contra hnone
          exact hreason ⟨hresolved, by simpa using hnone⟩

theorem transition_of_moves {conflictId newState actor : Text} {resolution : Option Text}
    {entry : Stamp} {conflict : Conflict} {state : ConflictState}
    (h : Moves db conflictId newState resolution conflict state) :
    transition conflictId newState actor resolution entry db =
      (Fallible.write (withState conflictId state) >>= fun _ => auditAppend entry {
        actor := actor
        action := "conflict.transitioned.".toList ++ newState
        subject := some conflictId
        purpose := resolution } : Session Unit) db := by
  obtain ⟨hconflict, hstate, hother, hreason⟩ := h
  have hid := Database.conflict?_id hconflict
  have haccepted : ¬ (state = .resolved ∧ (!isTruthy resolution) = true) := by
    rintro ⟨hresolved, hnone⟩
    rw [hreason hresolved] at hnone
    cases hnone
  unfold transition
  simp only [hstate, Fallible.read_bind, hconflict]
  rw [if_neg hother, if_neg haccepted, hid]

theorem transition_cases {conflictId newState actor : Text} {resolution : Option Text}
    {entry : Stamp} (h : commit (transition conflictId newState actor resolution entry) db = some db') :
    (db' = db ∧ ∀ conflict state, ¬ Moves db conflictId newState resolution conflict state) ∨
      ∃ conflict state, Moves db conflictId newState resolution conflict state ∧
        db' = (withState conflictId state db).withAudit db'.audit := by
  by_cases hmoves : ∃ conflict state, Moves db conflictId newState resolution conflict state
  · obtain ⟨conflict, state, hmoves⟩ := hmoves
    rw [commit_congr (transition_of_moves hmoves)] at h
    obtain ⟨u, hwritten⟩ := commit_returned h
      (Fallible.raisesOnly_bind (Fallible.raisesOnly_write _) fun _ => auditAppend_raisesOnly _ _)
    rw [Fallible.write_bind] at hwritten
    exact .inr ⟨conflict, state, hmoves, (auditAppend_returned hwritten).1⟩
  · refine .inl ⟨?_, fun conflict state hmove => hmoves ⟨conflict, state, hmove⟩⟩
    rcases commit_eq_some h with hunchanged | ⟨u, hreturned⟩
    · exact hunchanged
    · obtain ⟨conflict, state, hmove, -⟩ := transition_returned hreturned
      exact absurd ⟨conflict, state, hmove⟩ hmoves

end Returned

end LandRecords.Publication
