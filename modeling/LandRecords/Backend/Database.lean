import LandRecords.Audit.Chain
import LandRecords.Backend.Entities
import LandRecords.Base.Fallible
import LandRecords.Base.Rows

/-! The database behind a session, and the statements that the domain functions
are made of. A domain function only flushes; its caller commits or rolls back. -/
namespace LandRecords.Backend

open Datetime Text

structure Database where
  batches : List Batch := []
  sourceDocuments : List SourceDocument := []
  pages : List Page := []
  extractions : List Extraction := []
  decisions : List DecisionRecord := []
  reviewTasks : List ReviewTask := []
  auditSamples : List AuditSample := []
  conflicts : List Conflict := []
  operationalAlerts : List OperationalAlert := []
  corrections : List Correction := []
  pendingCorrections : List PendingCorrection := []
  reviewSessions : List ReviewSession := []
  records : List Record := []
  volumeIndexes : List VolumeIndex := []
  configVersions : List ConfigVersion := []
  outboxMessages : List OutboxMessage := []
  audit : Audit.AuditTable := .empty

inductive BlockReason
  | volumeGap (batchId : Text) (missingIndexPositions : List Int)
  | openConflict (recordId : Text) (conflictIds rules : List Text)
deriving DecidableEq

inductive Error
  /-- A unique key or a primary key is taken. -/
  | integrityError
  | multipleResultsFound
  /-- An attribute of `None`. -/
  | attributeError
  | keyError (table id : Text)
  | extractionNotFoundError (extractionId : Text)
  | unroutableExtraction (extractionId : Text) (routingOutcome : Option RoutingOutcome)
  | alreadyDecidedWithDifferentOutcome (extractionId : Text) (decided requested : RoutingOutcome)
  | unrecognisedConflictState (newState : Text)
  | conflictAlreadyInState (conflictId : Text) (state : ConflictState)
  | resolutionRequired
  | reviewTaskNotClaimable (taskId : Text)
  | notTheClaimant (taskId : Text) (assignee : Option Text) (actor : Text)
  | noStorageUri (pageId : Text)
  | invalidVerdict (verdict : Text)
  | pendingCorrectionAlreadyResolved (pendingId : Text) (state : PendingState)
  | sameActorCannotConfirm (actor firstActor : Text) (claimant : Option Text)
  | publishBlocked (reasons : List BlockReason)
  | notAcknowledgeable (state : VolumeState)
  | configNotFound (scope key : Text) (configVersion : Option Text)
  | authorEqualsApprover (actor : Text)
deriving DecidableEq

abbrev Session := Fallible Database Error

namespace Database

variable (db : Database)

/-- `session.get(Extraction, id)`. -/
def extraction? (id : Text) : Option Extraction := db.extractions.find? fun row => row.id = id
def page? (id : Text) : Option Page := db.pages.find? fun row => row.id = id
def sourceDocument? (id : Text) : Option SourceDocument :=
  db.sourceDocuments.find? fun row => row.id = id
def batch? (id : Text) : Option Batch := db.batches.find? fun row => row.id = id

def conflict? (id : Text) : Option Conflict := db.conflicts.find? fun row => row.id = id

def reviewTask? (id : Text) : Option ReviewTask := db.reviewTasks.find? fun row => row.id = id
def pendingCorrection? (id : Text) : Option PendingCorrection :=
  db.pendingCorrections.find? fun row => row.id = id

def withAudit (table : Audit.AuditTable) : Database := { db with audit := table }

end Database

def addRow (taken : Database → Bool) (insert : Database → Database) : Session Unit := fun db =>
  if taken db then (.raised .integrityError, db) else (.returned (), insert db)

def withConflict (conflict : Conflict) (db : Database) : Database :=
  { db with conflicts := db.conflicts ++ [conflict] }

def addConflict (conflict : Conflict) : Session Unit :=
  addRow (fun db => conflict.id ∈ db.conflicts.map Conflict.id) (withConflict conflict)

/-- `scalar_one_or_none()` on the rows of a query. -/
def scalarOneOrNone {ρ : Type} (query : Database → List ρ) : Session (Option ρ) := fun db =>
  match query db with
  | [] => (.returned none, db)
  | [row] => (.returned (some row), db)
  | _ :: _ :: _ => (.raised .multipleResultsFound, db)

/-- `landaudit.append` in the session. -/
def auditAppend (entry : Stamp) (args : Audit.AppendArgs) : Session Unit := fun db =>
  match Audit.append db.audit entry.id entry.time args with
  | .error _ => (.raised .integrityError, db)
  | .ok (_, table) => (.returned (), db.withAudit table)

def Recorded (entry : Audit.AuditEntry) (args : Audit.AppendArgs) : Prop :=
  ∃ id now last, entry = Audit.newEntry id now args last

theorem Recorded.action {entry : Audit.AuditEntry} {args : Audit.AppendArgs}
    (h : Recorded entry args) : entry.action = args.action := by
  obtain ⟨id, now, last, rfl⟩ := h
  rfl

theorem Recorded.subject {entry : Audit.AuditEntry} {args : Audit.AppendArgs}
    (h : Recorded entry args) : entry.subject = args.subject := by
  obtain ⟨id, now, last, rfl⟩ := h
  rfl

theorem Recorded.shardId {entry : Audit.AuditEntry} {args : Audit.AppendArgs}
    (h : Recorded entry args) : entry.shardId = args.resolvedShard := by
  obtain ⟨id, now, last, rfl⟩ := h
  rfl

def Appended (db db' : Database) (calls : List Audit.AppendArgs) : Prop :=
  ∃ entries, db'.audit.rows = db.audit.rows ++ entries ∧ List.Forall₂ Recorded entries calls

/-- The transaction of one call. A generated id that is taken is never drawn, so
that such a call is not a step. -/
def commit {α : Type} (call : Session α) (db : Database) : Option Database :=
  match Fallible.transaction call db with
  | (.raised .integrityError, _) => none
  | (_, after) => some after

section Statements

variable {db db' : Database}

theorem Database.extraction?_id {id : Text} {row : Extraction} (h : db.extraction? id = some row) :
    row.id = id := Rows.find?_key h

theorem Database.conflict?_id {id : Text} {row : Conflict} (h : db.conflict? id = some row) :
    row.id = id := Rows.find?_key h

theorem Database.reviewTask?_id {id : Text} {row : ReviewTask} (h : db.reviewTask? id = some row) :
    row.id = id := Rows.find?_key h

theorem Database.pendingCorrection?_id {id : Text} {row : PendingCorrection}
    (h : db.pendingCorrection? id = some row) : row.id = id := Rows.find?_key h

theorem addRow_returned {taken : Database → Bool} {insert : Database → Database} {u : Unit} :
    addRow taken insert db = (.returned u, db') ↔ taken db = false ∧ insert db = db' := by
  unfold addRow
  cases taken db with
  | true => simp
  | false => simp

theorem scalarOneOrNone_returned {ρ : Type} {query : Database → List ρ} {row : Option ρ} :
    scalarOneOrNone query db = (.returned row, db') ↔ query db = row.toList ∧ db = db' := by
  unfold scalarOneOrNone
  cases query db with
  | nil => cases row with
    | none => simp
    | some row => simp
  | cons first rest => cases rest with
    | nil => cases row with
      | none => simp
      | some row => simp
    | cons second rest => cases row with
      | none => simp
      | some row => simp

theorem scalarOneOrNone_of_le_one {ρ : Type} {query : Database → List ρ}
    (h : (query db).length ≤ 1) : scalarOneOrNone query db = (.returned (query db).head?, db) := by
  unfold scalarOneOrNone
  match hrows : query db with
  | [] => rfl
  | [row] => rfl
  | _ :: _ :: _ => simp [hrows] at h

theorem scalarOneOrNone_of_one_lt {ρ : Type} {query : Database → List ρ}
    (h : 1 < (query db).length) :
    scalarOneOrNone query db = (.raised .multipleResultsFound, db) := by
  unfold scalarOneOrNone
  match hrows : query db with
  | [] => simp [hrows] at h
  | [row] => simp [hrows] at h
  | _ :: _ :: _ => rfl

theorem scalarOneOrNone_readOnly {ρ : Type} (query : Database → List ρ) :
    Fallible.ReadOnly (scalarOneOrNone query) := by
  intro db
  unfold scalarOneOrNone
  split <;> rfl

theorem append_rows {table table' : Audit.AuditTable} {id : Text} {now : Instant}
    {args : Audit.AppendArgs} {entry : Audit.AuditEntry}
    (h : Audit.append table id now args = .ok (entry, table')) :
    ∃ last, table'.rows = table.rows ++ [Audit.newEntry id now args last] := by
  unfold Audit.append at h
  dsimp only at h
  split at h
  · cases h
  · cases h
    exact ⟨_, rfl⟩

theorem auditAppend_returned {entry : Stamp} {args : Audit.AppendArgs} {u : Unit}
    (h : auditAppend entry args db = (.returned u, db')) :
    db' = db.withAudit db'.audit ∧ Appended db db' [args] := by
  unfold auditAppend at h
  split at h
  · cases h
  · rename_i hok
    cases h
    obtain ⟨last, hrows⟩ := append_rows hok
    exact ⟨rfl, _, hrows, .cons ⟨_, _, last, rfl⟩ .nil⟩

theorem Appended.refl (db : Database) : Appended db db [] := ⟨[], by simp, .nil⟩

theorem Appended.trans {db'' : Database} {calls calls' : List Audit.AppendArgs}
    (h : Appended db db' calls) (h' : Appended db' db'' calls') :
    Appended db db'' (calls ++ calls') := by
  obtain ⟨entries, hrows, hentries⟩ := h
  obtain ⟨entries', hrows', hentries'⟩ := h'
  exact ⟨entries ++ entries', by rw [hrows', hrows, List.append_assoc],
    List.rel_append hentries hentries'⟩

theorem Appended.mem {calls : List Audit.AppendArgs} (h : Appended db db' calls)
    {entry : Audit.AuditEntry} (hentry : entry ∈ db'.audit.rows) :
    entry ∈ db.audit.rows ∨ ∃ args ∈ calls, Recorded entry args := by
  obtain ⟨entries, hrows, hentries⟩ := h
  rw [hrows, List.mem_append] at hentry
  apply hentry.imp_right
  clear hrows hentry
  intro hnew
  induction hentries with
  | nil => cases hnew
  | @cons first args entries calls hrecorded _ ih =>
    rcases List.mem_cons.mp hnew with rfl | hrest
    · exact ⟨args, List.mem_cons_self, hrecorded⟩
    · obtain ⟨call, hcall, hentry⟩ := ih hrest
      exact ⟨call, List.mem_cons_of_mem _ hcall, hentry⟩

theorem Appended.filter_map {β : Type} {calls : List Audit.AppendArgs} (h : Appended db db' calls)
    {p : Audit.AuditEntry → Bool} {q : Audit.AppendArgs → Bool} {f : Audit.AuditEntry → β}
    {g : Audit.AppendArgs → β} (hp : ∀ entry args, Recorded entry args → p entry = q args)
    (hf : ∀ entry args, Recorded entry args → f entry = g args) :
    (db'.audit.rows.filter p).map f = (db.audit.rows.filter p).map f ++ (calls.filter q).map g := by
  obtain ⟨entries, hrows, hentries⟩ := h
  have hnew : (entries.filter p).map f = (calls.filter q).map g := by
    clear hrows
    induction hentries with
    | nil => rfl
    | @cons entry args entries calls hrecorded _ ih =>
      simp only [List.filter_cons, hp entry args hrecorded]
      split
      · rw [List.map_cons, List.map_cons, hf entry args hrecorded, ih]
      · exact ih
  rw [hrows, List.filter_append, List.map_append, hnew]

theorem commit_eq_some {α : Type} {call : Session α} (h : commit call db = some db') :
    db' = db ∨ ∃ value, call db = (.returned value, db') := by
  unfold commit at h
  by_cases hreturned : ∃ value, (call db).1 = .returned value
  · obtain ⟨value, hvalue⟩ := hreturned
    have hcall : call db = (.returned value, (call db).2) := Prod.ext hvalue rfl
    rw [Fallible.transaction_returned.mpr hcall] at h
    exact .inr ⟨value, Option.some.inj h ▸ hcall⟩
  · have hundone := Fallible.transaction_world_of_not_returned (m := call) (w := db)
      fun value hvalue => hreturned ⟨value, hvalue⟩
    split at h
    · cases h
    · rename_i heq
      rw [heq] at hundone
      exact .inl ((Option.some.inj h).symm.trans hundone)

theorem commit_of_returned {α : Type} {call : Session α} {value : α}
    (h : call db = (.returned value, db')) : commit call db = some db' := by
  unfold commit
  rw [Fallible.transaction_returned.mpr h]

theorem commit_congr {α : Type} {call call' : Session α} (h : call db = call' db) :
    commit call db = commit call' db := by
  unfold commit Fallible.transaction
  rw [h]

theorem commit_returned {α : Type} {call : Session α} (h : commit call db = some db')
    (hraises : Fallible.RaisesOnly (· = Error.integrityError) call) :
    ∃ value, call db = (.returned value, db') := by
  have hnone : ∀ e, e = Error.integrityError → (call db).1 ≠ .raised e := by
    rintro _ rfl hraised
    have hcall : call db = (.raised .integrityError, (call db).2) := Prod.ext hraised rfl
    unfold commit Fallible.transaction at h
    rw [hcall] at h
    cases h
  obtain ⟨value, hvalue⟩ := hraises.returned hnone
  have hcall : call db = (.returned value, (call db).2) := Prod.ext hvalue rfl
  rw [commit_of_returned hcall] at h
  exact ⟨value, Option.some.inj h ▸ hcall⟩

theorem addRow_raisesOnly (taken : Database → Bool) (insert : Database → Database) :
    Fallible.RaisesOnly (· = Error.integrityError) (addRow taken insert) := by
  intro db _
  unfold addRow
  cases taken db with
  | true => exact rfl
  | false => trivial

theorem auditAppend_raisesOnly (entry : Stamp) (args : Audit.AppendArgs) :
    Fallible.RaisesOnly (· = Error.integrityError) (auditAppend entry args) := by
  intro db _
  unfold auditAppend
  cases Audit.append db.audit entry.id entry.time args with
  | error e => exact rfl
  | ok appended => trivial

end Statements

end LandRecords.Backend
