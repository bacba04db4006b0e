import LandRecords.Api.AccessControl
import LandRecords.Base.OrderBy
import LandRecords.Publication.Records

/-! The conflict register behind its routes: assignment, transition, and the lists that
supervisors read. -/
namespace LandRecords.Api

open Backend Audit Datetime Publication

/-- The tables of the domain functions, with the column `assignee` of `conflict` by the
row's id. -/
structure Database where
  tables : Backend.Database := {}
  assignee : Text → Option Text := fun _ => none

inductive Error
  | domain (error : Backend.Error)
  | missingPurpose
  | extractionNotFound (extractionId : Text)
deriving DecidableEq

abbrev Route := Fallible Database Error

def withTables (tables : Backend.Database) (db : Database) : Database := { db with tables := tables }

def onTables {α : Type} (m : Session α) : Route α := Fallible.within Database.tables withTables .domain m

def withAssignee (conflictId assignee : Text) (db : Database) : Database :=
  { db with assignee := Function.update db.assignee conflictId (some assignee) }

def assign (conflictId assignee actor : Text) (entry : Stamp) : Route Unit := do
  match ← Fallible.read fun db => db.tables.conflict? conflictId with
  | none => Fallible.raise (.domain (.keyError "conflict".toList conflictId))
  | some conflict =>
    Fallible.write (withAssignee conflict.id assignee)
    onTables (auditAppend entry {
      actor := actor
      action := "conflict.assigned".toList
      subject := some conflict.id
      purpose := some assignee })

def listConflicts (state : Option Text) (db : Database) : List Conflict :=
  orderBy Conflict.openedAt (db.tables.conflicts.filter fun row =>
    state.all fun wanted => decide (row.state.text = wanted))

def listAged (cutoff : Instant) (db : Database) : List Conflict :=
  orderBy Conflict.openedAt (db.tables.conflicts.filter fun row =>
    isBlocking row.state && decide (row.openedAt < cutoff))

structure ConflictPublicView where
  id : Text
  records : List Text
  rule : Text
  evidence : List (Text × Text)
  origin : Text
  state : Text
  assignee : Option Text
  openedAt : Text
deriving DecidableEq

def conflictToPublicView (zone : Zone) (db : Database) (row : Conflict) : ConflictPublicView where
  id := row.id
  records := row.records
  rule := row.rule
  evidence := row.evidence
  origin := row.origin.text
  state := row.state.text
  assignee := db.assignee row.id
  openedAt := isoformat zone row.openedAt

end LandRecords.Api
