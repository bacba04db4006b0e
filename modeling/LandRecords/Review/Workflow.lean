import LandRecords.Base.OrderBy
import LandRecords.Review.Correction

/-! The review workflow: an officer claims the oldest open task, and submits a
value for it or gives it back. -/
namespace LandRecords.Review

open Backend Audit Datetime Text

def reviewSessionGap : Nat := 3600 * microsPerSecond

def openSession (db : Database) (actor : Text) : Option ReviewSession :=
  latest ReviewSession.startedAt (db.reviewSessions.filter fun row =>
    row.actor = actor ∧ row.endedAt = none)

def mapSession (sessionId : Text) (update : ReviewSession → ReviewSession)
    (rows : List ReviewSession) : List ReviewSession :=
  rows.map fun row => if row.id = sessionId then update row else row

/-- `int((now - started_at).total_seconds() // 3600)`. -/
def hoursBetween (startedAt now : Instant) : Int :=
  ((now.val : Int) - startedAt.val) / (3600 * microsPerSecond : Nat)

def withSessions (rows : List ReviewSession) (db : Database) : Database :=
  { db with reviewSessions := rows }

/-- The officer was active within the gap before `now`. -/
def isActive (now : Instant) (session : ReviewSession) : Bool :=
  now.val ≤ session.lastActivityAt.val + reviewSessionGap

/-- `touch_session`: the session of the claim and its hour. -/
def touchSession (actor sessionId : Text) (now : Instant) : Session Int := do
  let current ← Fallible.read fun db => openSession db actor
  let rows ← Fallible.read fun db => db.reviewSessions
  match current.filter (isActive now) with
  | some session =>
      let touch := fun row : ReviewSession => { row with lastActivityAt := now }
      Fallible.write (withSessions (mapSession session.id touch rows))
      return hoursBetween session.startedAt now
  | none =>
      if let some stale := current then
        let finish := fun row : ReviewSession => { row with endedAt := some stale.lastActivityAt }
        Fallible.write (withSessions (mapSession stale.id finish rows))
      addRow (fun db => sessionId ∈ db.reviewSessions.map ReviewSession.id) fun db =>
        withSessions (db.reviewSessions ++ [⟨sessionId, actor, now, now, none⟩]) db
      return hoursBetween now now

def mapTask (taskId : Text) (update : ReviewTask → ReviewTask) (db : Database) : Database :=
  { db with reviewTasks :=
      db.reviewTasks.map fun row => if row.id = taskId then update row else row }

def claimedBy (actor : Text) (hour : Int) (row : ReviewTask) : ReviewTask :=
  { row with assignee := some actor, hourIntoSession := some hour }

def released (row : ReviewTask) : ReviewTask := { row with assignee := none }

def closedOn (time : Instant) (row : ReviewTask) : ReviewTask := { row with closedAt := some time }

def oldestUnclaimed (db : Database) : Option ReviewTask :=
  (orderBy ReviewTask.openedAt (db.reviewTasks.filter fun row =>
    row.assignee = none ∧ row.closedAt = none)).head?

def claimNext (actor sessionId : Text) (now : Instant) : Session (Option Text) := do
  match ← Fallible.read oldestUnclaimed with
  | none => return none
  | some task =>
      let hour ← touchSession actor sessionId now
      Fallible.write (mapTask task.id (claimedBy actor hour))
      return some task.id

def OfficerVerdict.ofText? (verdict : Text) : Option OfficerVerdict :=
  if verdict = "agree".toList then some .agree
  else if verdict = "disagree".toList then some .disagree
  else none

def mapSample (sampleId : Text) (update : AuditSample → AuditSample) (db : Database) : Database :=
  { db with auditSamples :=
      db.auditSamples.map fun row => if row.id = sampleId then update row else row }

def recordOfficerVerdict (sample : AuditSample) (verdict actor : Text) (entry : Stamp) :
    Session Unit := do
  match OfficerVerdict.ofText? verdict with
  | none => Fallible.raise (.invalidVerdict verdict)
  | some officerVerdict =>
      Fallible.write (mapSample sample.id fun row =>
        { row with officerVerdict := officerVerdict, agreed := some (officerVerdict = .agree) })
      auditAppend entry {
        actor := actor
        action := "audit_sample.verdict_recorded".toList
        subject := some sample.extractionId
        purpose := some "audit_verdict".toList }

def claimedTask (taskId actor : Text) : Session ReviewTask := do
  match ← Fallible.read fun db => db.reviewTask? taskId with
  | none => Fallible.raise (.keyError "review_task".toList taskId)
  | some task =>
    if task.closedAt ≠ none then Fallible.raise (.reviewTaskNotClaimable taskId)
    else if task.assignee ≠ some actor then
      Fallible.raise (.notTheClaimant taskId task.assignee actor)
    else return task

structure SubmitStamps where
  row : Stamp
  correctionEntry : Stamp
  verdictEntry : Stamp
  closedAt : Instant
  entry : Stamp

structure SubmitResult where
  taskId : Text
  extractionId : Text
  correctionId : Option Text
  pendingCorrectionId : Option Text
  makerCheckerPending : Bool
deriving DecidableEq

def submitResult (task : ReviewTask) (extraction : Extraction) :
    Correction ⊕ PendingCorrection → SubmitResult
  | .inl correction => ⟨task.id, extraction.id, some correction.id, none, false⟩
  | .inr pending => ⟨task.id, extraction.id, none, some pending.id, true⟩

def recordSampleVerdict (task : ReviewTask) (verdict : Option Text) (actor : Text)
    (entry : Stamp) : Session Unit := do
  match ← scalarOneOrNone fun db =>
    db.auditSamples.filter fun row => row.reviewTaskId = some task.id, verdict with
  | some sample, some verdict => recordOfficerVerdict sample verdict actor entry
  | _, _ => return ()

def submit (taskId actor correctedValue : Text) (verdict : Option Text) (stamps : SubmitStamps) :
    Session SubmitResult := do
  let task ← claimedTask taskId actor
  match ← Fallible.read fun db => db.extraction? task.extractionId with
  | none => Fallible.raise .attributeError
  | some extraction =>
    let result ← submitCorrection extraction correctedValue actor task.sourceStream stamps.row
      stamps.correctionEntry
    recordSampleVerdict task verdict actor stamps.verdictEntry
    Fallible.write (mapTask task.id (closedOn stamps.closedAt))
    auditAppend stamps.entry {
      actor := actor
      action := "review.task.submit".toList
      subject := some task.id
      purpose := some "review_submit".toList }
    return submitResult task extraction result

def skip (taskId actor : Text) (entry : Stamp) : Session Unit := do
  let task ← claimedTask taskId actor
  Fallible.write (mapTask task.id released)
  auditAppend entry {
    actor := actor
    action := "review.task.skip".toList
    subject := some task.id }

end LandRecords.Review
