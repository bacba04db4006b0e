import LandRecords.Decision.PageLifecycle
import LandRecords.Base.OrderBy

/-! The decision engine: one extraction is routed to one of five outcomes, and a
replay finds what the first decision created. -/
namespace LandRecords.Decision

open Backend Audit Datetime Text

def noveltyClusterAlertDedupWindow : Nat := 6 * 3600 * microsPerSecond

structure RouteStamps where
  /-- The reading that the alert window ends at. -/
  cutoffFrom : Instant
  /-- The new review task, conflict or alert. -/
  effect : Stamp
  auditSampleId : Text
  decision : Stamp
  routedEntry : Stamp
  processedEntry : Stamp

inductive RouteResult
  | autoAccept (extractionId : Text)
  | review (reviewTaskId : Option Text)
  | auditSample (reviewTaskId auditSampleId : Option Text)
  | conflict (conflictId : Option Text)
  | outsideCalibratedRegime (extractionId : Text) (alertId : Option Text) (deduplicated : Bool)
  | replayed (stored : RouteResult)
deriving DecidableEq

section Queries

variable (db : Database) (extractionId : Text)

def decisionsFor : List DecisionRecord :=
  db.decisions.filter fun row => row.extractionId = extractionId

def reviewTasksFor : List ReviewTask :=
  db.reviewTasks.filter fun row => row.extractionId = extractionId

def auditSamplesFor : List AuditSample :=
  db.auditSamples.filter fun row => row.extractionId = extractionId

def conflictsNaming : List Conflict :=
  db.conflicts.filter fun row => extractionId ∈ row.records

def alertsListing : List OperationalAlert :=
  db.operationalAlerts.filter fun row => extractionId ∈ row.extractionIds

end Queries

def addReviewTask (task : ReviewTask) : Session Unit :=
  addRow (fun db => task.id ∈ db.reviewTasks.map ReviewTask.id) fun db =>
    { db with reviewTasks := db.reviewTasks ++ [task] }

def addAuditSample (sample : AuditSample) : Session Unit :=
  addRow (fun db => sample.id ∈ db.auditSamples.map AuditSample.id) fun db =>
    { db with auditSamples := db.auditSamples ++ [sample] }

def addOperationalAlert (alert : OperationalAlert) : Session Unit :=
  addRow (fun db => alert.id ∈ db.operationalAlerts.map OperationalAlert.id) fun db =>
    { db with operationalAlerts := db.operationalAlerts ++ [alert] }

def withDecision (decision : DecisionRecord) (db : Database) : Database :=
  { db with decisions := db.decisions ++ [decision] }

/-- The unique key is `extraction_id`. -/
def addDecisionRecord (decision : DecisionRecord) : Session Unit :=
  addRow (fun db => decision.id ∈ db.decisions.map DecisionRecord.id ∨
      decision.extractionId ∈ db.decisions.map DecisionRecord.extractionId) (withDecision decision)

def setExtractionIds (alertId : Text) (extractionIds : List Text)
    (alerts : List OperationalAlert) : List OperationalAlert :=
  alerts.map fun alert =>
    if alert.id = alertId then { alert with extractionIds := extractionIds } else alert

def writeBack (alertId : Text) (extractionIds : List Text) (db : Database) : Database :=
  { db with operationalAlerts := setExtractionIds alertId extractionIds db.operationalAlerts }

def autoAccept (extraction : Extraction) : Session RouteResult :=
  return .autoAccept extraction.id

def openReviewTask (stamp : Stamp) (extraction : Extraction) (stream : SourceStream) : ReviewTask where
  id := stamp.id
  extractionId := extraction.id
  sourceStream := stream
  openedAt := stamp.time

def auditSample (extraction : Extraction) (stamp : Stamp) (sampleId : Text) :
    Session RouteResult := do
  addReviewTask (openReviewTask stamp extraction .audit)
  addAuditSample {
    id := sampleId
    extractionId := extraction.id
    reviewTaskId := some stamp.id
    modelConfidence := extraction.calibratedConfidence }
  return .auditSample (some stamp.id) (some sampleId)

def targetedReview (extraction : Extraction) (stamp : Stamp) : Session RouteResult := do
  addReviewTask (openReviewTask stamp extraction .routed)
  return .review (some stamp.id)

def conflictPlaceholder (extraction : Extraction) (stamp : Stamp) : Conflict where
  id := stamp.id
  records := [extraction.id]
  rule := "pending-validator-evidence-wiring".toList
  evidence := [("extraction_id".toList, extraction.id)]
  origin := .validator
  openedAt := stamp.time

def openConflictPlaceholder (extraction : Extraction) (stamp : Stamp) : Session RouteResult := do
  addConflict (conflictPlaceholder extraction stamp)
  return .conflict (some stamp.id)

def outsideKind : Text := RoutingOutcome.outsideCalibratedRegime.text

/-- The latest alert of the cluster that was opened within the window before `now`. -/
def findAlert (alerts : List OperationalAlert) (clusterKey : Text) (now : Instant) :
    Option OperationalAlert :=
  latest OperationalAlert.openedAt (alerts.filter fun alert =>
    alert.kind = outsideKind ∧ alert.clusterKey = clusterKey ∧
      now.val ≤ alert.openedAt.val + noveltyClusterAlertDedupWindow)

def newAlert (stamp : Stamp) (clusterKey extractionId : Text) : OperationalAlert where
  id := stamp.id
  kind := outsideKind
  clusterKey := clusterKey
  extractionIds := [extractionId]
  openedAt := stamp.time

def outsideCalibratedRegime (extraction : Extraction) (clusterKey : Text) (cutoffFrom : Instant)
    (stamp : Stamp) : Session RouteResult := do
  let existing ← Fallible.read fun db => findAlert db.operationalAlerts clusterKey cutoffFrom
  match existing with
  | some alert =>
      if extraction.id ∉ alert.extractionIds then
        Fallible.write (writeBack alert.id (alert.extractionIds ++ [extraction.id]))
      return .outsideCalibratedRegime extraction.id (some alert.id) true
  | none =>
      addOperationalAlert (newAlert stamp clusterKey extraction.id)
      return .outsideCalibratedRegime extraction.id (some stamp.id) false

/-- The replay branch of `route`. -/
def replay (extraction : Extraction) : RoutingOutcome → Session RouteResult
  | .autoAccept => return .autoAccept extraction.id
  | .review => do
      let task ← scalarOneOrNone fun db => reviewTasksFor db extraction.id
      return .review (task.map ReviewTask.id)
  | .auditSample => do
      let task ← scalarOneOrNone fun db => reviewTasksFor db extraction.id
      let sample ← scalarOneOrNone fun db => auditSamplesFor db extraction.id
      return .auditSample (task.map ReviewTask.id) (sample.map AuditSample.id)
  | .conflict => do
      let conflict ← scalarOneOrNone fun db => conflictsNaming db extraction.id
      return .conflict (conflict.map Conflict.id)
  | .outsideCalibratedRegime => do
      let alert ← scalarOneOrNone fun db => alertsListing db extraction.id
      return .outsideCalibratedRegime extraction.id (alert.map OperationalAlert.id) true

def dispatch (extraction : Extraction) (clusterKey : Text) (stamps : RouteStamps) :
    RoutingOutcome → Session RouteResult
  | .autoAccept => autoAccept extraction
  | .auditSample => auditSample extraction stamps.effect stamps.auditSampleId
  | .review => targetedReview extraction stamps.effect
  | .conflict => openConflictPlaceholder extraction stamps.effect
  | .outsideCalibratedRegime =>
      outsideCalibratedRegime extraction clusterKey stamps.cutoffFrom stamps.effect

def routedAction (outcome : RoutingOutcome) : Text := "decision.route.".toList ++ outcome.text

def routedArgs (extraction : Extraction) (outcome : RoutingOutcome) : AppendArgs where
  actor := "system:decision-engine".toList
  action := routedAction outcome
  subject := some extraction.id

@[simp] theorem routedArgs_action (extraction : Extraction) (outcome : RoutingOutcome) :
    (routedArgs extraction outcome).action = routedAction outcome := rfl

@[simp] theorem routedArgs_subject (extraction : Extraction) (outcome : RoutingOutcome) :
    (routedArgs extraction outcome).subject = some extraction.id := rfl

/-- `novelty_cluster_id or extraction.id`. -/
def clusterKeyOr (noveltyClusterId : Option Text) (extraction : Extraction) : Text :=
  if isTruthy noveltyClusterId then orEmpty noveltyClusterId else extraction.id

def decideExtraction (extraction : Extraction) (outcome : RoutingOutcome)
    (noveltyClusterId envelopeId : Option Text) (stamps : RouteStamps) : Session RouteResult := do
  let result ← dispatch extraction (clusterKeyOr noveltyClusterId extraction) stamps outcome
  addDecisionRecord {
    id := stamps.decision.id
    extractionId := extraction.id
    outcome := outcome
    envelopeId := envelopeId
    decidedAt := stamps.decision.time }
  auditAppend stamps.routedEntry (routedArgs extraction outcome)
  let _ ← markProcessedIfTerminal extraction.pageId stamps.processedEntry
  return result

def route (extractionId : Text) (noveltyClusterId envelopeId : Option Text)
    (stamps : RouteStamps) : Session RouteResult := do
  match ← Fallible.read fun db => db.extraction? extractionId with
  | none => Fallible.raise (.extractionNotFoundError extractionId)
  | some extraction =>
    match extraction.routingOutcome with
    | none => Fallible.raise (.unroutableExtraction extractionId none)
    | some outcome =>
      match ← scalarOneOrNone fun db => decisionsFor db extractionId with
      | some existing =>
          if existing.outcome ≠ outcome then
            Fallible.raise (.alreadyDecidedWithDifferentOutcome extractionId existing.outcome outcome)
          else return .replayed (← replay extraction outcome)
      | none => decideExtraction extraction outcome noveltyClusterId envelopeId stamps

end LandRecords.Decision
