import LandRecords.Base.Datetime
import Mathlib

/-! The rows of the backend's tables. A column that an enumeration constraint
guards is an enumeration, and a stored float is the number it stands for. -/
namespace LandRecords.Backend

open Datetime Text

/-- A generated row id together with the clock reading of the row's default. -/
structure Stamp where
  id : Text
  time : Instant

inductive RoutingOutcome
  | autoAccept | auditSample | review | conflict | outsideCalibratedRegime
deriving DecidableEq

def RoutingOutcome.text : RoutingOutcome → Text
  | .autoAccept => "auto_accept".toList
  | .auditSample => "audit_sample".toList
  | .review => "review".toList
  | .conflict => "conflict".toList
  | .outsideCalibratedRegime => "outside_calibrated_regime".toList

structure Batch where
  id : Text
  district : Text

structure SourceDocument where
  id : Text
  batchId : Text

structure Page where
  id : Text
  documentId : Text
  storageUri : Option Text := none
  indexPosition : Option Int := none

structure Extraction where
  id : Text
  pageId : Text
  fieldName : Text
  rawValue : Text
  canonicalValue : Option Text := none
  /-- The column `bbox` as Python prints it. -/
  bbox : Text := "None".toList
  modelVersion : Option Text := none
  configVersion : Option Text := none
  calibratedConfidence : Option Rat := none
  routingOutcome : Option RoutingOutcome := none
deriving DecidableEq

structure DecisionRecord where
  id : Text
  extractionId : Text
  outcome : RoutingOutcome
  envelopeId : Option Text
  decidedAt : Instant
deriving DecidableEq

inductive SourceStream
  | routed | audit
deriving DecidableEq

structure ReviewTask where
  id : Text
  extractionId : Text
  reason : Option Text := none
  sourceStream : SourceStream
  assignee : Option Text := none
  openedAt : Instant
  closedAt : Option Instant := none
  clusterId : Option Text := none
  clusterSize : Option Int := none
  hourIntoSession : Option Int := none
deriving DecidableEq

inductive OfficerVerdict
  | pending | agree | disagree
deriving DecidableEq

structure AuditSample where
  id : Text
  extractionId : Text
  reviewTaskId : Option Text
  modelConfidence : Option Rat
  officerVerdict : OfficerVerdict := .pending
  agreed : Option Bool := none
deriving DecidableEq

inductive ConflictOrigin
  | validator | downstream
deriving DecidableEq

def ConflictOrigin.text : ConflictOrigin → Text
  | .validator => "validator".toList
  | .downstream => "downstream".toList

inductive ConflictState
  | «open» | underEnquiry | resolved | referred
deriving DecidableEq

def ConflictState.text : ConflictState → Text
  | .open => "open".toList
  | .underEnquiry => "under_enquiry".toList
  | .resolved => "resolved".toList
  | .referred => "referred".toList

structure Conflict where
  id : Text
  records : List Text
  rule : Text
  /-- The entries of the JSON object. -/
  evidence : List (Text × Text)
  origin : ConflictOrigin
  state : ConflictState := .open
  openedAt : Instant
deriving DecidableEq

structure OperationalAlert where
  id : Text
  kind : Text
  clusterKey : Text
  extractionIds : List Text
  openedAt : Instant
deriving DecidableEq

structure Correction where
  id : Text
  extractionId : Text
  cropUri : Text
  predicted : Option Text
  corrected : Text
  editDistance : Nat
  actor : Text
  modelVersion : Option Text
  configVersion : Option Text
  stream : SourceStream
  sourcePageDigest : Text
  createdAt : Instant
deriving DecidableEq

inductive PendingState
  | pending | confirmed
deriving DecidableEq

structure PendingCorrection where
  id : Text
  extractionId : Text
  cropUri : Text
  predicted : Option Text
  corrected : Text
  editDistance : Nat
  fieldClass : Text
  firstActor : Text
  modelVersion : Option Text
  configVersion : Option Text
  stream : SourceStream
  sourcePageDigest : Text
  openedAt : Instant
  state : PendingState := .pending
  confirmedBy : Option Text := none
  confirmedAt : Option Instant := none
  resultingCorrectionId : Option Text := none
deriving DecidableEq

structure ReviewSession where
  id : Text
  actor : Text
  startedAt : Instant
  lastActivityAt : Instant
  endedAt : Option Instant := none
deriving DecidableEq

structure Record where
  id : Text
  recordGroupId : Text
  version : Nat
  parcelRef : Option Text
  ulpin : Option Text
  /-- The entries of the JSON object. -/
  lgdCodes : Option (List (Text × Text))
  publishedAt : Instant
deriving DecidableEq

inductive VolumeState
  | pending | complete | gapDetected | acknowledged
deriving DecidableEq

structure VolumeIndex where
  id : Text
  batchId : Text
  expectedSequence : List Int := []
  observedSequence : List Int := []
  gaps : List Int := []
  state : VolumeState := .pending
deriving DecidableEq

structure ConfigVersion where
  id : Text
  scope : Text
  key : Text
  /-- The entries of the JSON object. -/
  value : List (Text × Text)
  effectiveFrom : Instant
  author : Text
  approver : Text
  supersededBy : Option Text := none
deriving DecidableEq

structure OutboxMessage where
  id : Text
  queue : Text
  /-- The entries of the JSON object. -/
  envelope : List (Text × Text)
  createdAt : Instant
deriving DecidableEq

end LandRecords.Backend
