import LandRecords.Base.Payload
import LandRecords.Backend.Entities
import LandRecords.Calibration.Calibrator

/-! The step from an extraction to its routing outcome: novelty first, then
calibration, validator failures, the threshold, the posture and the audit sample.
The outcome goes into the payload that is returned and published. -/
namespace LandRecords.Calibration

open Raised (require checked)
open Backend

variable {ν : Type} [Numeric ν] (conversions : Conversions ν)

/-! ## Features -/

/-- A number or `None`, as `math.isfinite` takes them. -/
def readSignal : Value ν → Except Raised (Option ν)
  | .none => .ok none
  | .number n => .ok (some n)
  | .text _ | .list _ | .dict _ => .error .typeError

def engineKind (engine : Text) : Text :=
  let engine := engine.lower
  if engine.contains "hwr".toList then "handwritten".toList
  else if engine.contains "ocr".toList ∨ engine.contains "table".toList then "printed".toList
  else []

/-- A validation result names the extraction when its `fields` contain the id. -/
def namesExtraction (extractionId : Value ν) (vr : Dict ν) : Except Raised Bool :=
  extractionId.isIn (vr.getD "fields".toList (.list []))

def collateOutcomes (extractionId : Value ν) (outcomes : List (Text × Text)) :
    List (Dict ν) → Except Raised (List (Text × Text))
  | [] => .ok outcomes
  | vr :: rest => do
      if ← namesExtraction extractionId vr then
        let valName := (vr.getD "validator".toList (.text "unknown".toList)).str conversions
        let verdict := (vr.getD "verdict".toList (.text "pass".toList)).str conversions
        collateOutcomes extractionId (Dict.set valName verdict outcomes) rest
      else collateOutcomes extractionId outcomes rest

def readTokenConfidence : Value ν → Except Raised ν
  | .none => .error (.valueError "Extraction missing required 'token_confidence'".toList)
  | .number rawConf => do
      checkUnitInterval "token_confidence".toList " must be in [0.0, 1.0], got ".toList rawConf
      Numeric.float rawConf
  | rawConf => .error (.valueError
      ("token_confidence must be a finite real number, got ".toList ++ rawConf.str conversions))

structure DecisionCall (ν : Type) [Numeric ν] where
  extraction : Dict ν
  workEnvelope : Dict ν
  calibrator : Option (PerStratumCalibrator ν ⊕ CalibratorModel ν)
  thresholdPolicy : ThresholdPolicy ν
  traceId : Text
  coldStartState : ColdStartState := .steady
  validationResults : Option (List (Dict ν)) := none
  script : Text := []
  docType : Text := []
  legibilityBand : Text := "medium".toList
  writerClusterId : Text := []
  printOrHandwriting : Option Text := none
  layoutCertainty : Option ν := none
  normalizationConfidence : Option ν := none
  isConflict : Bool := false
  isOutsideRegime : Bool := false
  forceAuditSample : Bool := false
  auditSelector : Option (Text → Except Raised Bool) := none
  publishToQueue : Bool := true
  noveltyDetector : Option (NoveltyFeatures ν → Option (NoveltyPolicy ν) →
    Except Raised (NoveltyResult ν)) := none
  noveltyPolicy : Option (NoveltyPolicy ν) := none
  noveltyResult : Option (NoveltyResult ν) := none
  noveltyFeatures : Option (NoveltyFeatures ν) := none
  noveltyClusterId : Option Text := none

section Features

variable (call : DecisionCall ν)

def extractionToCalibratorFeatures : Except Raised (CalibratorFeatures ν) := do
  require (!call.extraction.isEmpty)
    (.valueError "Extraction must be a non-empty dictionary".toList)
  let extractionId := call.extraction.get "id".toList
  require extractionId.truthy (.valueError "Extraction missing required 'id'".toList)
  let fieldClass := Value.orElse (call.extraction.get "field_name".toList)
    (call.extraction.get "field_class".toList)
  require fieldClass.truthy (.valueError "Extraction missing required 'field_name'".toList)
  let rawConf ← readTokenConfidence conversions (call.extraction.get "token_confidence".toList)
  let printOrHandwriting := call.printOrHandwriting.getD
    (engineKind ((call.extraction.getD "engine".toList (.text [])).str conversions))
  let validatorOutcomes ←
    collateOutcomes conversions extractionId [] (call.validationResults.getD [])
  let layout ← match call.layoutCertainty with
    | some layout => .ok (some layout)
    | none => readSignal (call.extraction.get "layout_certainty".toList)
  let norm ← match call.normalizationConfidence with
    | some norm => .ok (some norm)
    | none => readSignal (call.extraction.get "normalization_confidence".toList)
  checked (CalibratorFeatures.postInit rawConf layout norm) fun valid =>
    { tokenConfidence := rawConf
      layoutCertainty := layout
      normalizationConfidence := norm
      validatorOutcomes := validatorOutcomes
      fieldClass := fieldClass.str conversions
      script := call.script
      docType := call.docType
      printOrHandwriting := printOrHandwriting
      legibilityBand := call.legibilityBand
      writerClusterId := call.writerClusterId
      valid := valid }

def readEmbeddingItems : Nat → List (Value ν) → Except Raised (List ν)
  | _, [] => .ok []
  | idx, val :: rest => do
      let error := Raised.valueError ("embedding[".toList ++ (toString idx).toList ++
        "] must be a finite real number, got ".toList ++ val.str conversions)
      match val with
      | .number n =>
          require (← Numeric.isFinite n) error
          let rest ← readEmbeddingItems (idx + 1) rest
          return n :: rest
      | _ => .error error

def readEmbedding : Value ν → Except Raised (Option (List ν))
  | .none => .ok none
  | .list items => do
      require (!items.isEmpty)
        (.valueError "embedding must be a non-empty list of finite real numbers".toList)
      let embedding ← readEmbeddingItems conversions 0 items
      return some embedding
  | .number _ | .text _ | .dict _ =>
      .error (.valueError "embedding must be a non-empty list of finite real numbers".toList)

def noveltyFeaturesFor (features : CalibratorFeatures ν) : Except Raised (NoveltyFeatures ν) :=
  match call.noveltyFeatures with
  | some noveltyFeatures => .ok noveltyFeatures
  | none => do
      let embedding ← readEmbedding conversions (call.extraction.get "embedding".toList)
      checked (NoveltyFeatures.postInit embedding features.layoutCertainty) fun valid =>
        { embedding := embedding
          stratum := features.canonicalStratum
          fieldClass := features.fieldClass
          script := features.script
          docType := features.docType
          printOrHandwriting := features.printOrHandwriting
          legibilityBand := features.legibilityBand
          writerClusterId := features.writerClusterId
          layoutCertainty := features.layoutCertainty
          valid := valid }

end Features

/-! ## The routing outcome -/

structure RoutingDecision (ν : Type) where
  outcome : RoutingOutcome
  calibratedConfidence : ν
  rawConfidence : ν
  stratum : Text
  regime : CalibrationRegime
  posture : OperationalPosture
  isConflict : Bool
  featureAttributions : List (Text × ν)

def routingOutcome (meetsThreshold : Bool) (posture : OperationalPosture)
    (isConflict isOutsideRegime isAuditSample : Bool) : RoutingOutcome :=
  if isOutsideRegime then .outsideCalibratedRegime
  else if isConflict then .conflict
  else if !meetsThreshold then .review
  else if !posture.autoAcceptAllowed then .review
  else if isAuditSample then .auditSample
  else .autoAccept

def determineRoutingOutcome (calibrationResult : CalibrationResult ν)
    (thresholdPolicy : ThresholdPolicy ν) (coldStartState : ColdStartState)
    (isConflict isOutsideRegime isAuditSample : Bool) : Except Raised (RoutingDecision ν) := do
  let posture := getOperationalPosture coldStartState
  let meetsThreshold ← (if isOutsideRegime || isConflict then .ok false
    else thresholdPolicy.isAutoAcceptable calibrationResult.calibratedConfidence)
  return {
    outcome := routingOutcome meetsThreshold posture isConflict isOutsideRegime isAuditSample
    calibratedConfidence := calibrationResult.calibratedConfidence
    rawConfidence := calibrationResult.rawConfidence
    stratum := calibrationResult.stratum
    regime := calibrationResult.regime
    posture := posture
    isConflict := isConflict && !isOutsideRegime
    featureAttributions := calibrationResult.featureAttributions }

/-! ## The pipeline -/

section Pipeline

variable (call : DecisionCall ν)

def pinnedVersions : Except Raised (Dict ν × Text) := do
  require (!call.workEnvelope.isEmpty)
    (.valueError "work_envelope must be a non-empty dictionary".toList)
  let missing := Raised.valueError
    "work_envelope missing pinned 'confidence_calibrator' model version".toList
  let pinnedModels ← match call.workEnvelope.get "model_versions".toList with
    | .dict models => .ok models
    | _ => .error missing
  require (pinnedModels.lookup "confidence_calibrator".toList).isSome missing
  let missing := Raised.valueError "work_envelope missing pinned 'config_version'".toList
  let pinnedConfig ← match call.workEnvelope.get "config_version".toList with
    | .text config => .ok config
    | _ => .error missing
  require (!pinnedConfig.isEmpty) missing
  require (!((call.noveltyDetector.isSome || call.noveltyResult.isSome) &&
      (pinnedModels.lookup "novelty_detector".toList).isNone))
    (.valueError "work_envelope missing pinned 'novelty_detector' model version".toList)
  require (!call.traceId.isEmpty) (.valueError "trace_id must be a non-empty string".toList)
  return (pinnedModels, pinnedConfig)

def availableCalibrator : Except Raised (PerStratumCalibrator ν ⊕ CalibratorModel ν) :=
  match call.calibrator with
  | some calibrator => .ok calibrator
  | none => .error (.valueError "Calibrator model is unavailable".toList)

def activeNoveltyResult (features : CalibratorFeatures ν) :
    Except Raised (Option (NoveltyResult ν)) :=
  match call.noveltyResult, call.noveltyDetector with
  | some result, _ => .ok (some result)
  | none, some detector => do
      let result ← detector (← noveltyFeaturesFor conversions call features) call.noveltyPolicy
      return some result
  | none, none => .ok none

def noveltyScoreFor : Option (NoveltyResult ν) → Except Raised (Value ν)
  | some result => .ok (.number result.noveltyScore)
  | none =>
      match call.extraction.get "novelty_score".toList with
      | .none => .ok .none
      | rawNs => do return .number (← rawNs.float conversions)

def calibrationFor (calibrator : PerStratumCalibrator ν ⊕ CalibratorModel ν)
    (features : CalibratorFeatures ν) : Except Raised (CalibrationResult ν) :=
  match calibrator with
  | .inl calibrator => calibrator.calibrate features
  | .inr model => do
      let (conf, attributions) ← model features
      return ⟨conf, features.tokenConfidence, .pooledFallback, features.canonicalStratum,
        attributions⟩

def hasValidatorFailure (extractionId : Value ν) : List (Dict ν) → Except Raised Bool
  | [] => .ok false
  | vr :: rest => do
      if ← namesExtraction extractionId vr then
        if ((vr.getD "verdict".toList (.text [])).str conversions).lower = "fail".toList then
          .ok true
        else hasValidatorFailure extractionId rest
      else hasValidatorFailure extractionId rest

def selectedForAudit : Except Raised Bool :=
  if call.forceAuditSample then .ok true
  else
    match call.auditSelector with
    | some auditSelector =>
        auditSelector ((call.extraction.getD "id".toList (.text [])).str conversions)
    | none => .ok false

def updatedExtraction (decision : RoutingDecision ν) (noveltyScore calibratorVersion : Value ν)
    (pinnedConfig : Text) : Dict ν :=
  call.extraction
    |> Dict.set "calibrated_confidence".toList (.number decision.calibratedConfidence)
    |> Dict.set "novelty_score".toList noveltyScore
    |> Dict.set "routing_outcome".toList (.text decision.outcome.text)
    |> Dict.set "model_version".toList calibratorVersion
    |> Dict.set "config_version".toList (.text pinnedConfig)

/-- `emit`, with the generated id and the clock reading of the message. -/
def emit (messageId emittedAt queue producer : Text) (payload workEnvelope : Dict ν)
    (traceId : Text) : Dict ν :=
  [("message_id".toList, .text messageId), ("trace_id".toList, .text traceId),
    ("emitted_at".toList, .text emittedAt), ("producer".toList, .text producer),
    ("work_envelope".toList, .dict workEnvelope), ("payload".toList, .dict payload),
    ("_queue".toList, .text queue)]

def publish (messageId emittedAt : Text) (extraction workEnvelope : Dict ν) (traceId : Text)
    (noveltyClusterId : Option Text) : Dict ν :=
  let envelope := emit messageId emittedAt "DECISION_QUEUE".toList "confidence-novelty".toList
    extraction workEnvelope traceId
  match noveltyClusterId with
  | some clusterId => Dict.set "novelty_cluster_id".toList (.text clusterId) envelope
  | none => envelope

def processExtractionForDecision (messageId emittedAt : Text) :
    Except Raised (Dict ν × CalibrationResult ν × Option (Dict ν)) := do
  let (pinnedModels, pinnedConfig) ← pinnedVersions call
  let calibrator ← availableCalibrator call
  let features ← extractionToCalibratorFeatures conversions call
  let noveltyResult ← activeNoveltyResult conversions call features
  let isOutsideRegime :=
    call.isOutsideRegime || noveltyResult.any NoveltyResult.isOutsideRegime
  let noveltyClusterId := call.noveltyClusterId.or (noveltyResult.bind NoveltyResult.clusterId)
  let noveltyScore ← noveltyScoreFor conversions call noveltyResult
  let calibResult ← calibrationFor calibrator features
  let validatorFailure ← hasValidatorFailure conversions (call.extraction.get "id".toList)
    (call.validationResults.getD [])
  let audited ← selectedForAudit conversions call
  let decision ← determineRoutingOutcome calibResult call.thresholdPolicy call.coldStartState
    (call.isConflict || validatorFailure) isOutsideRegime audited
  let calibratorVersion ← Dict.item pinnedModels "confidence_calibrator".toList
  let updated := updatedExtraction call decision noveltyScore calibratorVersion pinnedConfig
  return (updated, calibResult,
    if call.publishToQueue then
      some (publish messageId emittedAt updated call.workEnvelope call.traceId noveltyClusterId)
    else none)

end Pipeline

end LandRecords.Calibration
