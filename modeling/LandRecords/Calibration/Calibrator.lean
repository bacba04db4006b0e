import LandRecords.Calibration.Novelty

/-! Calibration of one field: the features a model predicts from, the choice
between a stratum's own model and the pooled one, the threshold of the target
error rate and the posture of the cold start. -/
namespace LandRecords.Calibration

open Raised (require checked)

section

variable {ν : Type} [Numeric ν]

def checkSignal (attr : Text) : Option ν → Except Raised Unit
  | none => .ok ()
  | some val => do
      require (← Numeric.isFinite val) (.valueError
        (attr ++ " must be a finite real number, got ".toList ++ Numeric.render val))

def CalibratorFeatures.postInit (tokenConfidence : ν)
    (layoutCertainty normalizationConfidence : Option ν) : Except Raised Unit := do
  checkSignal "token_confidence".toList (some tokenConfidence)
  checkSignal "layout_certainty".toList layoutCertainty
  checkSignal "normalization_confidence".toList normalizationConfidence

structure CalibratorFeatures (ν : Type) [Numeric ν] where
  tokenConfidence : ν
  layoutCertainty : Option ν
  normalizationConfidence : Option ν
  validatorOutcomes : List (Text × Text)
  fieldClass : Text
  script : Text
  docType : Text
  printOrHandwriting : Text
  legibilityBand : Text
  writerClusterId : Text
  valid : CalibratorFeatures.postInit tokenConfidence layoutCertainty normalizationConfidence =
    .ok ()

def CalibratorFeatures.canonicalStratum (features : CalibratorFeatures ν) : Text :=
  stratumKey features.fieldClass features.script features.printOrHandwriting
    features.legibilityBand features.writerClusterId

inductive CalibrationRegime
  | stratumSpecific | pooledFallback
deriving DecidableEq

structure CalibrationResult (ν : Type) where
  calibratedConfidence : ν
  rawConfidence : ν
  regime : CalibrationRegime
  stratum : Text
  featureAttributions : List (Text × ν)

/-- `predict_calibrated_confidence` of some model: any number, or an exception. -/
abbrev CalibratorModel (ν : Type) [Numeric ν] :=
  CalibratorFeatures ν → Except Raised (ν × List (Text × ν))

structure PerStratumCalibrator (ν : Type) [Numeric ν] where
  pooledModel : CalibratorModel ν
  stratumModels : List (Text × CalibratorModel ν)
  stratumSampleCounts : List (Text × Int)
  minStratumSamples : Int

/-- The model of a stratum with enough samples, the pooled one otherwise. -/
def PerStratumCalibrator.modelFor (calibrator : PerStratumCalibrator ν) (targetStratum : Text) :
    CalibratorModel ν × CalibrationRegime :=
  let sampleCount := (calibrator.stratumSampleCounts.lookup targetStratum).getD 0
  match calibrator.stratumModels.lookup targetStratum with
  | some model =>
      if sampleCount ≥ calibrator.minStratumSamples then (model, .stratumSpecific)
      else (calibrator.pooledModel, .pooledFallback)
  | none => (calibrator.pooledModel, .pooledFallback)

def PerStratumCalibrator.calibrate (calibrator : PerStratumCalibrator ν)
    (features : CalibratorFeatures ν) : Except Raised (CalibrationResult ν) := do
  let targetStratum := features.canonicalStratum
  let (model, regime) := calibrator.modelFor targetStratum
  let (calibratedConf, attributions) ← model features
  let boundedConf := Numeric.max Numeric.zero (Numeric.min Numeric.one
    (← Numeric.float calibratedConf))
  return ⟨boundedConf, features.tokenConfidence, regime, targetStratum, attributions⟩

/-! ## Threshold and posture -/

structure ThresholdPolicy (ν : Type) [Numeric ν] where
  targetErrorRate : ν
  valid : Numeric.lt Numeric.zero targetErrorRate = true ∧
    Numeric.lt targetErrorRate Numeric.one = true

namespace ThresholdPolicy

variable (policy : ThresholdPolicy ν)

def requiredConfidence : Except Raised ν := Numeric.sub Numeric.one policy.targetErrorRate

def isAutoAcceptable (calibratedConfidence : ν) : Except Raised Bool := do
  return Numeric.le (← policy.requiredConfidence) calibratedConfidence

end ThresholdPolicy

end

inductive ColdStartState
  | shadow | ramp | steady | regression
deriving DecidableEq

structure OperationalPosture where
  autoAcceptAllowed : Bool
  conservativeErrorTarget : Bool
  elevatedAuditSample : Bool
deriving DecidableEq

def getOperationalPosture : ColdStartState → OperationalPosture
  | .shadow => ⟨false, true, true⟩
  | .ramp => ⟨true, true, true⟩
  | .steady => ⟨true, false, false⟩
  | .regression => ⟨false, true, true⟩

theorem autoAcceptAllowed_iff (state : ColdStartState) :
    (getOperationalPosture state).autoAcceptAllowed = true ↔ state = .ramp ∨ state = .steady := by
  cases state <;> simp [getOperationalPosture]

end LandRecords.Calibration
