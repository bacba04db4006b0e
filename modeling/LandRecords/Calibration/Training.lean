import LandRecords.Base.Grouping
import LandRecords.Base.OrderBy
import LandRecords.Calibration.Calibrator
import Mathlib

/-! Training of the calibrators: correction labels parted into training and evaluation by their
pages, and one model for each stratum with enough of them. -/
namespace LandRecords.Calibration

section Labels

variable (ν : Type) [Numeric ν]

structure CorrectionLabel where
  extractionId : Text
  isCorrect : Bool
  features : CalibratorFeatures ν
  stratum : Text
  sourcePageDigest : Text

end Labels

/-! ## Partition by pages -/

class SplitFraction (φ : Type) where
  /-- `0 <= fraction < 1`. -/
  Proper : φ → Prop
  scaled : ℕ → φ → ℤ
  scaled_nonneg : ∀ n f, Proper f → 0 ≤ scaled n f
  scaled_lt : ∀ n f, Proper f → 0 < n → scaled n f < n

instance : SplitFraction ℚ where
  Proper f := 0 ≤ f ∧ f < 1
  scaled n f := ⌊n * f⌋
  scaled_nonneg n f hf := Int.floor_nonneg.mpr (mul_nonneg (Nat.cast_nonneg n) hf.1)
  scaled_lt n f hf hn := by
    rw [Int.floor_lt, Int.cast_natCast]
    exact mul_lt_of_lt_one_right (Nat.cast_pos.mpr hn) hf.2

structure LeakageDetected where
  message : Text
deriving DecidableEq

def assertNoLeakage (trainingPageDigests regressionSuiteExclusionList : Finset Text) :
    Except LeakageDetected Unit :=
  let intersection := trainingPageDigests ∩ regressionSuiteExclusionList
  if intersection = ∅ then .ok ()
  else .error ⟨"training job refuses to run: ".toList ++ (toString intersection.card).toList ++
    " page(s) overlap the regression suite".toList⟩

section Partition

variable {ν : Type} [Numeric ν] {φ : Type} [SplitFraction φ]

/-- `sorted(pages.keys())`. -/
def sortedDigests (labels : List (CorrectionLabel ν)) : List Text :=
  orderBy id (labels.map CorrectionLabel.sourcePageDigest).dedup

def numEval (numPages : ℕ) (evalFraction : φ) : ℕ :=
  (max 1 (SplitFraction.scaled numPages evalFraction)).toNat

def splitDigests (digests : List Text) (evalFraction : φ) : Finset Text × Finset Text :=
  if digests.length ≤ 1 then (digests.toFinset, ∅)
  else
    let trained := digests.length - numEval digests.length evalFraction
    ((digests.take trained).toFinset, (digests.drop trained).toFinset)

def partitionTrainingAndEvaluation (labels : List (CorrectionLabel ν)) (evalFraction : φ)
    (regressionSuiteExclusion : Option (Finset Text)) :
    Except LeakageDetected (List (CorrectionLabel ν) × List (CorrectionLabel ν)) := do
  let digests := sortedDigests labels
  let exclusion := regressionSuiteExclusion.getD ∅
  if exclusion ≠ ∅ then assertNoLeakage digests.toFinset exclusion
  let (trainDigests, evalDigests) := splitDigests digests evalFraction
  assertNoLeakage trainDigests evalDigests
  return (labels.filter fun lbl => lbl.sourcePageDigest ∈ trainDigests,
    labels.filter fun lbl => lbl.sourcePageDigest ∈ evalDigests)

end Partition

/-! ## Models of the strata -/

section Models

variable {ν : Type} [Numeric ν]

def categoryOf (name : String) (value : Text) : List Text :=
  if value = [] then [] else [name.toList ++ '=' :: value]

/-- `from_features_list`: the categories of the features, sorted. -/
def featureCategories (features : List (CalibratorFeatures ν)) : List Text :=
  orderBy id (features.flatMap fun f => categoryOf "field_class" f.fieldClass ++
    categoryOf "script" f.script ++ categoryOf "doc_type" f.docType).dedup

/-- A fitted model, as what it was fitted on: the weights that gradient descent finds for it are
left open. -/
structure LogisticRegressionCalibrator (ν : Type) [Numeric ν] where
  learningRate : ν
  iterations : ℤ
  l2Reg : ν
  extraCategories : List Text
  fittedOn : List (CorrectionLabel ν)

structure TrainingSettings (ν : Type) where
  learningRate : ν
  iterations : ℤ
  l2Reg : ν

/-- `fit_labels`, with an encoder of the labels' own where the given one has no categories. -/
def fitLabels (settings : TrainingSettings ν) (encoder : List Text)
    (labels : List (CorrectionLabel ν)) : Except Raised (LogisticRegressionCalibrator ν) :=
  if labels = [] then .error (.valueError "Cannot fit calibrator on empty examples".toList)
  else
    .ok
      { learningRate := settings.learningRate
        iterations := settings.iterations
        l2Reg := settings.l2Reg
        extraCategories :=
          if encoder = [] then featureCategories (labels.map CorrectionLabel.features) else encoder
        fittedOn := labels }

def CorrectionLabel.groupKey (lbl : CorrectionLabel ν) : Text :=
  if lbl.stratum = [] then lbl.features.canonicalStratum else lbl.stratum

def stratumGroups (labels : List (CorrectionLabel ν)) : List (Text × List (CorrectionLabel ν)) :=
  Grouping.groupsOf CorrectionLabel.groupKey labels

structure TrainedCalibrators (ν : Type) [Numeric ν] where
  pooledModel : LogisticRegressionCalibrator ν
  stratumModels : List (Text × LogisticRegressionCalibrator ν)
  stratumSampleCounts : List (Text × ℤ)
  minStratumSamples : ℤ

def trainPerStratumCalibrators (trainingLabels : List (CorrectionLabel ν)) (minStratumSamples : ℤ)
    (settings : TrainingSettings ν) : Except Raised (TrainedCalibrators ν) := do
  if trainingLabels = [] then
    .error (.valueError "Cannot train calibrators with empty training labels".toList)
  else
    let encoder := featureCategories (trainingLabels.map CorrectionLabel.features)
    let pooledModel ← fitLabels settings encoder trainingLabels
    let groups := stratumGroups trainingLabels
    let stratumModels ← (groups.filter fun group => minStratumSamples ≤ group.2.length).mapM
      fun group => do return (group.1, ← fitLabels settings encoder group.2)
    return {
      pooledModel := pooledModel
      stratumModels := stratumModels
      stratumSampleCounts := groups.map fun group => (group.1, (group.2.length : ℤ))
      minStratumSamples := minStratumSamples }

/-- The model of a stratum with enough samples, the pooled one otherwise. -/
def TrainedCalibrators.modelFor (trained : TrainedCalibrators ν) (targetStratum : Text) :
    LogisticRegressionCalibrator ν × CalibrationRegime :=
  let sampleCount := (trained.stratumSampleCounts.lookup targetStratum).getD 0
  match trained.stratumModels.lookup targetStratum with
  | some model =>
      if sampleCount ≥ trained.minStratumSamples then (model, .stratumSpecific)
      else (trained.pooledModel, .pooledFallback)
  | none => (trained.pooledModel, .pooledFallback)

def TrainedCalibrators.toCalibrator (trained : TrainedCalibrators ν)
    (predict : LogisticRegressionCalibrator ν → CalibratorModel ν) : PerStratumCalibrator ν where
  pooledModel := predict trained.pooledModel
  stratumModels := trained.stratumModels.map fun entry => (entry.1, predict entry.2)
  stratumSampleCounts := trained.stratumSampleCounts
  minStratumSamples := trained.minStratumSamples

end Models

end LandRecords.Calibration
