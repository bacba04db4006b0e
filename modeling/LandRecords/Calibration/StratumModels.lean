import LandRecords.Base.Rounding
import LandRecords.Calibration.Training
import Mathlib

/-! Training and serving of the strata's own models: a record is served from the labels counted
to its joined key, which are those of its stratum where the key tells the strata apart. -/
namespace LandRecords.Calibration

variable {ν : Type} [Numeric ν] {labels : List (CorrectionLabel ν)}
  {settings : TrainingSettings ν} {encoder : List Text} {minStratumSamples : ℤ} {key : Text}

/-! ## What the training leaves behind -/

def fittedModel (settings : TrainingSettings ν) (encoder : List Text)
    (labels : List (CorrectionLabel ν)) : LogisticRegressionCalibrator ν where
  learningRate := settings.learningRate
  iterations := settings.iterations
  l2Reg := settings.l2Reg
  extraCategories :=
    if encoder = [] then featureCategories (labels.map CorrectionLabel.features) else encoder
  fittedOn := labels

theorem fitLabels_eq_ok (h : labels ≠ []) :
    fitLabels settings encoder labels = .ok (fittedModel settings encoder labels) := if_neg h

def trainedCalibrators (labels : List (CorrectionLabel ν)) (minStratumSamples : ℤ)
    (settings : TrainingSettings ν) : TrainedCalibrators ν :=
  let encoder := featureCategories (labels.map CorrectionLabel.features)
  { pooledModel := fittedModel settings encoder labels
    stratumModels := ((stratumGroups labels).filter fun group =>
      minStratumSamples ≤ group.2.length).map fun group =>
        (group.1, fittedModel settings encoder group.2)
    stratumSampleCounts := (stratumGroups labels).map fun group => (group.1, (group.2.length : ℤ))
    minStratumSamples := minStratumSamples }

theorem trainPerStratumCalibrators_eq_ok (h : labels ≠ []) :
    trainPerStratumCalibrators labels minStratumSamples settings =
      .ok (trainedCalibrators labels minStratumSamples settings) := by
  have hmodels : ((stratumGroups labels).filter fun group =>
      minStratumSamples ≤ group.2.length).mapM
        (fun group => (do return (group.1, ← fitLabels settings
          (featureCategories (labels.map CorrectionLabel.features)) group.2) :
            Except Raised (Text × LogisticRegressionCalibrator ν))) =
      .ok (trainedCalibrators labels minStratumSamples settings).stratumModels := by
    rw [Raised.mapM_eq_ok]
    apply List.forall₂_map_right_iff.mpr
    apply List.forall₂_same.mpr
    intro group hgroup
    have hne := Grouping.groupsOf_ne_nil group (List.mem_filter.mp hgroup).1
    rw [fitLabels_eq_ok hne]
    rfl
  unfold trainPerStratumCalibrators
  rw [if_neg h]
  simp only [fitLabels_eq_ok h, hmodels, Raised.ok_bind]
  rfl

/-! ## The model that a record is served from -/

def countedTo (labels : List (CorrectionLabel ν)) (key : Text) : List (CorrectionLabel ν) :=
  labels.filter fun lbl => lbl.groupKey == key

theorem lookup_stratumModels :
    (trainedCalibrators labels minStratumSamples settings).stratumModels.lookup key =
      (((stratumGroups labels).lookup key).filter fun group =>
        decide (minStratumSamples ≤ group.length)).map
          (fittedModel settings (featureCategories (labels.map CorrectionLabel.features))) := by
  have hnodup : ((stratumGroups labels).map Prod.fst).Nodup := Grouping.groupsOf_keys_nodup
  simp only [trainedCalibrators]
  rw [Grouping.lookup_map, Grouping.lookup_filter hnodup]

theorem lookup_stratumSampleCounts :
    (trainedCalibrators labels minStratumSamples settings).stratumSampleCounts.lookup key =
      ((stratumGroups labels).lookup key).map fun group => (group.length : ℤ) := by
  simp only [trainedCalibrators]
  exact Grouping.lookup_map (fun group => (group.length : ℤ)) (stratumGroups labels)

theorem trainedCalibrators_modelFor (hmin : 1 ≤ minStratumSamples) :
    (trainedCalibrators labels minStratumSamples settings).modelFor key =
      if minStratumSamples ≤ (countedTo labels key).length then
        (fittedModel settings (featureCategories (labels.map CorrectionLabel.features))
          (countedTo labels key), .stratumSpecific)
      else
        ((trainedCalibrators labels minStratumSamples settings).pooledModel,
          .pooledFallback) := by
  have hcounted : ((stratumGroups labels).lookup key).getD [] = countedTo labels key :=
    Grouping.lookup_groupsOf_getD
  unfold TrainedCalibrators.modelFor
  rw [lookup_stratumModels, lookup_stratumSampleCounts]
  cases hgroup : (stratumGroups labels).lookup key with
  | none =>
    rw [hgroup, Option.getD_none] at hcounted
    have hfew : ¬ minStratumSamples ≤ (countedTo labels key).length := by
      rw [← hcounted, List.length_nil]
      omega
    rw [if_neg hfew]
    rfl
  | some group =>
    rw [hgroup, Option.getD_some] at hcounted
    rw [← hcounted]
    by_cases henough : minStratumSamples ≤ group.length
    · simp [Option.filter, henough, trainedCalibrators]
    · simp [Option.filter, henough]

theorem toCalibrator_modelFor (trained : TrainedCalibrators ν)
    (predict : LogisticRegressionCalibrator ν → CalibratorModel ν) :
    (trained.toCalibrator predict).modelFor key =
      (predict (trained.modelFor key).1, (trained.modelFor key).2) := by
  unfold TrainedCalibrators.toCalibrator PerStratumCalibrator.modelFor TrainedCalibrators.modelFor
  simp only [Grouping.lookup_map]
  cases trained.stratumModels.lookup key with
  | none => rfl
  | some model =>
    simp only [Option.map_some]
    split_ifs <;> rfl

/-! ## Strata -/

/-- The stratum of two records is the same, field by field. -/
def SameStratum (a b : CalibratorFeatures ν) : Prop :=
  a.fieldClass = b.fieldClass ∧ a.script = b.script ∧
    a.printOrHandwriting = b.printOrHandwriting ∧ a.legibilityBand = b.legibilityBand ∧
    a.writerClusterId = b.writerClusterId

instance (a b : CalibratorFeatures ν) : Decidable (SameStratum a b) :=
  inferInstanceAs (Decidable (_ ∧ _))

def ofStratum (labels : List (CorrectionLabel ν)) (features : CalibratorFeatures ν) :
    List (CorrectionLabel ν) :=
  labels.filter fun lbl => SameStratum lbl.features features

theorem SameStratum.canonicalStratum_eq {a b : CalibratorFeatures ν} (h : SameStratum a b) :
    a.canonicalStratum = b.canonicalStratum := by
  obtain ⟨hclass, hscript, hprint, hband, hwriter⟩ := h
  simp only [CalibratorFeatures.canonicalStratum, hclass, hscript, hprint, hband, hwriter]

/-- No field but the last one has the separator of the key in it. -/
structure CalibratorFeatures.Plain (features : CalibratorFeatures ν) : Prop where
  fieldClass : '|' ∉ features.fieldClass
  script : '|' ∉ features.script
  printOrHandwriting : '|' ∉ features.printOrHandwriting
  legibilityBand : '|' ∉ features.legibilityBand

/-- The key tells plain records apart. -/
theorem canonicalStratum_inj {a b : CalibratorFeatures ν} (ha : a.Plain) (hb : b.Plain)
    (h : a.canonicalStratum = b.canonicalStratum) : SameStratum a b := by
  unfold CalibratorFeatures.canonicalStratum stratumKey at h
  have ⟨hclass, h⟩ := Text.join_cons_inj ha.fieldClass hb.fieldClass (by simp) (by simp) h
  have ⟨hscript, h⟩ := Text.join_cons_inj ha.script hb.script (by simp) (by simp) h
  have ⟨hprint, h⟩ :=
    Text.join_cons_inj ha.printOrHandwriting hb.printOrHandwriting (by simp) (by simp) h
  have ⟨hband, hwriter⟩ :=
    Text.join_cons_inj ha.legibilityBand hb.legibilityBand (by simp) (by simp) h
  exact ⟨hclass, hscript, hprint, hband, hwriter⟩

/-- A label with the stratum of its features is counted to the records of this stratum. -/
theorem groupKey_eq_iff {lbl : CorrectionLabel ν} {features : CalibratorFeatures ν}
    (hstratum : lbl.stratum = [] ∨ lbl.stratum = lbl.features.canonicalStratum)
    (hlbl : lbl.features.Plain) (hfeatures : features.Plain) :
    lbl.groupKey = features.canonicalStratum ↔ SameStratum lbl.features features := by
  have hkey : lbl.groupKey = lbl.features.canonicalStratum := by
    unfold CorrectionLabel.groupKey
    split_ifs with hempty
    · rfl
    · exact hstratum.resolve_left hempty
  rw [hkey]
  exact ⟨canonicalStratum_inj hlbl hfeatures, SameStratum.canonicalStratum_eq⟩

/-! ## Agreement of training and serving -/

/-- A record is served from a model of its stratum if there are enough labels of it, and then
from one that was fitted on these. -/
def ServedFromStratum (labels : List (CorrectionLabel ν)) (minStratumSamples : ℤ)
    (features : CalibratorFeatures ν)
    (served : LogisticRegressionCalibrator ν × CalibrationRegime) : Prop :=
  (served.2 = .stratumSpecific ↔ minStratumSamples ≤ (ofStratum labels features).length) ∧
    (served.2 = .stratumSpecific → served.1.fittedOn = ofStratum labels features)

theorem countedTo_eq_ofStratum_iff {features : CalibratorFeatures ν} :
    countedTo labels features.canonicalStratum = ofStratum labels features ↔
      ∀ lbl ∈ labels,
        lbl.groupKey = features.canonicalStratum ↔ SameStratum lbl.features features := by
  constructor
  · intro heq lbl hlbl
    have hmem : lbl ∈ countedTo labels features.canonicalStratum ↔ lbl ∈ ofStratum labels features :=
      heq ▸ Iff.rfl
    simpa [countedTo, ofStratum, hlbl] using hmem
  · intro hagree
    apply List.filter_congr
    intro lbl hlbl
    rw [Bool.eq_iff_iff, beq_iff_eq, decide_eq_true_iff]
    exact hagree lbl hlbl

theorem trainedCalibrators_served_iff (hmin : 1 ≤ minStratumSamples)
    (features : CalibratorFeatures ν) :
    ServedFromStratum labels minStratumSamples features
        ((trainedCalibrators labels minStratumSamples settings).modelFor
          features.canonicalStratum) ↔
      (∀ lbl ∈ labels,
        lbl.groupKey = features.canonicalStratum ↔ SameStratum lbl.features features) ∨
      ((countedTo labels features.canonicalStratum).length < minStratumSamples ∧
        (ofStratum labels features).length < minStratumSamples) := by
  rw [trainedCalibrators_modelFor hmin, ← countedTo_eq_ofStratum_iff]
  unfold ServedFromStratum
  by_cases henough : minStratumSamples ≤ (countedTo labels features.canonicalStratum).length
  · rw [if_pos henough]
    simp only [fittedModel, true_iff, forall_const]
    constructor
    · exact fun h => .inl h.2
    · intro h
      have heq := h.resolve_right (by omega)
      exact ⟨heq ▸ henough, heq⟩
  · rw [if_neg henough]
    simp only [reduceCtorEq, false_iff, false_implies, and_true]
    constructor
    · intro hfew
      exact .inr ⟨by omega, by omega⟩
    · intro h
      cases h with
      | inl heq => exact heq ▸ henough
      | inr hfew => omega

theorem servedFromStratum_of_plain (hmin : 1 ≤ minStratumSamples)
    (hlabels : ∀ lbl ∈ labels, lbl.features.Plain ∧
      (lbl.stratum = [] ∨ lbl.stratum = lbl.features.canonicalStratum))
    {features : CalibratorFeatures ν} (hfeatures : features.Plain) :
    ServedFromStratum labels minStratumSamples features
      ((trainedCalibrators labels minStratumSamples settings).modelFor
        features.canonicalStratum) := by
  apply (trainedCalibrators_served_iff hmin features).mpr
  left
  intro lbl hlbl
  exact groupKey_eq_iff (hlabels lbl hlbl).2 (hlabels lbl hlbl).1 hfeatures

/-- A record is served from the labels of its stratum exactly if these are the labels counted to
its key, or there are too few of either. Plain labels and records always agree. -/
theorem stratumModels_agree_iff (hlabels : labels ≠ []) (hmin : 1 ≤ minStratumSamples)
    (features : CalibratorFeatures ν) :
    ∃ trained, trainPerStratumCalibrators labels minStratumSamples settings = .ok trained ∧
      (∀ predict, (trained.toCalibrator predict).modelFor features.canonicalStratum =
        (predict (trained.modelFor features.canonicalStratum).1,
          (trained.modelFor features.canonicalStratum).2)) ∧
      (ServedFromStratum labels minStratumSamples features
          (trained.modelFor features.canonicalStratum) ↔
        (∀ lbl ∈ labels,
          lbl.groupKey = features.canonicalStratum ↔ SameStratum lbl.features features) ∨
        ((countedTo labels features.canonicalStratum).length < minStratumSamples ∧
          (ofStratum labels features).length < minStratumSamples)) ∧
      ((∀ lbl ∈ labels, lbl.features.Plain ∧
          (lbl.stratum = [] ∨ lbl.stratum = lbl.features.canonicalStratum)) → features.Plain →
        ServedFromStratum labels minStratumSamples features
          (trained.modelFor features.canonicalStratum)) :=
  ⟨_, trainPerStratumCalibrators_eq_ok hlabels, fun _ => toCalibrator_modelFor _ _,
    trainedCalibrators_served_iff hmin features, fun h => servedFromStratum_of_plain hmin h⟩

def sampleFeatures (fieldClass script : String) : CalibratorFeatures ℚ where
  tokenConfidence := 1
  layoutCertainty := none
  normalizationConfidence := none
  validatorOutcomes := []
  fieldClass := fieldClass.toList
  script := script.toList
  docType := []
  printOrHandwriting := "printed".toList
  legibilityBand := "high".toList
  writerClusterId := []
  valid := rfl

def labelOf (features : CalibratorFeatures ℚ) : CorrectionLabel ℚ where
  extractionId := "e".toList
  isCorrect := true
  features := features
  stratum := features.canonicalStratum
  sourcePageDigest := "p".toList

theorem stratumModels_agree_sample :
    ∃ trained, trainPerStratumCalibrators [labelOf (sampleFeatures "khasra" "deva")] 1
        ⟨1, 150, 0⟩ = .ok trained ∧
      ServedFromStratum [labelOf (sampleFeatures "khasra" "deva")] 1
        (sampleFeatures "khasra" "deva")
        (trained.modelFor (sampleFeatures "khasra" "deva").canonicalStratum) := by
  have ⟨trained, htrained, _, hserved, _⟩ := @stratumModels_agree_iff ℚ _ _ ⟨1, 150, 0⟩ 1
    (List.cons_ne_nil (labelOf (sampleFeatures "khasra" "deva")) []) (le_refl 1)
    (sampleFeatures "khasra" "deva")
  exact ⟨trained, htrained, hserved.mpr (.inl (by decide))⟩

/-- The separator in a field class: the only label is of another stratum, and its model serves the
record all the same. -/
theorem separator_serves_other_stratum :
    ∃ trained, trainPerStratumCalibrators [labelOf (sampleFeatures "khasra|deva" "latn")] 1
        ⟨1, 150, 0⟩ = .ok trained ∧
      ¬ ServedFromStratum [labelOf (sampleFeatures "khasra|deva" "latn")] 1
        (sampleFeatures "khasra" "deva|latn")
        (trained.modelFor (sampleFeatures "khasra" "deva|latn").canonicalStratum) := by
  refine ⟨_, trainPerStratumCalibrators_eq_ok (List.cons_ne_nil _ _), ?_⟩
  rw [trainedCalibrators_served_iff (le_refl 1)]
  decide

end LandRecords.Calibration
