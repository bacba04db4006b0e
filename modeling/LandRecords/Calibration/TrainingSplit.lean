import LandRecords.Base.Rounding
import LandRecords.Calibration.Training
import Mathlib

/-! Leakage-free partition: the pages of the labels are divided, and each label goes with its
page. -/
namespace LandRecords.Calibration

section Split

variable {ν : Type} [Numeric ν] {φ : Type} [SplitFraction φ]
  {labels other : List (CorrectionLabel ν)} {digests : List Text}

theorem mem_sortedDigests {digest : Text} :
    digest ∈ sortedDigests labels ↔ ∃ lbl ∈ labels, lbl.sourcePageDigest = digest := by
  simp [sortedDigests]

theorem sortedDigests_nodup (labels : List (CorrectionLabel ν)) : (sortedDigests labels).Nodup :=
  (orderBy_perm id _).nodup_iff.mpr (List.nodup_dedup _)

theorem sortedDigests_perm (h : labels.Perm other) : sortedDigests labels = sortedDigests other := by
  have hperm : (orderBy id (labels.map CorrectionLabel.sourcePageDigest).dedup).Perm
      (other.map CorrectionLabel.sourcePageDigest).dedup :=
    (orderBy_perm id _).trans (h.map CorrectionLabel.sourcePageDigest).dedup
  apply eq_orderBy _ hperm (orderBy_sorted id _)
  rw [List.map_id]
  exact List.nodup_dedup _

theorem numEval_pos (numPages : ℕ) (evalFraction : φ) : 0 < numEval numPages evalFraction := by
  unfold numEval
  omega

theorem numEval_lt {numPages : ℕ} {evalFraction : φ} (hpages : 1 < numPages)
    (hproper : SplitFraction.Proper evalFraction) : numEval numPages evalFraction < numPages := by
  have hlt := SplitFraction.scaled_lt numPages evalFraction hproper (by omega)
  unfold numEval
  omega

theorem mem_splitDigests (evalFraction : φ) {digest : Text} :
    digest ∈ digests ↔ digest ∈ (splitDigests digests evalFraction).1 ∨
      digest ∈ (splitDigests digests evalFraction).2 := by
  unfold splitDigests
  split_ifs with hone
  · simp
  · simp only [List.mem_toFinset]
    rw [← List.mem_append, List.take_append_drop]

theorem splitDigests_disjoint (evalFraction : φ) (hnodup : digests.Nodup) :
    Disjoint (splitDigests digests evalFraction).1 (splitDigests digests evalFraction).2 := by
  unfold splitDigests
  split_ifs with hone
  · exact Finset.disjoint_empty_right _
  · rw [List.disjoint_toFinset_iff_disjoint]
    exact List.disjoint_take_drop hnodup le_rfl

theorem splitDigests_nonempty {evalFraction : φ} (hpages : 1 < digests.length)
    (hproper : SplitFraction.Proper evalFraction) :
    (splitDigests digests evalFraction).1.Nonempty ∧
      (splitDigests digests evalFraction).2.Nonempty := by
  have hpos := numEval_pos digests.length evalFraction
  have hlt := numEval_lt hpages hproper
  rw [splitDigests, if_neg (by omega)]
  simp only [List.toFinset_nonempty_iff]
  constructor
  · apply List.ne_nil_of_length_pos
    rw [List.length_take]
    omega
  · apply List.ne_nil_of_length_pos
    rw [List.length_drop]
    omega

end Split

section Guard

variable {training exclusion : Finset Text}

theorem assertNoLeakage_eq_ok :
    assertNoLeakage training exclusion = .ok () ↔ Disjoint training exclusion := by
  unfold assertNoLeakage
  simp only [Finset.disjoint_iff_inter_eq_empty]
  split_ifs with h <;> simp [h]

theorem assertNoLeakage_raises (h : ¬ Disjoint training exclusion) :
    ∃ leakage, assertNoLeakage training exclusion = .error leakage := by
  rw [Finset.disjoint_iff_inter_eq_empty] at h
  exact ⟨_, if_neg h⟩

end Guard

section Partition

variable {ν : Type} [Numeric ν] {φ : Type} [SplitFraction φ]
  {labels : List (CorrectionLabel ν)} {evalFraction : φ} {exclusion : Option (Finset Text)}

def splitLabels (labels : List (CorrectionLabel ν)) (evalFraction : φ) :
    List (CorrectionLabel ν) × List (CorrectionLabel ν) :=
  let digests := splitDigests (sortedDigests labels) evalFraction
  (labels.filter fun lbl => lbl.sourcePageDigest ∈ digests.1,
    labels.filter fun lbl => lbl.sourcePageDigest ∈ digests.2)

def Excluded (labels : List (CorrectionLabel ν)) (exclusion : Option (Finset Text)) : Prop :=
  ∃ lbl ∈ labels, lbl.sourcePageDigest ∈ exclusion.getD ∅

theorem excluded_iff :
    Excluded labels exclusion ↔
      ¬ Disjoint (sortedDigests labels).toFinset (exclusion.getD ∅) := by
  simp only [Excluded, Finset.not_disjoint_iff, List.mem_toFinset, mem_sortedDigests]
  constructor
  · intro ⟨lbl, hlbl, hexcluded⟩
    exact ⟨lbl.sourcePageDigest, ⟨lbl, hlbl, rfl⟩, hexcluded⟩
  · intro ⟨digest, ⟨lbl, hlbl, hdigest⟩, hexcluded⟩
    exact ⟨lbl, hlbl, hdigest ▸ hexcluded⟩

theorem partition_raises (evalFraction : φ) (h : Excluded labels exclusion) :
    ∃ leakage, partitionTrainingAndEvaluation labels evalFraction exclusion = .error leakage := by
  have hne : exclusion.getD ∅ ≠ ∅ := by
    have ⟨lbl, _, hexcluded⟩ := h
    exact Finset.ne_empty_of_mem hexcluded
  have ⟨leakage, hraise⟩ := assertNoLeakage_raises (excluded_iff.mp h)
  refine ⟨leakage, ?_⟩
  simp only [partitionTrainingAndEvaluation, if_pos hne, hraise]
  rfl

theorem partition_returns (evalFraction : φ) (h : ¬ Excluded labels exclusion) :
    partitionTrainingAndEvaluation labels evalFraction exclusion =
      .ok (splitLabels labels evalFraction) := by
  have hguard := assertNoLeakage_eq_ok.mpr (not_not.mp (excluded_iff.not.mp h))
  have hsplit := assertNoLeakage_eq_ok.mpr
    (splitDigests_disjoint evalFraction (sortedDigests_nodup labels))
  simp only [partitionTrainingAndEvaluation, hguard, hsplit]
  split_ifs <;> rfl

theorem partition_eq_ok {split : List (CorrectionLabel ν) × List (CorrectionLabel ν)} :
    partitionTrainingAndEvaluation labels evalFraction exclusion = .ok split ↔
      ¬ Excluded labels exclusion ∧ splitLabels labels evalFraction = split := by
  by_cases h : Excluded labels exclusion
  · have ⟨leakage, hraise⟩ := partition_raises evalFraction h
    simp [hraise, h]
  · simp [partition_returns evalFraction h, h]

theorem splitLabels_perm (labels : List (CorrectionLabel ν)) (evalFraction : φ) :
    ((splitLabels labels evalFraction).1 ++ (splitLabels labels evalFraction).2).Perm labels := by
  have hdisjoint := splitDigests_disjoint evalFraction (sortedDigests_nodup labels)
  have hrest : (splitLabels labels evalFraction).2 = labels.filter fun lbl =>
      !decide (lbl.sourcePageDigest ∈
        (splitDigests (sortedDigests labels) evalFraction).1) := by
    apply List.filter_congr
    intro lbl hlbl
    have hmem := (mem_splitDigests evalFraction).mp
      (mem_sortedDigests.mpr ⟨lbl, hlbl, rfl⟩)
    have hnot := Finset.disjoint_left.mp hdisjoint
    by_cases htrain : lbl.sourcePageDigest ∈ (splitDigests (sortedDigests labels) evalFraction).1
    · simp [htrain, hnot htrain]
    · simp [htrain, hmem.resolve_left htrain]
  rw [hrest]
  exact List.filter_append_perm _ labels

theorem splitLabels_disjoint (labels : List (CorrectionLabel ν)) (evalFraction : φ) :
    ∀ trained ∈ (splitLabels labels evalFraction).1,
      ∀ evaluated ∈ (splitLabels labels evalFraction).2,
        trained.sourcePageDigest ≠ evaluated.sourcePageDigest := by
  intro trained htrained evaluated hevaluated heq
  have hdisjoint := splitDigests_disjoint evalFraction (sortedDigests_nodup labels)
  have htrain := of_decide_eq_true (List.mem_filter.mp htrained).2
  have heval := of_decide_eq_true (List.mem_filter.mp hevaluated).2
  rw [heq] at htrain
  exact Finset.disjoint_left.mp hdisjoint htrain heval

theorem exists_label_of_mem {digest : Text} (h : digest ∈ sortedDigests labels)
    {side : Finset Text} (hside : digest ∈ side) :
    (labels.filter fun lbl => lbl.sourcePageDigest ∈ side) ≠ [] := by
  have ⟨lbl, hlbl, hdigest⟩ := mem_sortedDigests.mp h
  apply List.ne_nil_of_mem (a := lbl)
  simp [hlbl, hdigest, hside]

theorem splitLabels_nonempty (hproper : SplitFraction.Proper evalFraction)
    {first second : CorrectionLabel ν} (hfirst : first ∈ labels) (hsecond : second ∈ labels)
    (hne : first.sourcePageDigest ≠ second.sourcePageDigest) :
    (splitLabels labels evalFraction).1 ≠ [] ∧ (splitLabels labels evalFraction).2 ≠ [] := by
  have hpages : 1 < (sortedDigests labels).length := by
    rw [← List.toFinset_card_of_nodup (sortedDigests_nodup labels), Finset.one_lt_card]
    refine ⟨first.sourcePageDigest, ?_, second.sourcePageDigest, ?_, hne⟩
    · exact List.mem_toFinset.mpr (mem_sortedDigests.mpr ⟨first, hfirst, rfl⟩)
    · exact List.mem_toFinset.mpr (mem_sortedDigests.mpr ⟨second, hsecond, rfl⟩)
  have ⟨⟨trained, htrained⟩, ⟨evaluated, hevaluated⟩⟩ := splitDigests_nonempty hpages hproper
  constructor
  · exact exists_label_of_mem ((mem_splitDigests evalFraction).mpr (.inl htrained)) htrained
  · exact exists_label_of_mem ((mem_splitDigests evalFraction).mpr (.inr hevaluated)) hevaluated

def pageDigests (labels : List (CorrectionLabel ν)) : Finset Text :=
  (labels.map CorrectionLabel.sourcePageDigest).toFinset

theorem splitLabels_pages {other : List (CorrectionLabel ν)} (h : other.Perm labels) :
    pageDigests (splitLabels other evalFraction).2 =
      pageDigests (splitLabels labels evalFraction).2 := by
  ext digest
  simp [pageDigests, splitLabels, sortedDigests_perm h, h.mem_iff]

/-- A returned partition is free of leakage. -/
structure LeakageFree (labels train evaluation : List (CorrectionLabel ν)) : Prop where
  trainSublist : train.Sublist labels
  evaluationSublist : evaluation.Sublist labels
  eachOnce : (train ++ evaluation).Perm labels
  noSharedPage : ∀ trained ∈ train, ∀ evaluated ∈ evaluation,
    trained.sourcePageDigest ≠ evaluated.sourcePageDigest
  bothNonempty : (∃ first ∈ labels, ∃ second ∈ labels,
    first.sourcePageDigest ≠ second.sourcePageDigest) → train ≠ [] ∧ evaluation ≠ []

theorem excluded_perm {other : List (CorrectionLabel ν)} (h : other.Perm labels) :
    Excluded other exclusion ↔ Excluded labels exclusion := by
  simp [Excluded, h.mem_iff]

theorem partition_leakageFree (hproper : SplitFraction.Proper evalFraction) :
    ((∃ leakage, partitionTrainingAndEvaluation labels evalFraction exclusion = .error leakage) ↔
      ∃ lbl ∈ labels, lbl.sourcePageDigest ∈ exclusion.getD ∅) ∧
    ∀ train evaluation,
      partitionTrainingAndEvaluation labels evalFraction exclusion = .ok (train, evaluation) →
      LeakageFree labels train evaluation ∧
      ∀ other, other.Perm labels → ∃ train' evaluation',
        partitionTrainingAndEvaluation other evalFraction exclusion = .ok (train', evaluation') ∧
        pageDigests evaluation' = pageDigests evaluation := by
  constructor
  · constructor
    · intro ⟨leakage, hraise⟩
      by_contra hfree
      rw [partition_returns evalFraction (show ¬ Excluded labels exclusion from hfree)] at hraise
      cases hraise
    · exact partition_raises evalFraction
  · intro train evaluation hsplit
    have ⟨hfree, hlabels⟩ := partition_eq_ok.mp hsplit
    obtain ⟨rfl, rfl⟩ := Prod.mk.inj hlabels
    refine ⟨⟨List.filter_sublist, List.filter_sublist, splitLabels_perm labels evalFraction,
      splitLabels_disjoint labels evalFraction, ?_⟩, ?_⟩
    · intro ⟨first, hfirst, second, hsecond, hne⟩
      exact splitLabels_nonempty hproper hfirst hsecond hne
    · intro other hperm
      have hother := partition_returns evalFraction ((excluded_perm hperm).not.mpr hfree)
      exact ⟨_, _, hother, splitLabels_pages hperm⟩

private theorem tokenOnly_valid : CalibratorFeatures.postInit (1 : ℚ) none none = .ok () := rfl

def sampleLabel (page : String) : CorrectionLabel ℚ where
  extractionId := page.toList
  isCorrect := true
  features :=
    { tokenConfidence := 1
      layoutCertainty := none
      normalizationConfidence := none
      validatorOutcomes := []
      fieldClass := []
      script := []
      docType := []
      printOrHandwriting := []
      legibilityBand := []
      writerClusterId := []
      valid := tokenOnly_valid }
  stratum := []
  sourcePageDigest := page.toList

theorem partition_leakageFree_sample :
    ∃ train evaluation,
      partitionTrainingAndEvaluation [sampleLabel "b", sampleLabel "a", sampleLabel "b"]
        (1 / 5 : ℚ) none = .ok (train, evaluation) ∧ train ≠ [] ∧ evaluation ≠ [] := by
  have hproper : SplitFraction.Proper (1 / 5 : ℚ) := by constructor <;> norm_num
  have hfree : ¬ Excluded [sampleLabel "b", sampleLabel "a", sampleLabel "b"] none := by
    simp [Excluded]
  have hreturn := partition_returns (1 / 5 : ℚ) hfree
  refine ⟨_, _, hreturn, ((partition_leakageFree hproper).2 _ _ hreturn).1.bothNonempty ?_⟩
  exact ⟨sampleLabel "b", by simp, sampleLabel "a", by simp, by decide⟩

end Partition

end LandRecords.Calibration
