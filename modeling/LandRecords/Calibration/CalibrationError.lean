import LandRecords.Base.GroupedSums
import LandRecords.Calibration.Calibrator
import Mathlib

/-! The expected calibration error in exact arithmetic: predictions and labels are counted into
bins, and the gaps of the bins are weighed by their counts. -/
namespace LandRecords.Calibration

open Finset GroupedSums

/-- `max(0.0, min(1.0, float(pred)))`. -/
def clampUnit (pred : ℚ) : ℚ := max 0 (min 1 pred)

def binIndex (numBins : ℕ) (p : ℚ) : ℕ :=
  let binIdx := ⌊p * numBins⌋₊
  if numBins ≤ binIdx then numBins - 1 else binIdx

structure Bins where
  counts : List ℕ
  correct : List ℚ
  confSum : List ℚ

namespace Bins

def empty (numBins : ℕ) : Bins where
  counts := List.replicate numBins 0
  correct := List.replicate numBins 0
  confSum := List.replicate numBins 0

def add (numBins : ℕ) (bins : Bins) (sample : ℚ × Bool) : Bins :=
  let p := clampUnit sample.1
  let binIdx := binIndex numBins p
  { counts := bins.counts.modify binIdx (· + 1)
    correct := bins.correct.modify binIdx (· + if sample.2 then 1 else 0)
    confSum := bins.confSum.modify binIdx (· + p) }

def gap (bins : Bins) (n : ℕ) (b : ℕ) : ℚ :=
  let count := bins.counts.getD b 0
  if count > 0 then
    let avgAcc := bins.correct.getD b 0 / count
    let avgConf := bins.confSum.getD b 0 / count
    count / n * |avgAcc - avgConf|
  else 0

end Bins

def mismatchedCounts (predictions labels : ℕ) : Text :=
  "Mismatched predictions count (".toList ++ (toString predictions).toList ++
    ") and labels count (".toList ++ (toString labels).toList ++ ")".toList

def computeEce (predictions : List ℚ) (labels : List Bool) (numBins : ℤ) : Except Raised ℚ :=
  if predictions.length ≠ labels.length then
    .error (.valueError (mismatchedCounts predictions.length labels.length))
  else if predictions = [] then .ok 0
  else if numBins ≤ 0 then .error (.valueError "num_bins must be positive".toList)
  else
    let n := predictions.length
    let bins := (predictions.zip labels).foldl (Bins.add numBins.toNat) (Bins.empty numBins.toNat)
    .ok ((List.range numBins.toNat).foldl (fun ece b => ece + bins.gap n b) 0)

structure EceEvaluation where
  ece : ℚ
  sampleCount : ℕ
  stratum : Text
  regime : CalibrationRegime
  maxAcceptableEce : ℚ

def EceEvaluation.isAcceptable (evaluation : EceEvaluation) : Bool :=
  evaluation.ece ≤ evaluation.maxAcceptableEce

def evaluateCalibration (predictions : List ℚ) (labels : List Bool) (stratum : Text)
    (regime : CalibrationRegime) (maxAcceptableEce : ℚ) (numBins : ℤ) :
    Except Raised EceEvaluation := do
  let ece ← computeEce predictions labels numBins
  return ⟨ece, labels.length, stratum, regime, maxAcceptableEce⟩

/-! ## What the bins hold -/

theorem clampUnit_bounds (pred : ℚ) : 0 ≤ clampUnit pred ∧ clampUnit pred ≤ 1 :=
  ⟨le_max_left _ _, max_le zero_le_one (min_le_left _ _)⟩

theorem binIndex_lt {numBins : ℕ} (hpos : 0 < numBins) (p : ℚ) : binIndex numBins p < numBins := by
  unfold binIndex
  dsimp only
  split <;> omega

def sampleBin (numBins : ℕ) (sample : ℚ × Bool) : ℕ := binIndex numBins (clampUnit sample.1)

def correctness (sample : ℚ × Bool) : ℚ := if sample.2 then 1 else 0

def residual (sample : ℚ × Bool) : ℚ := correctness sample - clampUnit sample.1

theorem abs_residual_le (sample : ℚ × Bool) : |residual sample| ≤ 1 := by
  obtain ⟨hzero, hone⟩ := clampUnit_bounds sample.1
  rw [residual, correctness, abs_le]
  split <;> constructor <;> linarith

theorem getD_modify_add {K : Type} [AddMonoid K] {values : List K} {i b : ℕ} (h : i < values.length)
    (x : K) : (values.modify i (· + x)).getD b 0 = values.getD b 0 + if i = b then x else 0 := by
  rw [List.getD_eq_getElem?_getD, List.getD_eq_getElem?_getD, List.getElem?_modify]
  by_cases hb : i = b
  · subst hb
    rw [if_pos rfl, List.getElem?_eq_getElem h]
    simp
  · rw [if_neg hb]
    simp [hb]

structure Bins.Holds (numBins : ℕ) (bins : Bins) (samples : List (ℚ × Bool)) : Prop where
  counts_length : bins.counts.length = numBins
  correct_length : bins.correct.length = numBins
  confSum_length : bins.confSum.length = numBins
  counts : ∀ b, bins.counts.getD b 0 = groupSum (sampleBin numBins) (fun _ => 1) samples b
  correct : ∀ b, bins.correct.getD b 0 = groupSum (sampleBin numBins) correctness samples b
  confSum : ∀ b, bins.confSum.getD b 0 =
    groupSum (sampleBin numBins) (fun sample => clampUnit sample.1) samples b

theorem Bins.holds_empty (numBins : ℕ) : (Bins.empty numBins).Holds numBins [] := by
  have hzero {K : Type} [Zero K] (b : ℕ) : (List.replicate numBins (0 : K)).getD b 0 = 0 := by
    rw [List.getD_eq_getElem?_getD, List.getElem?_replicate]
    split <;> rfl
  constructor
  · exact List.length_replicate
  · exact List.length_replicate
  · exact List.length_replicate
  · exact hzero
  · exact hzero
  · exact hzero

theorem Bins.Holds.add {numBins : ℕ} {bins : Bins} {samples : List (ℚ × Bool)}
    (h : bins.Holds numBins samples) (hpos : 0 < numBins) (sample : ℚ × Bool) :
    (bins.add numBins sample).Holds numBins (sample :: samples) := by
  have hbin : binIndex numBins (clampUnit sample.1) < numBins := binIndex_lt hpos _
  constructor
  · exact (List.length_modify ..).trans h.counts_length
  · exact (List.length_modify ..).trans h.correct_length
  · exact (List.length_modify ..).trans h.confSum_length
  · intro b
    rw [groupSum_cons, ← h.counts, add_comm]
    exact getD_modify_add (h.counts_length ▸ hbin) 1
  · intro b
    rw [groupSum_cons, ← h.correct, add_comm]
    exact getD_modify_add (h.correct_length ▸ hbin) _
  · intro b
    rw [groupSum_cons, ← h.confSum, add_comm]
    exact getD_modify_add (h.confSum_length ▸ hbin) _

theorem Bins.holds_foldl {numBins : ℕ} {bins : Bins} {read : List (ℚ × Bool)}
    (h : bins.Holds numBins read) (hpos : 0 < numBins) (samples : List (ℚ × Bool)) :
    (samples.foldl (Bins.add numBins) bins).Holds numBins (samples.reverse ++ read) := by
  induction samples generalizing bins read with
  | nil => exact h
  | cons sample samples ih =>
    rw [List.foldl_cons, List.reverse_cons, List.append_assoc]
    exact ih (h.add hpos sample)

/-! ## The error as a sum of gaps -/

theorem groupSum_sub {numBins : ℕ} (samples : List (ℚ × Bool)) (b : ℕ) :
    groupSum (sampleBin numBins) residual samples b =
      groupSum (sampleBin numBins) correctness samples b -
        groupSum (sampleBin numBins) (fun sample => clampUnit sample.1) samples b := by
  induction samples with
  | nil => simp [groupSum_nil]
  | cons sample samples ih =>
    rw [groupSum_cons, groupSum_cons, groupSum_cons, ih, residual]
    split <;> ring

theorem groupSum_of_count_zero {K : Type} [AddCommMonoid K] {numBins : ℕ}
    {samples : List (ℚ × Bool)} {b : ℕ}
    (h : groupSum (sampleBin numBins) (fun _ => 1) samples b = 0) (f : ℚ × Bool → K) :
    groupSum (sampleBin numBins) f samples b = 0 := by
  have hnone : samples.filter (fun sample => sampleBin numBins sample = b) = [] := by
    simpa [groupSum] using h
  rw [groupSum, hnone]
  rfl

theorem Bins.Holds.gap_eq {numBins : ℕ} {bins : Bins} {samples : List (ℚ × Bool)}
    (h : bins.Holds numBins samples) (n b : ℕ) :
    bins.gap n b = |groupSum (sampleBin numBins) residual samples b| / n := by
  unfold Bins.gap
  dsimp only
  rw [h.correct, h.confSum, groupSum_sub]
  split
  · rename_i hcount
    have hpos : (0 : ℚ) < bins.counts.getD b 0 := Nat.cast_pos.mpr hcount
    rw [← sub_div, abs_div, abs_of_pos hpos]
    field_simp
  · rename_i hcount
    have hzero : bins.counts.getD b 0 = 0 := by omega
    rw [h.counts] at hzero
    rw [groupSum_of_count_zero hzero correctness, groupSum_of_count_zero hzero fun sample =>
      clampUnit sample.1]
    simp

def eceOf (numBins : ℕ) (samples : List (ℚ × Bool)) : ℚ :=
  (∑ b ∈ range numBins, |groupSum (sampleBin numBins) residual samples b|) / samples.length

theorem foldl_range_add (f : ℕ → ℚ) (count : ℕ) :
    (List.range count).foldl (fun total b => total + f b) 0 = ∑ b ∈ range count, f b := by
  induction count with
  | zero => rfl
  | succ count ih =>
    rw [List.range_succ, List.foldl_append, ih, sum_range_succ]
    rfl

theorem computeEce_eq {predictions : List ℚ} {labels : List Bool} {numBins : ℤ}
    (hlength : predictions.length = labels.length) (hne : predictions ≠ []) (hpos : 0 < numBins) :
    computeEce predictions labels numBins =
      .ok (eceOf numBins.toNat (predictions.zip labels)) := by
  have hbins : 0 < numBins.toNat := by omega
  have hcount : (predictions.zip labels).length = predictions.length := by
    rw [List.length_zip, ← hlength, min_self]
  have hholds := Bins.holds_foldl (Bins.holds_empty numBins.toNat) hbins (predictions.zip labels)
  rw [computeEce, if_neg (not_not.mpr hlength), if_neg hne, if_neg (not_le.mpr hpos)]
  dsimp only
  rw [foldl_range_add, eceOf, hcount, sum_div]
  congr 1
  apply sum_congr rfl
  intro b _
  rw [hholds.gap_eq, List.append_nil,
    groupSum_perm _ _ (List.reverse_perm (predictions.zip labels))]

/-! ## Properties of the error -/

theorem mem_range_sampleBin {numBins : ℕ} (hpos : 0 < numBins) (samples : List (ℚ × Bool)) :
    ∀ sample ∈ samples, sampleBin numBins sample ∈ range numBins :=
  fun _ _ => mem_range.mpr (binIndex_lt hpos _)

theorem eceOf_nonneg (numBins : ℕ) (samples : List (ℚ × Bool)) : 0 ≤ eceOf numBins samples :=
  div_nonneg (sum_nonneg fun _ _ => abs_nonneg _) (Nat.cast_nonneg _)

theorem eceOf_le_one {numBins : ℕ} (hpos : 0 < numBins) (samples : List (ℚ × Bool)) :
    eceOf numBins samples ≤ 1 := by
  have hspread := spread_le (f := residual) (mem_range_sampleBin hpos samples)
  have hresiduals : (samples.map fun sample => |residual sample|).sum ≤ samples.length := by
    induction samples with
    | nil => simp
    | cons sample samples ih =>
      have hsample := abs_residual_le sample
      have hrest := ih (spread_le (mem_range_sampleBin hpos samples))
      rw [List.map_cons, List.sum_cons, List.length_cons, Nat.cast_succ]
      linarith
  exact div_le_one_of_le₀ (hspread.trans hresiduals) (Nat.cast_nonneg _)

theorem eceOf_perm (numBins : ℕ) {samples other : List (ℚ × Bool)} (h : samples.Perm other) :
    eceOf numBins samples = eceOf numBins other := by
  rw [eceOf, eceOf, h.length_eq]
  congr 1
  exact sum_congr rfl fun b _ => by rw [groupSum_perm _ _ h]

theorem abs_residuals_le_eceOf {numBins : ℕ} (hpos : 0 < numBins) (samples : List (ℚ × Bool)) :
    |(samples.map residual).sum| / samples.length ≤ eceOf numBins samples :=
  div_le_div_of_nonneg_right (abs_sum_le_spread (mem_range_sampleBin hpos samples))
    (Nat.cast_nonneg _)

theorem binIndex_eq_div {numBins factor : ℕ} (hpos : 0 < numBins) (hfactor : 0 < factor) (p : ℚ) :
    binIndex numBins p = binIndex (factor * numBins) p / factor := by
  have hfloor : ⌊p * numBins⌋₊ = ⌊p * (factor * numBins : ℕ)⌋₊ / factor := by
    rw [← Nat.floor_div_natCast, Nat.cast_mul]
    congr 1
    field_simp
  unfold binIndex
  dsimp only
  by_cases hend : numBins ≤ ⌊p * numBins⌋₊
  · have hends : factor * numBins ≤ ⌊p * (factor * numBins : ℕ)⌋₊ := by
      rwa [hfloor, Nat.le_div_iff_mul_le hfactor, Nat.mul_comm] at hend
    have hlower : (numBins - 1) * factor ≤ factor * numBins - 1 := by
      rw [Nat.sub_mul, Nat.one_mul, Nat.mul_comm]
      omega
    have hupper : factor * numBins - 1 < (numBins - 1 + 1) * factor := by
      rw [Nat.sub_add_cancel hpos, Nat.mul_comm]
      exact Nat.sub_lt (Nat.mul_pos hpos hfactor) Nat.one_pos
    rw [if_pos hend, if_pos hends]
    exact (Nat.div_eq_of_lt_le hlower hupper).symm
  · have hends : ¬factor * numBins ≤ ⌊p * (factor * numBins : ℕ)⌋₊ := by
      rwa [hfloor, Nat.le_div_iff_mul_le hfactor, Nat.mul_comm] at hend
    rw [if_neg hend, if_neg hends, hfloor]

theorem eceOf_le_finer {numBins factor : ℕ} (hpos : 0 < numBins) (hfactor : 0 < factor)
    (samples : List (ℚ × Bool)) :
    eceOf numBins samples ≤ eceOf (factor * numBins) samples := by
  apply div_le_div_of_nonneg_right _ (Nat.cast_nonneg _)
  apply spread_le_of_finer (r := (· / factor))
  · exact fun sample _ => binIndex_eq_div hpos hfactor _
  · exact mem_range_sampleBin (Nat.mul_pos hfactor hpos) samples
  · intro part hpart
    exact mem_range.mpr (Nat.div_lt_of_lt_mul (mem_range.mp hpart))

def mean (values : List ℚ) : ℚ := values.sum / values.length

theorem sum_map_residual {predictions : List ℚ} {labels : List Bool}
    (hlength : predictions.length = labels.length) :
    ((predictions.zip labels).map residual).sum =
      (labels.map fun label => if label then (1 : ℚ) else 0).sum - (predictions.map clampUnit).sum := by
  induction predictions generalizing labels with
  | nil =>
    cases labels with
    | nil => simp
    | cons label labels => cases hlength
  | cons pred predictions ih =>
    cases labels with
    | nil => cases hlength
    | cons label labels =>
      have hrest := ih (Nat.succ.inj hlength)
      simp only [List.zip_cons_cons, List.map_cons, List.sum_cons, hrest, residual, correctness]
      ring

/-- The error lies in the unit interval, does not depend on the order of the samples, is at least
the difference of the means, and grows with finer bins. -/
theorem computeEce_wellBehaved (predictions : List ℚ) (labels : List Bool) (numBins : ℤ)
    (hlength : predictions.length = labels.length) (hne : predictions ≠ []) (hpos : 0 < numBins) :
    ∃ ece, computeEce predictions labels numBins = .ok ece ∧ 0 ≤ ece ∧ ece ≤ 1 ∧
      (∀ predictions' labels', predictions'.length = labels'.length →
        (predictions'.zip labels').Perm (predictions.zip labels) →
          computeEce predictions' labels' numBins = .ok ece) ∧
      |mean (predictions.map clampUnit) - mean (labels.map fun label => if label then 1 else 0)| ≤
        ece ∧
      ∀ factor : ℤ, 0 < factor →
        ∃ finer, computeEce predictions labels (factor * numBins) = .ok finer ∧ ece ≤ finer := by
  have hbins : 0 < numBins.toNat := by omega
  have hcount : (predictions.zip labels).length = predictions.length := by
    rw [List.length_zip, ← hlength, min_self]
  refine ⟨_, computeEce_eq hlength hne hpos, eceOf_nonneg _ _, eceOf_le_one hbins _, ?_, ?_, ?_⟩
  · intro predictions' labels' hlength' hperm
    have hne' : predictions' ≠ [] := by
      have hsame := hperm.length_eq
      rw [hcount, List.length_zip, ← hlength', min_self] at hsame
      exact List.ne_nil_of_length_pos (hsame ▸ List.length_pos_iff.mpr hne)
    rw [computeEce_eq hlength' hne' hpos, eceOf_perm _ hperm]
  · have hgap := abs_residuals_le_eceOf hbins (predictions.zip labels)
    rw [sum_map_residual hlength, hcount] at hgap
    rw [mean, mean, List.length_map, List.length_map, ← hlength, ← sub_div, abs_div, abs_sub_comm,
      Nat.abs_cast]
    exact hgap
  · intro factor hfactor
    refine ⟨_, computeEce_eq hlength hne (Int.mul_pos hfactor hpos), ?_⟩
    rw [Int.toNat_mul hfactor.le hpos.le]
    exact eceOf_le_finer hbins (by omega) _

theorem computeEce_wellBehaved_sample :
    ∃ ece, computeEce [9 / 10, 2 / 5, 1] [true, false, true] 2 = .ok ece ∧ 0 ≤ ece ∧ ece ≤ 1 := by
  obtain ⟨ece, hece, hzero, hone, -⟩ := computeEce_wellBehaved [9 / 10, 2 / 5, 1]
    [true, false, true] 2 rfl (by simp) (by decide)
  exact ⟨ece, hece, hzero, hone⟩

end LandRecords.Calibration
