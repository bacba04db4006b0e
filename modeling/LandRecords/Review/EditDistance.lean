import LandRecords.Base.EditScripts
import LandRecords.Review.Correction

/-! The two rows of the dynamic program hold the distances between prefixes, so that the distance
which decides on a second actor is the least number of edits. -/
namespace LandRecords.Review

open Backend

/-- The distances from a prefix of the first text to the prefixes of the second one that are at
least so long. Prefixes are given from their ends. -/
def prefixRow (a : Text) : Text → Text → List ℕ
  | b, [] => [levenshtein a b]
  | b, d :: rest => levenshtein a b :: prefixRow a (d :: b) rest

theorem prefixRow_eq_cons (a b rest : Text) :
    prefixRow a b rest = levenshtein a b :: (prefixRow a b rest).tail := by
  cases rest <;> rfl

theorem nextCells_prefixRow (c : Char) (a b rest : Text) :
    nextCells c (levenshtein (c :: a) b) rest (prefixRow a b rest) =
      (prefixRow (c :: a) b rest).tail := by
  induction rest generalizing b with
  | nil => rfl
  | cons d rest ih =>
    have hcell : min (min (levenshtein a (d :: b) + 1) (levenshtein (c :: a) b + 1))
        (levenshtein a b + if c = d then 0 else 1) = levenshtein (c :: a) (d :: b) :=
      (levenshtein_cons_cons c d a b).symm
    have hrow := ih (d :: b)
    rw [prefixRow_eq_cons a (d :: b) rest] at hrow
    rw [prefixRow, prefixRow_eq_cons a (d :: b) rest, nextCells, prefixRow, List.tail_cons,
      prefixRow_eq_cons (c :: a) (d :: b) rest]
    rw [hcell, hrow]

/-- Every row is the one of the characters read so far. -/
theorem lastRow_prefixRow (b read rest : Text) :
    lastRow b read.length rest (prefixRow read [] b) = prefixRow (rest.reverse ++ read) [] b := by
  induction rest generalizing read with
  | nil => rfl
  | cons c rest ih =>
    have hfirst : levenshtein (c :: read) [] = read.length + 1 := levenshtein_nil_right _
    have hcells := nextCells_prefixRow c read [] b
    rw [hfirst] at hcells
    have hnext : (read.length + 1) :: nextCells c (read.length + 1) b (prefixRow read [] b) =
        prefixRow (c :: read) [] b := by
      rw [hcells, prefixRow_eq_cons (c :: read), hfirst, List.tail_cons]
    rw [lastRow, hnext, ← @List.length_cons _ c read, ih, List.reverse_cons, List.append_assoc]
    rfl

theorem prefixRow_nil (b rest : Text) :
    prefixRow [] b rest = List.range' b.length (rest.length + 1) := by
  induction rest generalizing b with
  | nil => simp [prefixRow]
  | cons d rest ih =>
    rw [prefixRow, ih, levenshtein_nil_left, List.length_cons, List.length_cons,
      @List.range'_succ _ (rest.length + 1)]

theorem prefixRow_getLastD (a b rest : Text) :
    (prefixRow a b rest).getLastD 0 = levenshtein a (rest.reverse ++ b) := by
  induction rest generalizing b with
  | nil => rfl
  | cons d rest ih =>
    have hlast := ih (d :: b)
    rw [prefixRow_eq_cons] at hlast
    rw [prefixRow, prefixRow_eq_cons, List.reverse_cons, List.append_assoc]
    exact hlast

theorem editDistance_eq_levenshtein (a b : Text) : editDistance a b = levenshtein a b := by
  rw [editDistance]
  split
  · rename_i hsame
    rw [hsame, levenshtein_self]
  · split
    · rename_i hempty
      rw [List.isEmpty_iff.mp hempty, levenshtein_nil_left]
    · split
      · rename_i hempty
        rw [List.isEmpty_iff.mp hempty, levenshtein_nil_right]
      · have hrows := lastRow_prefixRow b [] a
        rw [prefixRow_nil, List.append_nil] at hrows
        rw [List.range_eq_range']
        exact (congrArg (List.getLastD · 0) hrows).trans (by
          rw [prefixRow_getLastD, List.append_nil, levenshtein_reverse])

/-- The distance is the least number of edits, hence a metric, and a second actor is asked for
exactly if more edits than the threshold are needed. -/
theorem editDistance_least :
    (∀ a b : Text, IsLeast {n | Edits n a b} (editDistance a b)) ∧
    (∀ a b : Text, editDistance a b = 0 ↔ a = b) ∧
    (∀ a b : Text, editDistance a b = editDistance b a) ∧
    (∀ a b c : Text, editDistance a c ≤ editDistance a b + editDistance b c) ∧
    ∀ (extraction : Extraction) (corrected : Text),
      needsMakerChecker extraction corrected = true ↔
        extraction.fieldName ∈ makerCheckerFieldClasses ∧
          ∀ n, Edits n (predictedValue extraction) corrected →
            makerCheckerEditDistanceThreshold < n := by
  simp only [editDistance_eq_levenshtein]
  refine ⟨levenshtein_isLeast, fun _ _ => levenshtein_eq_zero, levenshtein_comm,
    levenshtein_triangle, fun extraction corrected => ?_⟩
  have hleast := levenshtein_isLeast (predictedValue extraction) corrected
  have hthreshold : makerCheckerEditDistanceThreshold <
      levenshtein (predictedValue extraction) corrected ↔
        ∀ n, Edits n (predictedValue extraction) corrected →
          makerCheckerEditDistanceThreshold < n :=
    ⟨fun h n hn => h.trans_le (hleast.2 hn), fun h => h _ hleast.1⟩
  rw [needsMakerChecker, editDistance_eq_levenshtein, Bool.and_eq_true, decide_eq_true_iff,
    decide_eq_true_iff, hthreshold]

end LandRecords.Review
