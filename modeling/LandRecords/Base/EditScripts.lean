import Mathlib

/-! Edit scripts between lists. The least number of edits that lead from one list to another is a
distance, and a recursion over the two lists finds it. -/
namespace LandRecords

variable {α : Type*} {a b c : List α} {m n : ℕ}

inductive Edit : List α → List α → Prop where
  | insert (x : α) (a : List α) : Edit a (x :: a)
  | delete (x : α) (a : List α) : Edit (x :: a) a
  | substitute (x y : α) (a : List α) : Edit (x :: a) (y :: a)
  | keep (x : α) {a b : List α} (h : Edit a b) : Edit (x :: a) (x :: b)

inductive Edits : ℕ → List α → List α → Prop where
  | none (a : List α) : Edits 0 a a
  | next {n : ℕ} {a b c : List α} (first : Edits n a b) (last : Edit b c) : Edits (n + 1) a c

namespace Edit

theorem symm (h : Edit a b) : Edit b a := by
  induction h with
  | insert x a => exact delete x a
  | delete x a => exact insert x a
  | substitute x y a => exact substitute y x a
  | keep x _ ih => exact keep x ih

theorem append_left (before : List α) (h : Edit a b) : Edit (before ++ a) (before ++ b) := by
  induction before with
  | nil => exact h
  | cons x before ih => exact keep x ih

theorem append_right (after : List α) (h : Edit a b) : Edit (a ++ after) (b ++ after) := by
  induction h with
  | insert x a => exact insert x (a ++ after)
  | delete x a => exact delete x (a ++ after)
  | substitute x y a => exact substitute x y (a ++ after)
  | keep x _ ih => exact keep x ih

theorem reverse (h : Edit a b) : Edit a.reverse b.reverse := by
  induction h with
  | insert x a =>
    have hlast := append_left a.reverse (insert x [])
    simpa using hlast
  | delete x a =>
    have hlast := append_left a.reverse (delete x [])
    simpa using hlast
  | substitute x y a =>
    have hlast := append_left a.reverse (substitute x y [])
    simpa using hlast
  | keep x _ ih =>
    rw [List.reverse_cons, List.reverse_cons]
    exact append_right [x] ih

theorem length_le (h : Edit a b) : b.length ≤ a.length + 1 := by
  induction h with
  | insert x a => exact le_rfl
  | delete x a => exact (Nat.le_succ _).trans (Nat.le_succ _)
  | substitute x y a => exact Nat.le_succ _
  | keep x _ ih => exact Nat.succ_le_succ ih

end Edit

namespace Edits

theorem one (h : Edit a b) : Edits 1 a b := next (none a) h

theorem trans (h : Edits m a b) (h' : Edits n b c) : Edits (m + n) a c := by
  induction h' with
  | none => exact h
  | next _ last ih => exact next (ih h) last

theorem symm (h : Edits n a b) : Edits n b a := by
  induction h with
  | none a => exact none a
  | @next n a b c _ last ih =>
    rw [Nat.add_comm]
    exact (one last.symm).trans ih

theorem map {f : List α → List α} (hf : ∀ {a b}, Edit a b → Edit (f a) (f b)) (h : Edits n a b) :
    Edits n (f a) (f b) := by
  induction h with
  | none a => exact none (f a)
  | next _ last ih => exact next ih (hf last)

theorem zero_iff : Edits 0 a b ↔ a = b := by
  constructor
  · intro h
    cases h
    rfl
  · rintro rfl
    exact none a

end Edits

/-! ## The least number of edits -/

variable [DecidableEq α]

def levenshtein : List α → List α → ℕ
  | [], b => b.length
  | x :: a, [] => (x :: a).length
  | x :: a, y :: b =>
      min (min (levenshtein a (y :: b) + 1) (levenshtein (x :: a) b + 1))
        (levenshtein a b + if x = y then 0 else 1)
termination_by a b => a.length + b.length

@[simp] theorem levenshtein_nil_left (b : List α) : levenshtein [] b = b.length := by
  rw [levenshtein]

@[simp] theorem levenshtein_nil_right (a : List α) : levenshtein a [] = a.length := by
  cases a <;> rw [levenshtein]

theorem levenshtein_cons_cons (x y : α) (a b : List α) : levenshtein (x :: a) (y :: b) =
    min (min (levenshtein a (y :: b) + 1) (levenshtein (x :: a) b + 1))
      (levenshtein a b + if x = y then 0 else 1) := by
  rw [levenshtein]

theorem levenshtein_delete_le (x : α) (a b : List α) :
    levenshtein (x :: a) b ≤ levenshtein a b + 1 := by
  cases b with
  | nil => simp
  | cons y b =>
    rw [levenshtein_cons_cons]
    omega

theorem levenshtein_insert_le (y : α) (a b : List α) :
    levenshtein a (y :: b) ≤ levenshtein a b + 1 := by
  cases a with
  | nil => simp
  | cons x a =>
    rw [levenshtein_cons_cons]
    omega

theorem levenshtein_le_of_edit (a : List α) (h : Edit b c) :
    levenshtein a c ≤ levenshtein a b + 1 := by
  induction a generalizing b c with
  | nil => simpa using h.length_le
  | cons x a iha =>
    induction h with
    | insert y b => exact levenshtein_insert_le y (x :: a) b
    | delete y b =>
      have hkept := levenshtein_delete_le x a b
      have hdropped := iha (Edit.delete y b)
      rw [levenshtein_cons_cons]
      omega
    | substitute y z b =>
      have hchanged := iha (Edit.substitute y z b)
      rw [levenshtein_cons_cons, levenshtein_cons_cons]
      split <;> split <;> omega
    | keep y h ih =>
      have hkept := iha (Edit.keep y h)
      have hbehind := iha h
      rw [levenshtein_cons_cons, levenshtein_cons_cons]
      omega

theorem levenshtein_self (a : List α) : levenshtein a a = 0 := by
  induction a with
  | nil => rw [levenshtein_nil_left, List.length_nil]
  | cons x a ih =>
    rw [levenshtein_cons_cons, ih, if_pos rfl]
    omega

theorem edits_levenshtein (a b : List α) : Edits (levenshtein a b) a b := by
  have hkeep (x : α) {n : ℕ} {a b : List α} (h : Edits n a b) : Edits n (x :: a) (x :: b) :=
    h.map fun h => Edit.keep x h
  induction a, b using levenshtein.induct with
  | case1 b =>
    rw [levenshtein_nil_left]
    induction b with
    | nil => exact Edits.none []
    | cons y b ih => exact Edits.next ih (Edit.insert y b)
  | case2 x a =>
    rw [levenshtein_nil_right]
    induction x :: a with
    | nil => exact Edits.none []
    | cons x a ih => exact (Edits.next ih.symm (Edit.insert x a)).symm
  | case3 x a y b hdelete hinsert hmatch =>
    rw [levenshtein_cons_cons]
    -- one of the three ways is the least
    rcases min_choice (min (levenshtein a (y :: b) + 1) (levenshtein (x :: a) b + 1))
      (levenshtein a b + if x = y then 0 else 1) with hway | hway
    · rw [hway]
      rcases min_choice (levenshtein a (y :: b) + 1) (levenshtein (x :: a) b + 1) with hway | hway
      · rw [hway, Nat.add_comm]
        exact (Edits.one (Edit.delete x a)).trans hdelete
      · rw [hway]
        exact Edits.next hinsert (Edit.insert y b)
    · rw [hway]
      by_cases hsame : x = y
      · subst hsame
        rw [if_pos rfl]
        exact hkeep x hmatch
      · rw [if_neg hsame]
        exact Edits.next (hkeep x hmatch) (Edit.substitute x y b)

/-- The recursion finds the least number of edits. -/
theorem levenshtein_isLeast (a b : List α) : IsLeast {n | Edits n a b} (levenshtein a b) := by
  constructor
  · exact edits_levenshtein a b
  · intro n h
    induction h with
    | none a => exact (levenshtein_self a).le
    | @next n a b c _ last ih => exact (levenshtein_le_of_edit a last).trans (Nat.succ_le_succ ih)

theorem levenshtein_eq_zero {a b : List α} : levenshtein a b = 0 ↔ a = b := by
  constructor
  · intro h
    have hedits := edits_levenshtein a b
    rw [h] at hedits
    exact Edits.zero_iff.mp hedits
  · rintro rfl
    exact levenshtein_self a

theorem levenshtein_comm (a b : List α) : levenshtein a b = levenshtein b a :=
  le_antisymm ((levenshtein_isLeast a b).2 (edits_levenshtein b a).symm)
    ((levenshtein_isLeast b a).2 (edits_levenshtein a b).symm)

theorem levenshtein_triangle (a b c : List α) :
    levenshtein a c ≤ levenshtein a b + levenshtein b c :=
  (levenshtein_isLeast a c).2 ((edits_levenshtein a b).trans (edits_levenshtein b c))

theorem levenshtein_reverse (a b : List α) : levenshtein a.reverse b.reverse = levenshtein a b := by
  have hle (a b : List α) : levenshtein a.reverse b.reverse ≤ levenshtein a b :=
    (levenshtein_isLeast a.reverse b.reverse).2 ((edits_levenshtein a b).map Edit.reverse)
  apply le_antisymm (hle a b)
  have hback := hle a.reverse b.reverse
  rwa [List.reverse_reverse, List.reverse_reverse] at hback

end LandRecords
