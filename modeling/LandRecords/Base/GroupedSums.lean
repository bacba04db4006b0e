import Mathlib

/-! Sums of a list by groups. The absolute values of the groups' sums add up to more the finer
the groups are, from the sum as a whole to the elements one by one. -/
namespace LandRecords.GroupedSums

open Finset

variable {α ι κ K : Type*} [DecidableEq ι] [DecidableEq κ]

section Sum

variable [AddCommMonoid K] (key : α → ι) (f : α → K)

def groupSum (l : List α) (b : ι) : K := ((l.filter fun x => key x = b).map f).sum

theorem groupSum_nil (b : ι) : groupSum key f [] b = 0 := rfl

theorem groupSum_cons (x : α) (l : List α) (b : ι) :
    groupSum key f (x :: l) b = (if key x = b then f x else 0) + groupSum key f l b := by
  by_cases hb : key x = b <;> simp [groupSum, hb]

theorem groupSum_perm {l l' : List α} (h : l.Perm l') (b : ι) :
    groupSum key f l b = groupSum key f l' b :=
  ((h.filter _).map f).sum_eq

variable {key} {groups : Finset ι} {l : List α}

theorem sum_groupSum (h : ∀ x ∈ l, key x ∈ groups) :
    ∑ b ∈ groups, groupSum key f l b = (l.map f).sum := by
  induction l with
  | nil => simp [groupSum_nil]
  | cons x l ih =>
    have hx : ∑ b ∈ groups, (if key x = b then f x else 0) = f x := by
      rw [sum_ite_eq, if_pos (h x List.mem_cons_self)]
    simp only [groupSum_cons, sum_add_distrib, hx, List.map_cons, List.sum_cons,
      ih fun y hy => h y (List.mem_cons_of_mem _ hy)]

theorem groupSum_eq_sum {fine : α → κ} {parts : Finset κ} {r : κ → ι}
    (hkey : ∀ x ∈ l, key x = r (fine x)) (hparts : ∀ x ∈ l, fine x ∈ parts) (b : ι) :
    groupSum key f l b = ∑ part ∈ parts with r part = b, groupSum fine f l part := by
  induction l with
  | nil => simp [groupSum_nil]
  | cons x l ih =>
    have hmem := hparts x List.mem_cons_self
    have hx : ∑ part ∈ parts with r part = b, (if fine x = part then f x else 0) =
        if key x = b then f x else 0 := by
      rw [sum_ite_eq, hkey x List.mem_cons_self]
      simp [hmem]
    simp only [groupSum_cons, sum_add_distrib, hx,
      ih (fun y hy => hkey y (List.mem_cons_of_mem _ hy))
        (fun y hy => hparts y (List.mem_cons_of_mem _ hy))]

end Sum

section Spread

variable [Field K] [LinearOrder K] [IsStrictOrderedRing K] {key : α → ι} {f : α → K}
  {groups : Finset ι} {l : List α}

theorem abs_groupSum_le (b : ι) : |groupSum key f l b| ≤ groupSum key (fun x => |f x|) l b := by
  induction l with
  | nil => simp [groupSum_nil]
  | cons x l ih =>
    rw [groupSum_cons, groupSum_cons]
    apply (abs_add_le _ _).trans
    apply add_le_add _ ih
    split
    · exact le_rfl
    · exact abs_zero.le

theorem abs_sum_le_spread (h : ∀ x ∈ l, key x ∈ groups) :
    |(l.map f).sum| ≤ ∑ b ∈ groups, |groupSum key f l b| := by
  rw [← sum_groupSum f h]
  exact abs_sum_le_sum_abs _ _

theorem spread_le (h : ∀ x ∈ l, key x ∈ groups) :
    ∑ b ∈ groups, |groupSum key f l b| ≤ (l.map fun x => |f x|).sum := by
  rw [← sum_groupSum (fun x => |f x|) h]
  exact sum_le_sum fun b _ => abs_groupSum_le b

theorem spread_le_of_finer {fine : α → κ} {parts : Finset κ} {r : κ → ι}
    (hkey : ∀ x ∈ l, key x = r (fine x)) (hparts : ∀ x ∈ l, fine x ∈ parts)
    (hr : ∀ part ∈ parts, r part ∈ groups) :
    ∑ b ∈ groups, |groupSum key f l b| ≤ ∑ part ∈ parts, |groupSum fine f l part| := by
  rw [← sum_fiberwise_of_maps_to hr fun part => |groupSum fine f l part|]
  apply sum_le_sum
  intro b _
  rw [groupSum_eq_sum f hkey hparts b]
  exact abs_sum_le_sum_abs _ _

end Spread

end LandRecords.GroupedSums
