import LandRecords.Base.Grouping
import Mathlib

/-! A grouped count and its pivot: the groups of one place share a bucket, and each of them writes
the column of the bucket that is its own. -/
namespace LandRecords.Pivot

open Grouping

section GroupedCount

variable {α γ ρ : Type*} [BEq γ] {key : α → γ} {items : List α} {groupKey : ρ → γ} {n : ρ → Nat}
  {groups : List ρ}

structure GroupedCount (key : α → γ) (items : List α) (groupKey : ρ → γ) (n : ρ → Nat)
    (groups : List ρ) : Prop where
  distinct : (groups.map groupKey).Nodup
  complete : ∀ k, k ∈ groups.map groupKey ↔ k ∈ items.map key
  counted : ∀ group ∈ groups, n group = items.countP fun item => key item == groupKey group

theorem GroupedCount.perm {groups' : List ρ} (h : GroupedCount key items groupKey n groups)
    (hperm : groups'.Perm groups) : GroupedCount key items groupKey n groups' where
  distinct := (hperm.map groupKey).nodup_iff.mpr h.distinct
  complete := fun k => (hperm.map groupKey).mem_iff.trans (h.complete k)
  counted := fun group hgroup => h.counted group (hperm.mem_iff.mp hgroup)

theorem groupedCount_groupsOf [LawfulBEq γ] {build : γ × List α → ρ}
    (hkey : ∀ group, groupKey (build group) = group.1)
    (hn : ∀ group, n (build group) = group.2.length) :
    GroupedCount key items groupKey n ((groupsOf key items).map build) where
  distinct := by
    rw [List.map_map, show groupKey ∘ build = Prod.fst from funext hkey]
    exact groupsOf_keys_nodup
  complete := by
    intro k
    rw [List.map_map, show groupKey ∘ build = Prod.fst from funext hkey]
    exact mem_groupsOf_keys
  counted := by
    intro group hgroup
    obtain ⟨entry, hentry, hbuild⟩ := List.mem_map.mp hgroup
    rw [← hbuild, hn, hkey, List.countP_eq_length_filter, group_of_mem hentry]

end GroupedCount

structure Columns (β ι ν : Type*) where
  get : β → ι → ν
  set : ι → ν → β → β
  get_set_self : ∀ i v b, get (set i v b) i = v
  get_set_other : ∀ i j v b, j ≠ i → get (set i v b) j = get b j

namespace Columns

section Write

variable {ρ β ι ν : Type*} (columns : Columns β ι ν) {column : ρ → ι} {value : ρ → ν}
  {items : List ρ} {b : β} {i : ι}

def write (column : ρ → ι) (value : ρ → ν) (items : List ρ) (b : β) : β :=
  items.foldl (fun b item => columns.set (column item) (value item) b) b

theorem get_write_other (h : i ∉ items.map column) :
    columns.get (columns.write column value items b) i = columns.get b i := by
  induction items generalizing b with
  | nil => rfl
  | cons item items ih =>
    rw [List.map_cons, List.mem_cons, not_or] at h
    exact (ih h.2).trans (columns.get_set_other _ _ _ _ h.1)

theorem get_write_self {item : ρ} (hcolumns : (items.map column).Nodup) (hitem : item ∈ items) :
    columns.get (columns.write column value items b) (column item) = value item := by
  induction items generalizing b with
  | nil => cases hitem
  | cons first items ih =>
    rw [List.map_cons, List.nodup_cons] at hcolumns
    cases List.mem_cons.mp hitem with
    | inl hfirst =>
      subst hfirst
      exact (columns.get_write_other hcolumns.1).trans (columns.get_set_self _ _ _)
    | inr hrest => exact ih hcolumns.2 hrest

end Write

section Pivot

variable {ρ β ι κ : Type*} [BEq κ] (columns : Columns β ι Nat)

def pivot (place : ρ → κ) (column : ρ → ι) (n : ρ → Nat) (start : κ → β) (groups : List ρ) :
    List (κ × β) :=
  bucketsOf place start (fun group => columns.set (column group) (n group)) groups

variable [LawfulBEq κ] {α γ : Type*} [BEq γ] {key : α → γ} {items : List α} {groupKey : ρ → γ}
  {n : ρ → Nat} {groups : List ρ} {place : γ → κ} {column : γ → ι} {start : κ → β}

theorem mem_pivot_keys (hgroups : GroupedCount key items groupKey n groups) {k : κ} :
    k ∈ (columns.pivot (place ∘ groupKey) (column ∘ groupKey) n start groups).map Prod.fst ↔
      ∃ item ∈ items, place (key item) = k := by
  rw [pivot, mem_bucketsOf_keys, ← List.map_map, List.mem_map]
  simp only [hgroups.complete, List.mem_map, exists_exists_and_eq_and]

/-- Where the place and the column tell the keys of the items apart, a column that starts at zero
ends as the number of items with this place and column. -/
theorem get_pivot [LawfulBEq γ] [BEq ι] [LawfulBEq ι]
    (hgroups : GroupedCount key items groupKey n groups)
    (hinj : ∀ a ∈ items.map key, ∀ b ∈ items.map key,
      place a = place b → column a = column b → a = b)
    {bucket : κ × β}
    (hbucket : bucket ∈ columns.pivot (place ∘ groupKey) (column ∘ groupKey) n start groups) {i : ι}
    (hzero : columns.get (start bucket.1) i = 0) :
    columns.get bucket.2 i =
      items.countP fun item => place (key item) == bucket.1 && column (key item) == i := by
  have hkeys : ∀ group ∈ groups, groupKey group ∈ items.map key := fun group hgroup =>
    (hgroups.complete _).mp (List.mem_map_of_mem hgroup)
  let own := groups.filter fun group => place (groupKey group) == bucket.1
  have hown : ∀ group, group ∈ own ↔ group ∈ groups ∧ place (groupKey group) = bucket.1 := by
    simp [own]
  have hwritten : bucket.2 = columns.write (column ∘ groupKey) n own (start bucket.1) :=
    bucket_of_mem hbucket
  by_cases hgroup : ∃ group ∈ own, column (groupKey group) = i
  · obtain ⟨group, hmem, hcolumn⟩ := hgroup
    have hplace := ((hown group).mp hmem).2
    have hgroupKey := hkeys group ((hown group).mp hmem).1
    have hdistinct : (own.map (column ∘ groupKey)).Nodup := by
      rw [← List.map_map]
      apply List.Nodup.map_on _ (hgroups.distinct.sublist (List.filter_sublist.map _))
      intro a ha b hb hsame
      obtain ⟨first, hfirst, hfirstKey⟩ := List.mem_map.mp ha
      obtain ⟨second, hsecond, hsecondKey⟩ := List.mem_map.mp hb
      subst hfirstKey hsecondKey
      have hfirst := (hown first).mp hfirst
      have hsecond := (hown second).mp hsecond
      exact hinj _ (hkeys _ hfirst.1) _ (hkeys _ hsecond.1) (hfirst.2.trans hsecond.2.symm) hsame
    rw [hwritten, ← hcolumn]
    apply (columns.get_write_self hdistinct hmem).trans
    rw [hgroups.counted group ((hown group).mp hmem).1]
    apply List.countP_congr
    intro item hitem
    rw [beq_iff_eq, Bool.and_eq_true, beq_iff_eq, beq_iff_eq, ← hplace]
    constructor
    · intro hkey
      rw [hkey]
      exact ⟨rfl, rfl⟩
    · intro ⟨hitemPlace, hitemColumn⟩
      exact hinj _ (List.mem_map_of_mem hitem) _ hgroupKey hitemPlace hitemColumn
  · have hnone : i ∉ own.map (column ∘ groupKey) := by
      intro hmem
      obtain ⟨group, hgroupOwn, hcolumn⟩ := List.mem_map.mp hmem
      exact hgroup ⟨group, hgroupOwn, hcolumn⟩
    rw [hwritten, columns.get_write_other hnone, hzero, eq_comm, List.countP_eq_zero]
    intro item hitem hcounted
    rw [Bool.and_eq_true, beq_iff_eq, beq_iff_eq] at hcounted
    obtain ⟨group, hmem, hkey⟩ :=
      List.mem_map.mp ((hgroups.complete _).mpr (List.mem_map_of_mem hitem))
    rw [← hkey] at hcounted
    exact hgroup ⟨group, (hown group).mpr ⟨hmem, hcounted.1⟩, hcounted.2⟩

end Pivot

end Columns

end LandRecords.Pivot
