import LandRecords.Base.Grouping
import LandRecords.Base.Payload
import LandRecords.Base.Rounding
import Mathlib

/-! `==` on payload values. A dictionary has each key once, whatever the order of its
entries; on values that are built so, `==` is an equivalence. -/
namespace LandRecords.Value

@[elab_as_elim]
theorem inductionOn {ν : Type} {P : Value ν → Prop} (value : Value ν) (none : P .none)
    (number : ∀ n, P (.number n)) (text : ∀ t, P (.text t))
    (list : ∀ items, (∀ item ∈ items, P item) → P (.list items))
    (dict : ∀ entries, (∀ entry ∈ entries, P entry.2) → P (.dict entries)) : P value :=
  match value with
  | .none => none
  | .number n => number n
  | .text t => text t
  | .list items => list items fun item _ => inductionOn item none number text list dict
  | .dict entries => dict entries fun entry _ => inductionOn entry.2 none number text list dict
termination_by sizeOf value
decreasing_by
  · rename_i hmem
    have hsize := List.sizeOf_lt_of_mem hmem
    simp
    omega
  · rename_i hmem
    have hsize := List.sizeOf_lt_of_mem hmem
    obtain ⟨key, held⟩ := entry
    simp at hsize ⊢
    omega

inductive Proper {ν : Type} : Value ν → Prop
  | none : Proper .none
  | number (n : ν) : Proper (.number n)
  | text (t : Text) : Proper (.text t)
  | list (items : List (Value ν)) (h : ∀ item ∈ items, Proper item) : Proper (.list items)
  | dict (entries : List (Text × Value ν)) (hkeys : (entries.map Prod.fst).Nodup)
      (h : ∀ entry ∈ entries, Proper entry.2) : Proper (.dict entries)

variable {v w u : Value ℚ}

theorem sameItems_iff {xs ys : List (Value ℚ)} :
    sameItems xs ys = true ↔ List.Forall₂ (fun x y => same x y = true) xs ys := by
  induction xs generalizing ys with
  | nil => cases ys <;> simp [sameItems]
  | cons x xs ih => cases ys <;> simp [sameItems, ih]

theorem sameEntry_iff {entry : Text × Value ℚ} {ys : List (Text × Value ℚ)} :
    sameEntry entry ys = true ↔ ∃ y, ys.lookup entry.1 = some y ∧ same entry.2 y = true := by
  obtain ⟨key, x⟩ := entry
  cases hlookup : ys.lookup key with
  | none => simp [sameEntry, hlookup]
  | some y => simp [sameEntry, hlookup]

theorem sameEntries_iff {xs ys : List (Text × Value ℚ)} : sameEntries xs ys = true ↔
    ∀ entry ∈ xs, ∃ y, ys.lookup entry.1 = some y ∧ same entry.2 y = true := by
  induction xs with
  | nil => simp [sameEntries]
  | cons entry xs ih =>
    rw [sameEntries, Bool.and_eq_true, ih, sameEntry_iff, List.forall_mem_cons]

theorem same_refl (h : Proper v) : same v v = true := by
  induction v using inductionOn with
  | none => simp [same]
  | number n => simp [same, Numeric.eq]
  | text t => simp [same]
  | list items ih =>
    cases h with
    | list _ hitems =>
      rw [same, sameItems_iff, List.forall₂_same]
      exact fun item hmem => ih item hmem (hitems item hmem)
  | dict entries ih =>
    cases h with
    | dict _ hkeys hheld =>
      rw [same, beq_self_eq_true, Bool.true_and, sameEntries_iff]
      exact fun entry hmem =>
        ⟨entry.2, Grouping.lookup_of_mem hkeys hmem, ih entry hmem (hheld entry hmem)⟩

theorem keys_subset {xs ys : List (Text × Value ℚ)} (hkeys : (xs.map Prod.fst).Nodup)
    (hlength : xs.length = ys.length) (h : sameEntries xs ys = true) {entry : Text × Value ℚ}
    (hmem : entry ∈ ys) : ∃ x, (entry.1, x) ∈ xs := by
  have hsubset : xs.map Prod.fst ⊆ ys.map Prod.fst := by
    intro key hkey
    obtain ⟨entry, hentry, rfl⟩ := List.mem_map.mp hkey
    obtain ⟨y, hlookup, -⟩ := sameEntries_iff.mp h entry hentry
    exact List.mem_map.mpr ⟨_, Grouping.mem_of_lookup hlookup, rfl⟩
  have hperm : (xs.map Prod.fst).Perm (ys.map Prod.fst) :=
    (hkeys.subperm hsubset).perm_of_length_le (by simp [hlength])
  obtain ⟨⟨key, x⟩, hx, hkey⟩ := List.mem_map.mp (hperm.mem_iff.mpr (List.mem_map_of_mem hmem))
  exact ⟨x, hkey ▸ hx⟩

theorem same_symm (hv : Proper v) (hw : Proper w) (h : same v w = true) : same w v = true := by
  induction v using inductionOn generalizing w with
  | none => cases w <;> simp [same] at h ⊢
  | number n =>
    cases w <;> simp [same, Numeric.eq] at h ⊢
    exact h.symm
  | text t =>
    cases w <;> simp [same] at h ⊢
    exact h.symm
  | list items ih =>
    cases hw with
    | list others hothers =>
      cases hv with
      | list _ hitems =>
        rw [same, sameItems_iff, List.forall₂_iff_get] at h ⊢
        refine ⟨h.1.symm, fun i hi hi' => ?_⟩
        exact ih _ (List.get_mem ..) (hitems _ (List.get_mem ..)) (hothers _ (List.get_mem ..))
          (h.2 i hi' hi)
    | _ => simp [same] at h
  | dict entries ih =>
    cases hw with
    | dict others hothersKeys hothers =>
      cases hv with
      | dict _ hkeys hheld =>
        rw [same, Bool.and_eq_true, beq_iff_eq] at h ⊢
        refine ⟨h.1.symm, sameEntries_iff.mpr fun entry hmem => ?_⟩
        obtain ⟨x, hx⟩ := keys_subset hkeys h.1 h.2 hmem
        obtain ⟨y, hlookup, hsame⟩ := sameEntries_iff.mp h.2 _ hx
        obtain rfl : y = entry.2 :=
          Option.some.inj (hlookup.symm.trans (Grouping.lookup_of_mem hothersKeys hmem))
        exact ⟨x, Grouping.lookup_of_mem hkeys hx, ih _ hx (hheld _ hx) (hothers _ hmem) hsame⟩
    | _ => simp [same] at h

theorem same_trans (hv : Proper v) (hw : Proper w) (hu : Proper u) (h : same v w = true)
    (h' : same w u = true) : same v u = true := by
  induction v using inductionOn generalizing w u with
  | none =>
    cases w <;> simp [same] at h
    exact h'
  | number n =>
    cases w <;> simp [same, Numeric.eq] at h
    exact h ▸ h'
  | text t =>
    cases w <;> simp [same] at h
    exact h ▸ h'
  | list items ih =>
    cases hw with
    | list others hothers =>
      cases hu with
      | list lasts hlasts =>
        cases hv with
        | list _ hitems =>
          rw [same, sameItems_iff, List.forall₂_iff_get] at h h' ⊢
          refine ⟨h.1.trans h'.1, fun i hi hi' => ?_⟩
          have hmid : i < others.length := h.1 ▸ hi
          exact ih _ (List.get_mem ..) (hitems _ (List.get_mem ..)) (hothers _ (List.get_mem ..))
            (hlasts _ (List.get_mem ..)) (h.2 i hi hmid) (h'.2 i hmid hi')
      | _ => simp [same] at h'
    | _ => simp [same] at h
  | dict entries ih =>
    cases hw with
    | dict others hothersKeys hothers =>
      cases hu with
      | dict lasts hlastsKeys hlasts =>
        cases hv with
        | dict _ hkeys hheld =>
          rw [same, Bool.and_eq_true, beq_iff_eq] at h h' ⊢
          refine ⟨h.1.trans h'.1, sameEntries_iff.mpr fun entry hmem => ?_⟩
          obtain ⟨y, hy, hxy⟩ := sameEntries_iff.mp h.2 entry hmem
          obtain ⟨z, hz, hyz⟩ := sameEntries_iff.mp h'.2 _ (Grouping.mem_of_lookup hy)
          exact ⟨z, hz, ih entry hmem (hheld entry hmem) (hothers _ (Grouping.mem_of_lookup hy))
            (hlasts _ (Grouping.mem_of_lookup hz)) hxy hyz⟩
      | _ => simp [same] at h'
    | _ => simp [same] at h

end LandRecords.Value
