import Mathlib

/-! Tables as lists of rows, one column of which is the key: lookups by the key,
updates of the rows of one key, and rows added under a new key. -/
namespace LandRecords.Rows

variable {R K C : Type*} {key : R → K} {column : R → C} {update : R → R}
variable {rows : List R} {row : R} {k id : K}

theorem nodup_append_row (hkeys : (rows.map key).Nodup) (hfresh : key row ∉ rows.map key) :
    ((rows ++ [row]).map key).Nodup := by
  rw [List.map_append, List.map_singleton]
  exact List.Nodup.append hkeys (List.nodup_singleton _) (List.disjoint_singleton.mpr hfresh)

variable [DecidableEq K]

/-- The rows of the key are updated, the others are left alone. -/
def updateAt (key : R → K) (k : K) (update : R → R) (rows : List R) : List R :=
  rows.map fun row => if key row = k then update row else row

theorem find?_key (h : (rows.find? fun row => key row = id) = some row) : key row = id := by
  have hfound := List.find?_some h
  exact of_decide_eq_true hfound

theorem find?_of_mem (hkeys : (rows.map key).Nodup) (hrow : row ∈ rows) :
    (rows.find? fun other => key other = key row) = some row := by
  cases hfound : rows.find? fun other => key other = key row with
  | none => exact absurd rfl (of_decide_eq_false (Bool.not_eq_true _ ▸ List.find?_eq_none.mp hfound row hrow))
  | some other =>
    rw [List.inj_on_of_nodup_map hkeys (List.mem_of_find?_eq_some hfound) hrow (find?_key hfound)]

theorem find?_map_key (hkey : ∀ row, key (update row) = key row) (rows : List R) (id : K) :
    ((rows.map update).find? fun row => key row = id) =
      (rows.find? fun row => key row = id).map update := by
  rw [List.find?_map]
  congr 2
  funext row
  exact congrArg (fun found => decide (found = id)) (hkey row)

theorem updateAt_column (hcolumn : ∀ row, column (update row) = column row) (row : R) :
    column (if key row = k then update row else row) = column row := by
  split
  · exact hcolumn row
  · rfl

theorem map_updateAt (hcolumn : ∀ row, column (update row) = column row) (rows : List R) :
    (updateAt key k update rows).map column = rows.map column := by
  unfold updateAt
  rw [List.map_map]
  apply List.map_congr_left
  intro row _
  exact updateAt_column hcolumn row

theorem filter_updateAt {selects : R → Bool} (hselects : ∀ row, selects (update row) = selects row)
    (rows : List R) : (updateAt key k update rows).filter selects =
      updateAt key k update (rows.filter selects) := by
  unfold updateAt
  rw [List.filter_map]
  congr 1
  apply List.filter_congr
  intro row _
  exact updateAt_column hselects row

theorem find?_updateAt (hkey : ∀ row, key (update row) = key row) (rows : List R) (k id : K) :
    ((updateAt key k update rows).find? fun row => key row = id) =
      (rows.find? fun row => key row = id).map fun row =>
        if key row = k then update row else row :=
  find?_map_key (updateAt_column hkey) rows id

theorem updateAt_of_notMem (h : k ∉ rows.map key) : updateAt key k update rows = rows := by
  unfold updateAt
  conv_rhs => rw [← List.map_id rows]
  apply List.map_congr_left
  intro row hrow
  have hother : key row ≠ k := by
    rintro rfl
    exact h (List.mem_map_of_mem hrow)
  exact if_neg hother

theorem mem_updateAt {after : R} (hkeys : (rows.map key).Nodup) (hrow : row ∈ rows)
    (hafter : after ∈ updateAt key (key row) update rows) : after ∈ rows ∨ after = update row := by
  obtain ⟨before, hbefore, rfl⟩ := List.mem_map.mp hafter
  by_cases hown : key before = key row
  · rw [if_pos hown, List.inj_on_of_nodup_map hkeys hbefore hrow hown]
    exact .inr rfl
  · rw [if_neg hown]
    exact .inl hbefore

theorem mem_updateAt_self (hrow : row ∈ rows) : update row ∈ updateAt key (key row) update rows :=
  List.mem_map.mpr ⟨row, hrow, if_pos rfl⟩

theorem mem_updateAt_other {other : R} (hkeys : (rows.map key).Nodup) (hrow : row ∈ rows)
    (hother : other ∈ rows) (hne : other ≠ row) : other ∈ updateAt key (key row) update rows := by
  have hkey : key other ≠ key row := fun hsame =>
    hne (List.inj_on_of_nodup_map hkeys hother hrow hsame)
  exact List.mem_map.mpr ⟨other, hother, if_neg hkey⟩

theorem filter_key (hkeys : (rows.map key).Nodup) (hrow : row ∈ rows) :
    (rows.filter fun other => key row = key other) = [row] := by
  obtain ⟨before, after, rfl⟩ := List.append_of_mem hrow
  rw [List.map_append, List.map_cons, List.nodup_middle, List.nodup_cons, ← List.map_append] at hkeys
  have hothers : (before ++ after).filter (fun other => key row = key other) = [] := by
    apply List.filter_eq_nil_iff.mpr
    intro other hother hsame
    exact hkeys.1 (List.mem_map.mpr ⟨other, hother, (of_decide_eq_true hsame).symm⟩)
  rw [List.filter_append, List.append_eq_nil_iff] at hothers
  rw [List.filter_append, List.filter_cons, if_pos (decide_eq_true rfl), hothers.1, hothers.2,
    List.nil_append]

theorem length_filter_paired {O : Type*} {link : O → K} {others : List O}
    (hkeys : (rows.map key).Nodup) (hpaired : others.map link = rows.map key) (hrow : row ∈ rows) :
    (others.filter fun other => link other = key row).length = 1 := by
  have hlinks : (others.filter fun other => link other = key row).map link = [key row] := by
    calc (others.filter fun other => link other = key row).map link
        = (others.map link).filter (fun k => k = key row) := by
          rw [List.filter_map]
          rfl
      _ = (rows.filter fun other => key row = key other).map key := by
          rw [hpaired, List.filter_map]
          apply congrArg
          apply List.filter_congr
          exact fun other _ => decide_eq_decide.mpr eq_comm
      _ = [key row] := by
          rw [filter_key hkeys hrow, List.map_singleton]
  have hlength := congrArg List.length hlinks
  rwa [List.length_map] at hlength

end LandRecords.Rows
