import Mathlib

/-! Ordered reads of a table: `ORDER BY key` in both directions and the first
row of the descending order. A table is a list of rows in no particular order;
where its keys are distinct, each read has a single possible answer. -/
namespace LandRecords

variable {α κ : Type*} [LinearOrder κ] (key : α → κ)

/-- `ORDER BY key ASC`. -/
def orderBy (rows : List α) : List α := rows.insertionSort (fun a b => key a ≤ key b)

/-- `ORDER BY key DESC`. -/
def orderByDesc (rows : List α) : List α := rows.insertionSort (fun a b => key b ≤ key a)

/-- `ORDER BY key DESC LIMIT 1`. -/
def latest (rows : List α) : Option α := (orderByDesc key rows).head?

theorem orderBy_perm (rows : List α) : (orderBy key rows).Perm rows := List.perm_insertionSort _ _

theorem orderByDesc_perm (rows : List α) : (orderByDesc key rows).Perm rows :=
  List.perm_insertionSort _ _

@[simp] theorem mem_orderBy {rows : List α} {a : α} : a ∈ orderBy key rows ↔ a ∈ rows :=
  (orderBy_perm key rows).mem_iff

private theorem leTrans : IsTrans α (fun a b => key a ≤ key b) := ⟨fun _ _ _ => le_trans⟩
private theorem leTotal : Std.Total (fun a b : α => key a ≤ key b) := ⟨fun a b => le_total (key a) (key b)⟩
private theorem geTrans : IsTrans α (fun a b => key b ≤ key a) := ⟨fun _ _ _ h h' => le_trans h' h⟩
private theorem geTotal : Std.Total (fun a b : α => key b ≤ key a) := ⟨fun a b => le_total (key b) (key a)⟩

theorem orderBy_sorted (rows : List α) : (orderBy key rows).Pairwise fun a b => key a ≤ key b :=
  haveI := leTrans key
  haveI := leTotal key
  List.pairwise_insertionSort _ rows

theorem orderByDesc_sorted (rows : List α) :
    (orderByDesc key rows).Pairwise fun a b => key b ≤ key a :=
  haveI := geTrans key
  haveI := geTotal key
  List.pairwise_insertionSort _ rows

variable {key}

theorem orderBy_map {change : α → α} (hkey : ∀ a, key (change a) = key a) (rows : List α) :
    orderBy key (rows.map change) = (orderBy key rows).map change := by
  refine (List.map_insertionSort _ _ change rows fun a _ b _ => ?_).symm
  rw [hkey, hkey]

theorem eq_orderBy {rows sorted : List α} (hkeys : (rows.map key).Nodup) (hperm : sorted.Perm rows)
    (hsorted : sorted.Pairwise fun a b => key a ≤ key b) : sorted = orderBy key rows := by
  refine List.Perm.eq_of_pairwise ?_ hsorted (orderBy_sorted key rows)
    (hperm.trans (orderBy_perm key rows).symm)
  intro a b ha hb hab hba
  exact List.inj_on_of_nodup_map hkeys (hperm.mem_iff.mp ha) ((mem_orderBy key).mp hb)
    (le_antisymm hab hba)

theorem orderBy_of_increasing {rows : List α} (h : rows.Pairwise fun a b => key a < key b) :
    orderBy key rows = rows :=
  haveI := leTrans key
  haveI := leTotal key
  List.Pairwise.insertionSort_eq (h.imp le_of_lt)

theorem orderBy_increasing {rows : List α} (hkeys : (rows.map key).Nodup) :
    (orderBy key rows).Pairwise fun a b => key a < key b := by
  have hnodup : ((orderBy key rows).map key).Nodup :=
    ((orderBy_perm key rows).map key).nodup_iff.mpr hkeys
  exact ((orderBy_sorted key rows).and (List.pairwise_map.mp hnodup)).imp
    fun ⟨hle, hne⟩ => lt_of_le_of_ne hle hne

theorem orderBy_congr {κ' : Type*} [LinearOrder κ'] {key' : α → κ'} {rows : List α}
    (h : rows.Pairwise fun a b => key a ≤ key b ↔ key' a ≤ key' b) :
    orderBy key rows = orderBy key' rows := by
  have hinsert : ∀ a (others : List α), (∀ b ∈ others, key a ≤ key b ↔ key' a ≤ key' b) →
      others.orderedInsert (fun a b => key a ≤ key b) a =
        others.orderedInsert (fun a b => key' a ≤ key' b) a := by
    intro a others hsame
    induction others with
    | nil => rfl
    | cons b others ih =>
      rw [List.forall_mem_cons] at hsame
      simp only [List.orderedInsert, hsame.1, ih hsame.2]
  induction rows with
  | nil => rfl
  | cons a rows ih =>
    rw [List.pairwise_cons] at h
    have hrest := ih h.2
    unfold orderBy at hrest ⊢
    rw [List.insertionSort_cons, List.insertionSort_cons, hrest]
    exact hinsert a _ fun b hb => h.1 b ((List.perm_insertionSort _ _).mem_iff.mp hb)

/-- The order of one key is increasing in another exactly when the two compare every row
alike with the rows after it. -/
theorem orderBy_increasing_iff {κ' : Type*} [LinearOrder κ'] {key' : α → κ'} {rows : List α}
    (hkeys : (rows.map key').Nodup) :
    (orderBy key rows).Pairwise (fun a b => key' a < key' b) ↔
      rows.Pairwise fun a b => key a ≤ key b ↔ key' a ≤ key' b := by
  constructor
  · intro h
    rw [List.pairwise_iff_forall_sublist] at h ⊢
    intro a b hab
    constructor
    · intro hle
      exact (h (List.pair_sublist_insertionSort hle hab)).le
    · intro hle
      by_contra hlt
      have hne : a ≠ b := by
        rintro rfl
        exact hlt le_rfl
      let parted := fun x y : α =>
        (key x ≤ key y ∧ key' x < key' y) ∨ (key y ≤ key x ∧ key' y < key' x)
      have hsymm : Std.Symm parted := ⟨fun _ _ => Or.symm⟩
      have hparted : (orderBy key rows).Pairwise parted :=
        ((orderBy_sorted key rows).and (List.pairwise_iff_forall_sublist.mpr h)).imp Or.inl
      have hmem : ∀ x ∈ [a, b], x ∈ orderBy key rows :=
        fun x hx => (mem_orderBy key).mpr (hab.subset hx)
      rcases hparted.forall (hmem a (by simp)) (hmem b (by simp)) hne with
        hforth | hback
      · exact hlt hforth.1
      · exact absurd hle (not_le_of_gt hback.2)
  · intro h
    rw [orderBy_congr h]
    exact orderBy_increasing hkeys

theorem latest_mem {rows : List α} {a : α} (h : latest key rows = some a) : a ∈ rows :=
  (orderByDesc_perm key rows).mem_iff.mp (List.mem_of_mem_head? h)

theorem latest_greatest {rows : List α} {a b : α} (h : latest key rows = some a) (hb : b ∈ rows) :
    key b ≤ key a := by
  unfold latest at h
  have hsorted := orderByDesc_sorted key rows
  have hmem := (orderByDesc_perm key rows).mem_iff.mpr hb
  cases hrows : orderByDesc key rows with
  | nil => simp [hrows] at h
  | cons first rest =>
    rw [hrows] at h hsorted hmem
    obtain rfl := Option.some.inj h
    rcases List.mem_cons.mp hmem with rfl | hrest
    · exact le_refl _
    · exact (List.pairwise_cons.mp hsorted).1 b hrest

@[simp] theorem latest_nil : latest key [] = none := rfl

theorem latest_eq_none {rows : List α} : latest key rows = none ↔ rows = [] := by
  rw [latest, List.head?_eq_none_iff]
  constructor
  · intro h
    exact (h ▸ orderByDesc_perm key rows).nil_eq.symm
  · rintro rfl
    rfl

theorem latest_eq_some {rows : List α} {a : α} (ha : a ∈ rows)
    (hgreatest : ∀ b ∈ rows, b = a ∨ key b < key a) : latest key rows = some a := by
  cases h : latest key rows with
  | none => rw [latest_eq_none.mp h] at ha; simp at ha
  | some b =>
    rcases hgreatest b (latest_mem h) with rfl | hlt
    · rfl
    · exact absurd (latest_greatest h ha) (not_le_of_gt hlt)

theorem latest_of_increasing {rows : List α} (h : rows.Pairwise fun a b => key a < key b) :
    latest key rows = rows.getLast? := by
  cases rows using List.reverseRecOn with
  | nil => rfl
  | append_singleton rows a =>
    rw [List.getLast?_concat]
    refine latest_eq_some (by simp) ?_
    intro b hb
    rcases List.mem_append.mp hb with hrow | hlast
    · exact Or.inr ((List.pairwise_append.mp h).2.2 b hrow a (by simp))
    · exact Or.inl (List.mem_singleton.mp hlast)

/-- The descending order starts where the ascending order ends. -/
theorem latest_eq_getLast? {rows : List α} (hkeys : (rows.map key).Nodup) :
    latest key rows = (orderBy key rows).getLast? := by
  rw [← latest_of_increasing (orderBy_increasing hkeys)]
  cases h : latest key rows with
  | none => rw [latest_eq_none.mp h]; rfl
  | some a =>
    refine (latest_eq_some ((mem_orderBy key).mpr (latest_mem h)) ?_).symm
    intro b hb
    have hb' := (mem_orderBy key).mp hb
    rcases eq_or_lt_of_le (latest_greatest h hb') with heq | hlt
    · exact Or.inl (List.inj_on_of_nodup_map hkeys hb' (latest_mem h) heq)
    · exact Or.inr hlt

theorem filter_mem_of_sublist [DecidableEq α] {kept rows : List α} (h : kept.Sublist rows)
    (hnodup : rows.Nodup) : rows.filter (fun a => a ∈ kept) = kept := by
  induction h with
  | slnil => rfl
  | cons a hkept ih =>
    rw [List.nodup_cons] at hnodup
    rw [List.filter_cons_of_neg (by simpa using fun hmem => hnodup.1 (hkept.subset hmem))]
    exact ih hnodup.2
  | cons_cons a hkept ih =>
    rw [List.nodup_cons] at hnodup
    rw [List.filter_cons_of_pos (by simp)]
    congr 1
    refine (List.filter_congr fun b hb => ?_).trans (ih hnodup.2)
    have hne : b ≠ a := by
      rintro rfl
      exact hnodup.1 hb
    simp [hne]

end LandRecords
