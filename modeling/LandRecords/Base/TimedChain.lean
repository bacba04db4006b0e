import LandRecords.Base.HashChain
import LandRecords.Base.OrderBy

/-! Chains whose predecessor is looked up by a key stored in the rows. Each new
row is chained from the row with the greatest key so far. The rows read back in
key order form a linked list exactly when they were appended in key order; the
rows that were the greatest when appended form one in any case. -/
namespace LandRecords.ChainFormat

variable {Row Digest Material κ : Type*} [LinearOrder κ]
variable (F : ChainFormat Row Digest Material) (key : Row → κ)

def Chained (p : Option Digest) (r : Row) : Prop :=
  F.prev r = p ∧ F.digest r = F.hash (F.material (F.prev r) r)

inductive Appended : List Row → Prop where
  | nil : Appended []
  | concat {rows : List Row} {r : Row} : Appended rows →
      F.Chained ((latest key rows).map F.digest) r → Appended (rows ++ [r])

def ownMaterials (rows : List Row) : List Material := rows.map fun r => F.material (F.prev r) r

/-- The rows that had the greatest key when they were appended. -/
def records (rows : List Row) : List Row :=
  rows.foldl (fun kept r => if ∀ a ∈ kept.getLast?, key a < key r then kept ++ [r] else kept) []

variable {F key}

theorem linked_concat {p : Option Digest} {rows : List Row} {r : Row} :
    F.Linked p (rows ++ [r]) ↔ F.Linked p rows ∧ F.Chained (F.tip p rows) r := by
  rw [linked_append]
  simp only [Linked, Chained, and_true]
  constructor
  · rintro ⟨h, hprev, hhash⟩
    exact ⟨h, hprev, by rw [hprev, hhash]⟩
  · rintro ⟨h, hprev, hhash⟩
    exact ⟨h, hprev, by rw [hhash, hprev]⟩

theorem Linked.materials_perm {rows xs : List Row} (h : F.Linked none xs) (hperm : xs.Perm rows) :
    F.materials none xs ⊆ F.ownMaterials rows := by
  rw [h.materials_eq_map]
  exact (hperm.map _).subset

theorem Appended.linked {rows : List Row} (h : F.Appended key rows)
    (hincreasing : rows.Pairwise fun a b => key a < key b) : F.Linked none rows := by
  induction h with
  | nil => trivial
  | concat hrows hlast ih =>
    have hinitial := (List.pairwise_append.mp hincreasing).1
    rw [latest_of_increasing hinitial, ← tip_eq_getLast?] at hlast
    exact linked_concat.mpr ⟨ih hinitial, hlast⟩

/-- If the key order of every prefix is a linked list, the rows were appended in
key order: a row that sorts before its predecessor breaks the walk. -/
theorem Appended.increasing {rows : List Row} (h : F.Appended key rows)
    (hkeys : (rows.map key).Nodup) (hfree : CollisionFree F.hash (F.ownMaterials rows))
    (hwalk : ∀ left, left <+: rows → F.Linked none (orderBy key left)) :
    rows.Pairwise fun a b => key a < key b := by
  induction h with
  | nil => exact List.Pairwise.nil
  | @concat rows r hrows hlast ih =>
    have hrowkeys : (rows.map key).Nodup :=
      hkeys.sublist ((List.sublist_append_left rows [r]).map key)
    have hinitial := ih hrowkeys (hfree.mono (by simp [ownMaterials]))
      fun left hleft => hwalk left (hleft.trans (List.prefix_append _ _))
    have hlinked := hrows.linked hinitial
    have hsorted := hwalk (rows ++ [r]) (List.prefix_refl _)
    have hperm := orderBy_perm key (rows ++ [r])
    have hnodup := hsorted.nodup_digest (hfree.mono (hsorted.materials_perm hperm))
    obtain ⟨rest, hrest, hsingle, -⟩ := hlinked.keeps_order hsorted hperm hnodup (by simp)
    rw [List.perm_singleton.mp hsingle] at hrest
    rw [← hrest]
    exact orderBy_increasing hkeys

theorem records_concat (rows : List Row) (r : Row) :
    records key (rows ++ [r]) =
      if ∀ a ∈ (records key rows).getLast?, key a < key r then records key rows ++ [r]
      else records key rows := by
  simp [records, List.foldl_append]

theorem records_sublist (rows : List Row) : (records key rows).Sublist rows := by
  induction rows using List.reverseRecOn with
  | nil => exact List.Sublist.refl _
  | append_singleton rows r ih =>
    rw [records_concat]
    split
    · exact ih.append (List.Sublist.refl _)
    · exact ih.trans (List.sublist_append_left _ _)

theorem records_getLast? {rows : List Row} (hkeys : (rows.map key).Nodup) :
    (records key rows).getLast? = latest key rows := by
  induction rows using List.reverseRecOn with
  | nil => rfl
  | append_singleton rows r ih =>
    have hrowkeys : (rows.map key).Nodup :=
      hkeys.sublist ((List.sublist_append_left rows [r]).map key)
    rw [records_concat, ih hrowkeys]
    split
    · rename_i hgreatest
      rw [List.getLast?_concat]
      refine (latest_eq_some (by simp) ?_).symm
      intro b hb
      rcases List.mem_append.mp hb with hrow | hlast
      · cases hlatest : latest key rows with
        | none => rw [latest_eq_none.mp hlatest] at hrow; simp at hrow
        | some a =>
          exact Or.inr (lt_of_le_of_lt (latest_greatest hlatest hrow) (hgreatest a hlatest))
      · exact Or.inl (List.mem_singleton.mp hlast)
    · rename_i hkept
      push Not at hkept
      obtain ⟨a, ha, hle⟩ := hkept
      have hmem := latest_mem ha
      have hne : key a ≠ key r := by
        rw [List.map_append, List.nodup_append] at hkeys
        exact hkeys.2.2 _ (List.mem_map_of_mem hmem) _ (by simp)
      rw [ih hrowkeys, ha]
      refine (latest_eq_some (List.mem_append_left _ hmem) ?_).symm
      intro b hb
      rcases List.mem_append.mp hb with hrow | hlast
      · rcases eq_or_lt_of_le (latest_greatest ha hrow) with heq | hlt
        · exact Or.inl (List.inj_on_of_nodup_map hrowkeys hrow hmem heq)
        · exact Or.inr hlt
      · rw [List.mem_singleton.mp hlast]
        exact Or.inr (lt_of_le_of_ne hle hne.symm)

theorem records_increasing (rows : List Row) :
    (records key rows).Pairwise fun a b => key a < key b := by
  induction rows using List.reverseRecOn with
  | nil => exact List.Pairwise.nil
  | append_singleton rows r ih =>
    rw [records_concat]
    split
    · rename_i hgreatest
      refine List.pairwise_append.mpr ⟨ih, List.pairwise_singleton _ _, ?_⟩
      intro a ha b hb
      rw [List.mem_singleton.mp hb]
      have hlatest := latest_of_increasing ih
      cases hlast : (records key rows).getLast? with
      | none => rw [List.getLast?_eq_none_iff.mp hlast] at ha; simp at ha
      | some last =>
        rw [hlast] at hlatest
        exact lt_of_le_of_lt (latest_greatest hlatest ha) (hgreatest last hlast)
    · exact ih

/-- Whatever the keys, the records of an appended list are linked. -/
theorem Appended.records_linked {rows : List Row} (h : F.Appended key rows)
    (hkeys : (rows.map key).Nodup) : F.Linked none (records key rows) := by
  induction h with
  | nil => trivial
  | @concat rows r hrows hlast ih =>
    have hrowkeys : (rows.map key).Nodup :=
      hkeys.sublist ((List.sublist_append_left rows [r]).map key)
    rw [records_concat]
    split
    · refine linked_concat.mpr ⟨ih hrowkeys, ?_⟩
      rw [tip_eq_getLast?, records_getLast? hrowkeys]
      exact hlast
    · exact ih hrowkeys

end LandRecords.ChainFormat
