import Mathlib

/-! Items collected under their keys, the keys in the order in which they come up. A loop opens
the bucket of a key at the first item that has it and changes it at each of them. -/
namespace LandRecords.Grouping

variable {α β κ : Type*} [BEq κ] {groups : List (κ × List α)} {buckets : List (κ × β)} {k key' : κ}
  {item : α} {bucket start : β} {change : β → β}

/-- `bucket = buckets.setdefault(key, start)`, and a change of the bucket. -/
def alter (key : κ) (start : β) (change : β → β) : List (κ × β) → List (κ × β)
  | [] => [(key, change start)]
  | (k, bucket) :: buckets =>
      if key == k then (k, change bucket) :: buckets
      else (k, bucket) :: alter key start change buckets

def bucketsOf (key : α → κ) (start : κ → β) (change : α → β → β) (items : List α) : List (κ × β) :=
  items.foldl (fun buckets item => alter (key item) (start (key item)) (change item) buckets) []

/-- `groups.setdefault(key, []).append(item)`. -/
def addTo (key : κ) (item : α) : List (κ × List α) → List (κ × List α)
  | [] => [(key, [item])]
  | (k, group) :: groups =>
      if key == k then (k, group ++ [item]) :: groups else (k, group) :: addTo key item groups

def groupsOf (key : α → κ) (items : List α) : List (κ × List α) :=
  items.foldl (fun groups item => addTo (key item) item groups) []

theorem groupsOf_concat (key : α → κ) (items : List α) (item : α) :
    groupsOf key (items ++ [item]) = addTo (key item) item (groupsOf key items) := by
  simp [groupsOf]

theorem bucketsOf_concat (key : α → κ) (start : κ → β) (change : α → β → β) (items : List α)
    (item : α) : bucketsOf key start change (items ++ [item]) =
      alter (key item) (start (key item)) (change item) (bucketsOf key start change items) := by
  simp [bucketsOf]

theorem addTo_eq_alter : addTo k item groups = alter k [] (· ++ [item]) groups := by
  induction groups with
  | nil => rfl
  | cons first groups ih => rw [addTo, alter, ih]

theorem groupsOf_eq_bucketsOf (key : α → κ) (items : List α) :
    groupsOf key items = bucketsOf key (fun _ => []) (fun item group => group ++ [item]) items := by
  simp only [groupsOf, bucketsOf, addTo_eq_alter]

theorem forall_alter {P : κ × β → Prop} (hopened : P (k, change start))
    (hkept : ∀ entry, P entry → P (entry.1, change entry.2)) (h : ∀ entry ∈ buckets, P entry) :
    ∀ entry ∈ alter k start change buckets, P entry := by
  induction buckets with
  | nil => simpa [alter] using hopened
  | cons first buckets ih =>
    rw [List.forall_mem_cons] at h
    rw [alter]
    split_ifs with heq
    · exact List.forall_mem_cons.mpr ⟨hkept first h.1, h.2⟩
    · exact List.forall_mem_cons.mpr ⟨h.1, ih h.2⟩

theorem forall_bucketsOf {key : α → κ} {start : κ → β} {change : α → β → β} {items : List α}
    {P : κ × β → Prop} (hstart : ∀ k, P (k, start k))
    (hkept : ∀ item entry, P entry → P (entry.1, change item entry.2)) :
    ∀ entry ∈ bucketsOf key start change items, P entry := by
  induction items using List.reverseRecOn with
  | nil => simp [bucketsOf]
  | append_singleton items item ih =>
    rw [bucketsOf_concat]
    exact forall_alter (hkept item _ (hstart _)) (hkept item) ih

theorem groupsOf_ne_nil {key : α → κ} {items : List α} :
    ∀ entry ∈ groupsOf key items, entry.2 ≠ [] := by
  induction items using List.reverseRecOn with
  | nil => simp [groupsOf]
  | append_singleton items item ih =>
    rw [groupsOf_concat, addTo_eq_alter]
    exact forall_alter (by simp) (by simp) ih

variable [LawfulBEq κ]

theorem lookup_alter_self :
    (alter k start change buckets).lookup k = some (change ((buckets.lookup k).getD start)) := by
  induction buckets with
  | nil => simp [alter]
  | cons entry buckets ih =>
    obtain ⟨other, bucket⟩ := entry
    by_cases heq : k = other
    · simp [alter, heq]
    · have hne : (k == other) = false := beq_false_of_ne heq
      simp only [alter, hne, Bool.false_eq_true, if_false, List.lookup_cons]
      exact ih

theorem lookup_alter_other (hne : k ≠ key') :
    (alter key' start change buckets).lookup k = buckets.lookup k := by
  induction buckets with
  | nil => simp [alter, hne]
  | cons entry buckets ih =>
    obtain ⟨other, bucket⟩ := entry
    by_cases heq : key' = other
    · subst heq
      simp [alter, List.lookup_cons, beq_false_of_ne hne]
    · have hother : (key' == other) = false := beq_false_of_ne heq
      simp only [alter, hother, Bool.false_eq_true, if_false, List.lookup_cons, ih]

theorem alter_keys_of_mem (h : key' ∈ buckets.map Prod.fst) :
    (alter key' start change buckets).map Prod.fst = buckets.map Prod.fst := by
  induction buckets with
  | nil => cases h
  | cons entry buckets ih =>
    by_cases heq : key' = entry.1
    · simp [alter, heq]
    · have hne : (key' == entry.1) = false := beq_false_of_ne heq
      have hrest := (List.mem_cons.mp h).resolve_left heq
      simp only [alter, hne, Bool.false_eq_true, if_false, List.map_cons, ih hrest]

theorem alter_keys_of_notMem (h : key' ∉ buckets.map Prod.fst) :
    (alter key' start change buckets).map Prod.fst = buckets.map Prod.fst ++ [key'] := by
  induction buckets with
  | nil => rfl
  | cons entry buckets ih =>
    rw [List.map_cons, List.mem_cons, not_or] at h
    have hne : (key' == entry.1) = false := beq_false_of_ne h.1
    simp only [alter, hne, Bool.false_eq_true, if_false, List.map_cons, ih h.2, List.cons_append]

theorem lookup_of_mem {entries : List (κ × β)} (hkeys : (entries.map Prod.fst).Nodup)
    {entry : κ × β} (h : entry ∈ entries) : entries.lookup entry.1 = some entry.2 := by
  induction entries with
  | nil => cases h
  | cons first rest ih =>
    rw [List.map_cons, List.nodup_cons] at hkeys
    cases List.mem_cons.mp h with
    | inl hfirst =>
      subst hfirst
      simp [List.lookup]
    | inr hrest =>
      have hne : entry.1 ≠ first.1 := by
        intro heq
        exact hkeys.1 (heq ▸ List.mem_map_of_mem hrest)
      obtain ⟨key, held⟩ := first
      rw [List.lookup, beq_eq_false_iff_ne.mpr hne]
      exact ih hkeys.2 hrest

theorem mem_of_lookup {entries : List (κ × β)} {key : κ} {value : β}
    (h : entries.lookup key = some value) : (key, value) ∈ entries := by
  obtain ⟨before, after, rfl, -⟩ := List.lookup_eq_some_iff.mp h
  simp

section Buckets

variable {key : α → κ} {start : κ → β} {change : α → β → β} {items : List α}

theorem mem_bucketsOf_keys :
    k ∈ (bucketsOf key start change items).map Prod.fst ↔ k ∈ items.map key := by
  induction items using List.reverseRecOn with
  | nil => rfl
  | append_singleton items item ih =>
    rw [bucketsOf_concat, List.map_append, List.mem_append, List.map_singleton, List.mem_singleton,
      ← ih]
    by_cases hmem : key item ∈ (bucketsOf key start change items).map Prod.fst
    · rw [alter_keys_of_mem hmem]
      exact (or_iff_left_of_imp fun hlast => hlast ▸ hmem).symm
    · rw [alter_keys_of_notMem hmem, List.mem_append, List.mem_singleton]

theorem bucketsOf_keys_pairwise {R : κ → κ → Prop}
    (h : items.Pairwise fun a b => R (key a) (key b)) :
    ((bucketsOf key start change items).map Prod.fst).Pairwise R := by
  induction items using List.reverseRecOn with
  | nil => exact .nil
  | append_singleton items item ih =>
    obtain ⟨hitems, -, hlast⟩ := List.pairwise_append.mp h
    rw [bucketsOf_concat]
    by_cases hmem : key item ∈ (bucketsOf key start change items).map Prod.fst
    · rw [alter_keys_of_mem hmem]
      exact ih hitems
    · rw [alter_keys_of_notMem hmem, List.pairwise_append]
      refine ⟨ih hitems, List.pairwise_singleton _ _, ?_⟩
      intro k hk last hkey
      obtain ⟨opener, hopener, hopens⟩ := List.mem_map.mp (mem_bucketsOf_keys.mp hk)
      rw [List.mem_singleton.mp hkey, ← hopens]
      exact hlast opener hopener item List.mem_cons_self

theorem bucketsOf_keys_nodup : ((bucketsOf key start change items).map Prod.fst).Nodup := by
  induction items using List.reverseRecOn with
  | nil => exact List.nodup_nil
  | append_singleton items item ih =>
    rw [bucketsOf_concat]
    by_cases hmem : key item ∈ (bucketsOf key start change items).map Prod.fst
    · rw [alter_keys_of_mem hmem]
      exact ih
    · rw [alter_keys_of_notMem hmem]
      exact List.nodup_append_comm.mp (List.nodup_cons.mpr ⟨hmem, ih⟩)

theorem lookup_bucketsOf_getD :
    ((bucketsOf key start change items).lookup k).getD (start k) =
      (items.filter fun item => key item == k).foldl (fun bucket item => change item bucket)
        (start k) := by
  induction items using List.reverseRecOn with
  | nil => rfl
  | append_singleton items item ih =>
    rw [bucketsOf_concat, List.filter_append, List.foldl_append, ← ih]
    by_cases heq : key item = k
    · simp [← heq, lookup_alter_self]
    · simp [lookup_alter_other (Ne.symm heq), heq]

theorem bucket_of_mem {entry : κ × β} (h : entry ∈ bucketsOf key start change items) :
    entry.2 = (items.filter fun item => key item == entry.1).foldl
      (fun bucket item => change item bucket) (start entry.1) := by
  rw [← lookup_bucketsOf_getD, lookup_of_mem bucketsOf_keys_nodup h, Option.getD_some]

end Buckets

variable {key : α → κ} {items : List α}

theorem mem_groupsOf_keys : k ∈ (groupsOf key items).map Prod.fst ↔ k ∈ items.map key := by
  rw [groupsOf_eq_bucketsOf, mem_bucketsOf_keys]

theorem groupsOf_keys_nodup : ((groupsOf key items).map Prod.fst).Nodup := by
  rw [groupsOf_eq_bucketsOf]
  exact bucketsOf_keys_nodup

theorem lookup_groupsOf_getD :
    ((groupsOf key items).lookup k).getD [] = items.filter fun item => key item == k := by
  have hbucket :
      ((bucketsOf key (fun _ => []) (fun item group => group ++ [item]) items).lookup k).getD [] =
        (items.filter fun item => key item == k).foldl (fun group item => group ++ [item]) [] :=
    lookup_bucketsOf_getD
  rw [groupsOf_eq_bucketsOf, hbucket]
  simp [← List.flatMap_def]

theorem group_of_mem {entry : κ × List α} (h : entry ∈ groupsOf key items) :
    entry.2 = items.filter fun item => key item == entry.1 := by
  rw [← lookup_groupsOf_getD, lookup_of_mem groupsOf_keys_nodup h, Option.getD_some]

theorem lookup_filter {entries : List (κ × β)} {p : κ × β → Bool}
    (h : (entries.map Prod.fst).Nodup) :
    (entries.filter p).lookup k = (entries.lookup k).filter fun value => p (k, value) := by
  induction entries with
  | nil => rfl
  | cons entry entries ih =>
    obtain ⟨key, value⟩ := entry
    rw [List.map_cons, List.nodup_cons] at h
    have hrest := ih h.2
    by_cases heq : k = key
    · have hnone : entries.lookup k = none := by
        rw [List.lookup_eq_none_iff]
        intro entry hentry
        rw [bne_iff_ne, heq]
        intro hsame
        exact h.1 (List.mem_map.mpr ⟨entry, hentry, hsame.symm⟩)
      subst heq
      cases hp : p (k, value) with
      | true => simp [hp, Option.filter]
      | false => simp [hp, hrest, hnone, Option.filter]
    · have hne : (k == key) = false := beq_false_of_ne heq
      cases hp : p (key, value) with
      | true => simp only [List.filter_cons, hp, if_true, List.lookup_cons, hne, hrest]
      | false =>
        simp only [List.filter_cons, hp, Bool.false_eq_true, if_false, List.lookup_cons, hne, hrest]

omit [LawfulBEq κ] in
theorem lookup_map {γ : Type*} (f : β → γ) (entries : List (κ × β)) :
    (entries.map fun entry => (entry.1, f entry.2)).lookup k = (entries.lookup k).map f := by
  induction entries with
  | nil => rfl
  | cons entry entries ih =>
    obtain ⟨key, value⟩ := entry
    simp only [List.map_cons, List.lookup_cons, ih]
    cases k == key <;> rfl

end LandRecords.Grouping
