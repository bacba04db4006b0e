import LandRecords.Base.CollisionFree
import Mathlib

/-! Hash-linked lists over arbitrary rows, digests and hashed materials. A list
is linked when each row stores the digest of the row before it and a digest of
its own material. Where the hash has no collision on the materials at hand, the
last digest of a linked list determines everything before it. -/
namespace LandRecords

structure ChainFormat (Row Digest Material : Type*) where
  prev : Row → Option Digest
  digest : Row → Digest
  material : Option Digest → Row → Material
  hash : Material → Digest
  /-- A material shows which digest it was chained from, if any. -/
  material_prev : ∀ {p q : Option Digest} {r s : Row}, (∀ d ∈ p, d ∈ Set.range hash) →
    (∀ d ∈ q, d ∈ Set.range hash) → material p r = material q s → p = q

namespace ChainFormat

variable {Row Digest Material : Type*} (F : ChainFormat Row Digest Material)

def Linked : Option Digest → List Row → Prop
  | _, [] => True
  | p, r :: rows => F.prev r = p ∧ F.digest r = F.hash (F.material p r) ∧
      Linked (some (F.digest r)) rows

def tip (p : Option Digest) : List Row → Option Digest
  | [] => p
  | r :: rows => tip (some (F.digest r)) rows

def materials : Option Digest → List Row → List Material
  | _, [] => []
  | p, r :: rows => F.material p r :: materials (some (F.digest r)) rows

def trace : Option Digest → List Row → List (Option Digest × Material × Digest)
  | _, [] => []
  | p, r :: rows => (F.prev r, F.material p r, F.digest r) :: trace (some (F.digest r)) rows

variable {F}

theorem tip_append (p : Option Digest) (xs ys : List Row) :
    F.tip p (xs ++ ys) = F.tip (F.tip p xs) ys := by
  induction xs generalizing p with
  | nil => rfl
  | cons r xs ih => exact ih _

theorem tip_concat (p : Option Digest) (xs : List Row) (r : Row) :
    F.tip p (xs ++ [r]) = some (F.digest r) := by
  rw [tip_append]
  rfl

theorem tip_eq_getLast? (xs : List Row) : F.tip none xs = xs.getLast?.map F.digest := by
  cases xs using List.reverseRecOn with
  | nil => rfl
  | append_singleton xs r => rw [tip_concat, List.getLast?_concat]; rfl

theorem linked_append {p : Option Digest} {xs ys : List Row} :
    F.Linked p (xs ++ ys) ↔ F.Linked p xs ∧ F.Linked (F.tip p xs) ys := by
  induction xs generalizing p with
  | nil => simp [Linked, tip]
  | cons r xs ih => simp only [List.cons_append, Linked, tip, ih, and_assoc]

theorem materials_append (p : Option Digest) (xs ys : List Row) :
    F.materials p (xs ++ ys) = F.materials p xs ++ F.materials (F.tip p xs) ys := by
  induction xs generalizing p with
  | nil => rfl
  | cons r xs ih => simp only [List.cons_append, materials, tip, ih]

theorem trace_append (p : Option Digest) (xs ys : List Row) :
    F.trace p (xs ++ ys) = F.trace p xs ++ F.trace (F.tip p xs) ys := by
  induction xs generalizing p with
  | nil => rfl
  | cons r xs ih => simp only [List.cons_append, trace, tip, ih]

@[simp] theorem length_trace (p : Option Digest) (xs : List Row) :
    (F.trace p xs).length = xs.length := by
  induction xs generalizing p with
  | nil => rfl
  | cons r xs ih => simp only [trace, List.length_cons, ih]

theorem Linked.tip_mem_range {xs : List Row} (h : F.Linked none xs) :
    ∀ d ∈ F.tip none xs, d ∈ Set.range F.hash := by
  cases xs using List.reverseRecOn with
  | nil => intro d hd; simp [tip] at hd
  | append_singleton xs r =>
    intro d hd
    rw [tip_concat] at hd
    obtain rfl := Option.some.inj hd
    exact ⟨_, (linked_append.mp h).2.2.1.symm⟩

theorem Linked.trace_eq_map {p : Option Digest} {xs : List Row} (h : F.Linked p xs) :
    F.trace p xs = xs.map fun r => (F.prev r, F.material (F.prev r) r, F.digest r) := by
  induction xs generalizing p with
  | nil => rfl
  | cons r xs ih =>
    obtain ⟨hprev, -, hrest⟩ := h
    rw [trace, List.map_cons, ih hrest, hprev]

theorem Linked.materials_eq_map {p : Option Digest} {xs : List Row} (h : F.Linked p xs) :
    F.materials p xs = xs.map fun r => F.material (F.prev r) r := by
  induction xs generalizing p with
  | nil => rfl
  | cons r xs ih =>
    obtain ⟨hprev, -, hrest⟩ := h
    rw [materials, List.map_cons, ih hrest, hprev]

/-- The last digest pins the whole list: two linked lists that end in the same
digest commit to the same rows. -/
theorem Linked.trace_eq {xs ys : List Row} (hx : F.Linked none xs) (hy : F.Linked none ys)
    (hfree : CollisionFree F.hash (F.materials none xs ++ F.materials none ys))
    (htip : F.tip none xs = F.tip none ys) : F.trace none xs = F.trace none ys := by
  induction xs using List.reverseRecOn generalizing ys with
  | nil =>
    cases ys using List.reverseRecOn with
    | nil => rfl
    | append_singleton ys b => rw [tip_concat] at htip; simp [tip] at htip
  | append_singleton xs a ih =>
    cases ys using List.reverseRecOn with
    | nil => rw [tip_concat] at htip; simp [tip] at htip
    | append_singleton ys b =>
      obtain ⟨hxs, haprev, hahash, -⟩ := linked_append.mp hx
      obtain ⟨hys, hbprev, hbhash, -⟩ := linked_append.mp hy
      rw [tip_concat, tip_concat] at htip
      have hdigest := Option.some.inj htip
      have hmaterial : F.material (F.tip none xs) a = F.material (F.tip none ys) b := by
        apply hfree
        · simp [materials_append, materials]
        · simp [materials_append, materials]
        · rw [← hahash, ← hbhash, hdigest]
      have hprev := F.material_prev hxs.tip_mem_range hys.tip_mem_range hmaterial
      have hsub : F.materials none xs ++ F.materials none ys ⊆
          F.materials none (xs ++ [a]) ++ F.materials none (ys ++ [b]) := by
        intro m hm
        simp only [materials_append, List.mem_append] at hm ⊢
        tauto
      have hrest := ih hxs hys (hfree.mono hsub) hprev
      simp only [trace_append, trace, hrest, haprev, hbprev, hprev, hdigest]
      rw [← hprev, hmaterial, hprev]

theorem Linked.nodup_digest {xs : List Row} (h : F.Linked none xs)
    (hfree : CollisionFree F.hash (F.materials none xs)) : (xs.map F.digest).Nodup := by
  induction xs using List.reverseRecOn with
  | nil => exact List.nodup_nil
  | append_singleton xs b ih =>
    have hxs := (linked_append.mp h).1
    have hnodup := ih hxs (hfree.mono (by simp [materials_append]))
    rw [List.map_append, List.map_singleton]
    refine hnodup.append (List.nodup_singleton _) ?_
    rw [List.disjoint_singleton]
    intro hb
    -- a repeated digest would make a proper prefix commit to the whole list
    obtain ⟨a, ha, hab⟩ := List.mem_map.mp hb
    obtain ⟨left, right, rfl⟩ := List.append_of_mem ha
    have hsplit : left ++ a :: right = (left ++ [a]) ++ right := by simp
    rw [hsplit] at hxs hfree h
    have hsub : F.materials none (left ++ [a]) ++ F.materials none (left ++ [a] ++ right ++ [b]) ⊆
        F.materials none (left ++ [a] ++ right ++ [b]) := by
      intro m hm
      rw [materials_append none (left ++ [a] ++ right), materials_append none (left ++ [a])] at hm ⊢
      simp only [List.mem_append] at hm ⊢
      tauto
    have htrace := (linked_append.mp hxs).1.trace_eq h (hfree.mono hsub)
      (by rw [tip_concat, tip_concat, hab])
    have hlength := congrArg List.length htrace
    simp only [length_trace, List.length_append, List.length_singleton] at hlength
    omega

theorem Linked.prev_mem {p : Option Digest} {xs : List Row} {r : Row} (h : F.Linked p xs)
    (hr : r ∈ xs) : F.prev r = p ∨ ∃ d ∈ xs.map F.digest, F.prev r = some d := by
  obtain ⟨left, right, rfl⟩ := List.append_of_mem hr
  have hlink := (linked_append.mp h).2.1
  cases left using List.reverseRecOn with
  | nil => exact Or.inl hlink
  | append_singleton left a =>
    rw [tip_concat] at hlink
    exact Or.inr ⟨F.digest a, by simp, hlink⟩

theorem Linked.nodup_prev_of_fresh {p : Option Digest} {xs : List Row} (h : F.Linked p xs)
    (hdigest : (xs.map F.digest).Nodup) (hfresh : ∀ d ∈ p, d ∉ xs.map F.digest) :
    (xs.map F.prev).Nodup := by
  induction xs generalizing p with
  | nil => exact List.nodup_nil
  | cons a xs ih =>
    obtain ⟨haprev, -, hrest⟩ := h
    rw [List.map_cons, List.nodup_cons] at hdigest
    rw [List.map_cons, List.nodup_cons]
    refine ⟨?_, ih hrest hdigest.2 (by simpa using hdigest.1)⟩
    intro hmem
    obtain ⟨r, hr, hrprev⟩ := List.mem_map.mp hmem
    rw [haprev] at hrprev
    rcases hrest.prev_mem hr with hlink | ⟨d, hd, hlink⟩
    · exact hfresh _ (hrprev.symm.trans hlink) (List.mem_cons_self ..)
    · exact hfresh d (hrprev.symm.trans hlink) (List.mem_cons_of_mem _ hd)

theorem Linked.nodup_prev {xs : List Row} (h : F.Linked none xs)
    (hdigest : (xs.map F.digest).Nodup) : (xs.map F.prev).Nodup :=
  h.nodup_prev_of_fresh hdigest (by simp)

theorem Linked.head_eq {p : Option Digest} {xs : List Row} {a : Row} (h : F.Linked p xs)
    (ha : a ∈ xs) (hprev : F.prev a = p) (hfresh : ∀ d ∈ p, d ∉ xs.map F.digest) :
    ∃ rest, xs = a :: rest := by
  obtain ⟨left, right, rfl⟩ := List.append_of_mem ha
  have hlink := (linked_append.mp h).2.1
  cases left using List.reverseRecOn with
  | nil => exact ⟨right, rfl⟩
  | append_singleton left b =>
    rw [tip_concat, hprev] at hlink
    exact absurd (by simp) (hfresh (F.digest b) hlink)

/-- Only the last row of a linked list can be chained from without a fork. -/
theorem Linked.eq_getLast?_of_fresh {xs : List Row} {head : Option Row} (h : F.Linked none xs)
    (hhead : ∀ r ∈ head, r ∈ xs) (hfresh : head.map F.digest ∉ xs.map F.prev) :
    head = xs.getLast? := by
  cases head with
  | none =>
    cases xs with
    | nil => rfl
    | cons a xs =>
      have hfirst : F.prev a = none := h.1
      exact absurd (by simp [hfirst]) hfresh
  | some r =>
    obtain ⟨left, right, rfl⟩ := List.append_of_mem (hhead r rfl)
    cases right with
    | nil => rw [List.getLast?_concat]
    | cons next right =>
      have hnext : F.prev next = some (F.digest r) := (linked_append.mp h).2.2.2.1
      exact absurd (by simp [hnext]) hfresh

/-- A linked arrangement of the rows of another linked list keeps their order,
as far as that list goes. -/
theorem Linked.keeps_order {p : Option Digest} {pre rest xs : List Row} (hpre : F.Linked p pre)
    (h : F.Linked p xs) (hperm : xs.Perm (pre ++ rest)) (hnodup : (xs.map F.digest).Nodup)
    (hfresh : ∀ d ∈ p, d ∉ xs.map F.digest) :
    ∃ ys, xs = pre ++ ys ∧ ys.Perm rest ∧ F.Linked (F.tip p pre) ys ∧
      ∀ d ∈ F.tip p pre, d ∉ ys.map F.digest := by
  induction pre generalizing p xs with
  | nil => exact ⟨xs, rfl, hperm, h, hfresh⟩
  | cons a pre ih =>
    obtain ⟨tail, rfl⟩ := h.head_eq (hperm.mem_iff.mpr (by simp)) hpre.1 hfresh
    rw [List.map_cons, List.nodup_cons] at hnodup
    obtain ⟨ys, rfl, hys⟩ := ih hpre.2.2 h.2.2 (List.Perm.cons_inv hperm) hnodup.2
      (by simpa using hnodup.1)
    exact ⟨ys, rfl, hys⟩

/-- A linked arrangement of a linked list with one row replaced is that list
with the row replaced in place, and the new row repeats the old one's link,
digest and material. -/
theorem Linked.replace {pre post xs : List Row} {r r' : Row}
    (h : F.Linked none (pre ++ r :: post)) (hxs : F.Linked none xs)
    (hperm : xs.Perm (pre ++ r' :: post))
    (hfree : CollisionFree F.hash (F.materials none (pre ++ r :: post) ++ F.materials none xs))
    (hlast : post = [] → F.digest r' = F.digest r) :
    xs = pre ++ r' :: post ∧ F.prev r' = F.prev r ∧ F.digest r' = F.digest r ∧
      F.material (F.prev r) r' = F.material (F.prev r) r := by
  have hnodup := h.nodup_digest (hfree.mono (List.subset_append_left _ _))
  have hnodup' := hxs.nodup_digest (hfree.mono (List.subset_append_right _ _))
  obtain ⟨hpre, hrprev, hrhash, hpost⟩ := linked_append.mp h
  obtain ⟨ys, rfl, hys, hlinked, hfresh⟩ :=
    hpre.keeps_order hxs hperm hnodup' (by simp)
  simp only [List.map_append, List.map_cons] at hnodup hnodup'
  have hdistinct := (List.nodup_append.mp hnodup)
  -- the rows after the replaced one are chained from later digests
  have hlater : ∀ q ∈ post, ∃ d ∈ F.digest r :: post.map F.digest, F.prev q = some d := by
    intro q hq
    rcases hpost.prev_mem hq with hlink | ⟨d, hd, hlink⟩
    · exact ⟨F.digest r, List.mem_cons_self .., hlink⟩
    · exact ⟨d, List.mem_cons_of_mem _ hd, hlink⟩
  cases ys with
  | nil => simp at hys
  | cons y ys =>
    have hy : y = r' := by
      rcases List.mem_cons.mp (hys.mem_iff.mp (List.mem_cons_self (a := y))) with hy | hy
      · exact hy
      · obtain ⟨d, hd, hlink⟩ := hlater y hy
        rw [hlinked.1] at hlink
        cases pre using List.reverseRecOn with
        | nil => simp [tip] at hlink
        | append_singleton pre b =>
          rw [tip_concat] at hlink
          have hb : F.digest b ∈ (pre ++ [b]).map F.digest := by simp
          rw [Option.some.inj hlink] at hb
          exact absurd rfl (hdistinct.2.2 d hb d hd)
    subst hy
    have hrest : ys.Perm post := List.Perm.cons_inv hys
    have hprev : F.prev y = F.prev r := by rw [hlinked.1, hrprev]
    have hdigest : F.digest y = F.digest r := by
      cases ys with
      | nil => exact hlast (List.Perm.nil_eq hrest).symm
      | cons z ys =>
        have hz : z ∈ post := hrest.mem_iff.mp (by simp)
        obtain ⟨d, hd, hlink⟩ := hlater z hz
        rw [hlinked.2.2.1] at hlink
        obtain rfl := Option.some.inj hlink
        rcases List.mem_cons.mp hd with heq | hmem
        · exact heq
        · have hmem' := (hrest.map F.digest).mem_iff.mpr hmem
          have hfreshy := (List.nodup_cons.mp (List.nodup_append.mp hnodup').2.1).1
          exact absurd hmem' hfreshy
    have htail : ys = post := by
      have htaillinked := hlinked.2.2
      rw [hdigest] at htaillinked
      have hperm' : ys.Perm (post ++ []) := by simpa using hrest
      have htailnodup := (List.nodup_append.mp hnodup').2.1
      rw [List.map_cons, List.nodup_cons, hdigest] at htailnodup
      obtain ⟨zs, hzs, hnil, -⟩ := hpost.keeps_order htaillinked hperm' htailnodup.2
        (by simpa using htailnodup.1)
      rw [hzs, List.Perm.eq_nil hnil, List.append_nil]
    subst htail
    refine ⟨rfl, hprev, hdigest, ?_⟩
    apply hfree
    · simp [materials_append, materials, hrprev]
    · simp [materials_append, materials, hrprev]
    · rw [hrprev, ← hrhash, ← hlinked.2.1, hdigest]

/-- Where two linked lists part, and the first row of the one is hashed from another material
than the first row of the other, no digest from there on is in the other list. -/
theorem Linked.digest_notMem_of_parted {kept as bs : List Row} {a : Row}
    (h : F.Linked none (kept ++ a :: as)) (h' : F.Linked none (kept ++ bs))
    (hfree : CollisionFree F.hash
      (F.materials none (kept ++ a :: as) ++ F.materials none (kept ++ bs)))
    (hparted : ∀ b ∈ bs.head?, F.material (F.tip none kept) b ≠ F.material (F.tip none kept) a) :
    ∀ r ∈ a :: as, F.digest r ∉ (kept ++ bs).map F.digest := by
  intro r hr hmem
  obtain ⟨s, hs, hdigest⟩ := List.mem_map.mp hmem
  obtain ⟨left, right, hxs⟩ := List.append_of_mem hr
  obtain ⟨left', right', hys⟩ := List.append_of_mem hs
  have hsplit : kept ++ a :: as = (kept ++ left ++ [r]) ++ right := by rw [hxs]; simp
  have hsplit' : kept ++ bs = (left' ++ [s]) ++ right' := by rw [hys]; simp
  -- the same digest commits to the same rows, the first ones after the parting included
  have htrace : F.trace none (kept ++ left ++ [r]) = F.trace none (left' ++ [s]) := by
    rw [hsplit] at h hfree
    rw [hsplit'] at h' hfree
    refine (linked_append.mp h).1.trace_eq (linked_append.mp h').1 (hfree.mono ?_)
      (by rw [tip_concat, tip_concat, hdigest])
    intro m hm
    rw [materials_append none (kept ++ left ++ [r]), materials_append none (left' ++ [s])]
    simp only [List.mem_append] at hm ⊢
    tauto
  have hlength := congrArg List.length htrace
  simp only [length_trace, List.length_append, List.length_singleton] at hlength
  obtain ⟨later, rfl⟩ : kept <+: left' := by
    refine List.prefix_of_prefix_length_le (List.prefix_append kept bs) ?_ (by omega)
    exact ⟨s :: right', by rw [hys]⟩
  rw [List.append_assoc kept left, List.append_assoc kept later, trace_append none kept,
    trace_append none kept] at htrace
  have hlater := List.append_cancel_left htrace
  have hbs : bs = later ++ s :: right' := by simpa using hys
  have hheads : ∃ b ∈ bs.head?, ∃ rest, later ++ [s] = b :: rest := by
    rw [hbs]
    cases later with
    | nil => exact ⟨s, rfl, [], rfl⟩
    | cons b later => exact ⟨b, rfl, later ++ [s], rfl⟩
  obtain ⟨b, hb, rest, hrest⟩ := hheads
  obtain ⟨rest', hrest'⟩ : ∃ rest, left ++ [r] = a :: rest := by
    cases left with
    | nil =>
      obtain ⟨rfl, -⟩ := List.cons.inj hxs
      exact ⟨[], rfl⟩
    | cons c left =>
      obtain ⟨rfl, -⟩ := List.cons.inj hxs
      exact ⟨left ++ [r], rfl⟩
  rw [hrest, hrest', trace, trace] at hlater
  have hfirst := (List.cons.inj hlater).1
  exact hparted b hb (congrArg (fun t => t.2.1) hfirst).symm

section Comap

variable {Row' : Type*} (f : Row' → Row)

def comap (F : ChainFormat Row Digest Material) : ChainFormat Row' Digest Material where
  prev := F.prev ∘ f
  digest := F.digest ∘ f
  material p := F.material p ∘ f
  hash := F.hash
  material_prev := F.material_prev

theorem linked_comap {p : Option Digest} {rows : List Row'} :
    (comap f F).Linked p rows ↔ F.Linked p (rows.map f) := by
  induction rows generalizing p with
  | nil => rfl
  | cons r rows ih => exact and_congr_right fun _ => and_congr_right fun _ => ih

theorem materials_comap (p : Option Digest) (rows : List Row') :
    (comap f F).materials p rows = F.materials p (rows.map f) := by
  induction rows generalizing p with
  | nil => rfl
  | cons r rows ih => exact congrArg (F.material p (f r) :: ·) (ih _)

theorem tip_comap (p : Option Digest) (rows : List Row') :
    (comap f F).tip p rows = F.tip p (rows.map f) := by
  induction rows generalizing p with
  | nil => rfl
  | cons r rows ih => exact ih _

theorem trace_comap (p : Option Digest) (rows : List Row') :
    (comap f F).trace p rows = F.trace p (rows.map f) := by
  induction rows generalizing p with
  | nil => rfl
  | cons r rows ih => exact congrArg ((F.prev (f r), F.material p (f r), F.digest (f r)) :: ·) (ih _)

end Comap

end ChainFormat

end LandRecords
