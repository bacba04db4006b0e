import LandRecords.Base.CollisionFree
import Mathlib

/-! Binary Merkle trees over an ordered list of leaves, folded level by level,
an odd level repeating its last node. Where the node hash has no collision on
the pairs that were hashed, the root determines the leaves of a tree of known
size. -/
namespace LandRecords.MerkleTree

variable {D : Type*} (node : D → D → D)

def padLevel (level : List D) : List D :=
  if level.length % 2 = 1 then level ++ level.getLast?.toList else level

def pairs : List D → List (D × D)
  | left :: right :: rest => (left, right) :: pairs rest
  | _ => []

def nextLevel (level : List D) : List D := (pairs (padLevel level)).map fun p => node p.1 p.2

/-- The level loop; a level at least halves, so its length is enough fuel. -/
def fold : Nat → List D → List D
  | 0, level => level
  | fuel + 1, level => if 1 < level.length then fold fuel (nextLevel node level) else level

def root (leaves : List D) : Option D := (fold node leaves.length leaves).head?

def inputs : Nat → List D → List (D × D)
  | 0, _ => []
  | fuel + 1, level =>
      if 1 < level.length then pairs (padLevel level) ++ inputs fuel (nextLevel node level) else []

theorem length_padLevel (level : List D) :
    (padLevel level).length = 2 * ((level.length + 1) / 2) := by
  unfold padLevel
  cases level using List.reverseRecOn with
  | nil => simp
  | append_singleton level last =>
    split
    · rw [List.getLast?_concat]
      simp only [List.length_append, Option.toList_some, List.length_singleton] at *
      omega
    · omega

theorem length_pairs : ∀ level : List D, (pairs level).length = level.length / 2
  | [] => by simp [pairs]
  | [_] => by simp [pairs]
  | _ :: _ :: rest => by
      simp only [pairs, List.length_cons, length_pairs rest]
      omega

@[simp] theorem length_nextLevel (level : List D) :
    (nextLevel node level).length = (level.length + 1) / 2 := by
  rw [nextLevel, List.length_map, length_pairs, length_padLevel]
  omega

theorem pairs_inj : ∀ {xs ys : List D}, xs.length % 2 = 0 → ys.length % 2 = 0 →
    pairs xs = pairs ys → xs = ys
  | [], [], _, _, _ => rfl
  | [_], _, hx, _, _ => by simp at hx
  | _, [_], _, hy, _ => by simp at hy
  | [], _ :: _ :: _, _, _, h => by simp [pairs] at h
  | _ :: _ :: _, [], _, _, h => by simp [pairs] at h
  | a :: b :: xs, c :: d :: ys, hx, hy, h => by
      obtain ⟨hhead, htail⟩ := List.cons.inj h
      obtain ⟨rfl, rfl⟩ := Prod.mk.inj hhead
      simp only [List.length_cons] at hx hy
      rw [pairs_inj (by omega) (by omega) htail]

theorem padLevel_inj {xs ys : List D} (hlength : xs.length = ys.length)
    (h : padLevel xs = padLevel ys) : xs = ys := by
  unfold padLevel at h
  rw [hlength] at h
  split at h
  · exact (List.append_inj h hlength).1
  · exact h

theorem padLevel_forall {P : D → Prop} {level : List D} (h : ∀ d ∈ level, P d) :
    ∀ d ∈ padLevel level, P d := by
  unfold padLevel
  split
  · intro d hd
    rcases List.mem_append.mp hd with hlevel | hlast
    · exact h d hlevel
    · exact h d (List.mem_of_mem_getLast? (Option.mem_toList.mp hlast))
  · exact h

theorem pairs_forall {P : D → Prop} :
    ∀ {level : List D}, (∀ d ∈ level, P d) → ∀ p ∈ pairs level, P p.1 ∧ P p.2
  | [], _ => by simp [pairs]
  | [_], _ => by simp [pairs]
  | left :: right :: rest, h => by
      simp only [List.forall_mem_cons, pairs] at h ⊢
      exact ⟨⟨h.1, h.2.1⟩, pairs_forall h.2.2⟩

variable {node}

theorem fold_inj {fuel : Nat} {xs ys : List D} (hlength : xs.length = ys.length)
    (hnode : CollisionFree (fun p : D × D => node p.1 p.2)
      (inputs node fuel xs ++ inputs node fuel ys))
    (h : fold node fuel xs = fold node fuel ys) : xs = ys := by
  induction fuel generalizing xs ys with
  | zero => exact h
  | succ fuel ih =>
    simp only [fold, inputs, hlength] at h hnode
    split at h
    · rename_i hlong
      rw [if_pos hlong, if_pos hlong] at hnode
      have hlevel := ih (by simp [hlength])
        (hnode.mono (by intro p hp; simp at hp ⊢; tauto)) h
      have hpairs := CollisionFree.map_eq (hnode.mono (by intro p hp; simp at hp ⊢; tauto)) hlevel
      exact padLevel_inj hlength
        (pairs_inj (by rw [length_padLevel]; omega) (by rw [length_padLevel]; omega) hpairs)
    · exact h

theorem inputs_forall {P : D → Prop} (hnode : ∀ left right, P (node left right)) {fuel : Nat}
    {level : List D} (hlevel : ∀ d ∈ level, P d) :
    ∀ p ∈ inputs node fuel level, P p.1 ∧ P p.2 := by
  induction fuel generalizing level with
  | zero => simp [inputs]
  | succ fuel ih =>
    simp only [inputs]
    split
    · intro p hp
      rcases List.mem_append.mp hp with hhere | hrest
      · exact pairs_forall (padLevel_forall hlevel) p hhere
      · refine ih (fun d hd => ?_) p hrest
        obtain ⟨q, -, rfl⟩ := List.mem_map.mp hd
        exact hnode q.1 q.2
    · simp

theorem length_fold (node : D → D → D) {fuel : Nat} {level : List D} (hpos : 0 < level.length)
    (hfuel : level.length ≤ fuel + 1) : (fold node fuel level).length = 1 := by
  induction fuel generalizing level with
  | zero => simp only [fold]; omega
  | succ fuel ih =>
    simp only [fold]
    split
    · exact ih (by simp; omega) (by simp; omega)
    · omega

theorem root_inj {xs ys : List D} (hlength : xs.length = ys.length)
    (hnode : CollisionFree (fun p : D × D => node p.1 p.2)
      (inputs node xs.length xs ++ inputs node ys.length ys))
    (h : root node xs = root node ys) : xs = ys := by
  rcases Nat.eq_zero_or_pos xs.length with hzero | hpos
  · have hyzero : ys.length = 0 := hlength ▸ hzero
    rw [List.length_eq_zero_iff.mp hzero, List.length_eq_zero_iff.mp hyzero]
  · obtain ⟨a, ha⟩ := List.length_eq_one_iff.mp
      (length_fold node hpos (Nat.le_succ xs.length))
    obtain ⟨b, hb⟩ := List.length_eq_one_iff.mp
      (length_fold node (hlength ▸ hpos) (Nat.le_succ ys.length))
    rw [root, root, ha, hb] at h
    obtain rfl := Option.some.inj h
    rw [← hlength] at hb hnode
    exact fold_inj hlength hnode (ha.trans hb.symm)

theorem fold_forall {P : D → Prop} (hnode : ∀ left right, P (node left right)) {fuel : Nat}
    {level : List D} (hlevel : ∀ d ∈ level, P d) : ∀ d ∈ fold node fuel level, P d := by
  induction fuel generalizing level with
  | zero => exact hlevel
  | succ fuel ih =>
    simp only [fold]
    split
    · refine ih fun d hd => ?_
      obtain ⟨q, -, rfl⟩ := List.mem_map.mp hd
      exact hnode q.1 q.2
    · exact hlevel

theorem root_forall {P : D → Prop} (hnode : ∀ left right, P (node left right)) {leaves : List D}
    (hleaves : ∀ d ∈ leaves, P d) : ∀ d ∈ root node leaves, P d := fun d hd =>
  fold_forall hnode hleaves d (List.mem_of_mem_head? hd)

theorem root_isSome {leaves : List D} (h : leaves ≠ []) : (root node leaves).isSome := by
  have hpos := List.length_pos_iff.mpr h
  obtain ⟨a, ha⟩ := List.length_eq_one_iff.mp
    (length_fold node hpos (Nat.le_succ leaves.length))
  rw [root, ha]
  rfl

end LandRecords.MerkleTree
