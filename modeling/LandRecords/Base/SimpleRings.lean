import LandRecords.Base.Separation
import Mathlib

/-! Simple rings: neighbouring edges share their common vertex only and other edges nothing. Two
points just beside a simple ring, on the same side of it, are joined by a path that avoids it. -/
namespace LandRecords.Rings

open EdgeSums Planar Filter Topology

variable {K : Type*} [Field K] [LinearOrder K]

/-- A ring read from any of its vertices on: its first edge meets the next one in their vertex
and none of the others but the last one. -/
structure SimpleRing (vertices : List (K × K)) : Prop where
  three_le : 3 ≤ vertices.length
  ne : ∀ {a b path}, a :: b :: path ~r vertices → a ≠ b
  corner : ∀ {a b c path}, a :: b :: c :: path ~r vertices →
    ∀ {s}, s ∈ segment K a b → s ∈ segment K b c → s = b
  apart : ∀ {a b c path}, a :: b :: c :: path ~r vertices →
    ∀ e ∈ edges (c :: path), Disjoint (segment K a b) (segment K e.1 e.2)

variable {a b c p q s : K × K} {path vertices vertices' : List (K × K)}

theorem SimpleRing.outer (hsimple : SimpleRing vertices) (h : a :: b :: c :: path ~r vertices)
    {e : (K × K) × (K × K)} (he : e ∈ edges (c :: path ++ [a])) (hs : s ∈ segment K e.1 e.2) :
    (s ∈ segment K a b → s = a) ∧ (s ∈ segment K b c → s = c) := by
  constructor
  · intro hab
    cases path using List.reverseRecOn with
    | nil =>
      obtain rfl : e = (c, a) := by simpa [edges] using he
      have hrotated : c :: a :: b :: [] ~r vertices :=
        (List.isRotated_concat c [a, b]).symm.trans h
      exact hsimple.corner hrotated hs hab
    | append_singleton path z =>
      have hsplit : c :: (path ++ [z]) ++ [a] = c :: path ++ z :: [a] := by simp
      rw [hsplit, edges_append, List.mem_append] at he
      rcases he with he | he
      · exact absurd hs (Set.disjoint_left.mp (hsimple.apart h e he) hab)
      · obtain rfl : e = (z, a) := by simpa [edges] using he
        have hrotated : z :: a :: b :: c :: path ~r vertices :=
          (List.isRotated_concat z (a :: b :: c :: path)).symm.trans h
        exact hsimple.corner hrotated hs hab
  · intro hbc
    have hrotated : b :: c :: (path ++ [a]) ~r vertices :=
      rotate_one h
    cases hpath : path ++ [a] with
    | nil => simp at hpath
    | cons d path' =>
      rw [List.cons_append, hpath, edges_cons_cons, List.mem_cons] at he
      rw [hpath] at hrotated
      rcases he with rfl | he
      · exact hsimple.corner hrotated hbc hs
      · exact absurd hs (Set.disjoint_left.mp (hsimple.apart hrotated e he) hbc)

theorem SimpleRing.first_of_mem (hsimple : SimpleRing vertices)
    (h : a :: b :: c :: path ~r vertices) {e : (K × K) × (K × K)}
    (he : e ∈ edges (b :: c :: path ++ [a])) (hs : s ∈ segment K a b)
    (hs' : s ∈ segment K e.1 e.2) : s = a ∨ s = b := by
  rw [List.cons_append, List.cons_append, edges_cons_cons, List.mem_cons] at he
  rcases he with rfl | he
  · exact .inr (hsimple.corner h hs hs')
  · exact .inl ((hsimple.outer h he hs').1 hs)

/-! ### Paths -/

def Avoids (vertices : List (K × K)) (p q : K × K) : Prop :=
  Disjoint (segment K p q) (onRing vertices)

def Joined (vertices : List (K × K)) : K × K → K × K → Prop :=
  Relation.ReflTransGen (Avoids vertices)

theorem Joined.symm (h : Joined vertices p q) : Joined vertices q p := by
  induction h with
  | refl => exact .refl
  | tail _ hlast ih => exact .head (by rwa [Avoids, segment_symm]) ih

/-! ### Along an edge -/

variable [IsStrictOrderedRing K] {σ : K} {x y : K × K}

theorem midpoint_sub (a b : K × K) : midpoint K a b - a = (2 : K)⁻¹ • (b - a) := by
  rw [midpoint_sub_left, invOf_eq_inv]

theorem notMem_segment_midpoint (h : a ≠ b) : a ∉ segment K b (midpoint K b a) := by
  rw [segment_eq_image']
  rintro ⟨t, ⟨-, ht⟩, ha⟩
  have hzero : (t * 2⁻¹ - 1) • (a - b) = 0 := by
    rw [sub_smul, one_smul, mul_smul, ← midpoint_sub, sub_eq_zero]
    exact eq_sub_of_add_eq' ha
  rcases smul_eq_zero.mp hzero with hweight | hsame
  · linarith
  · exact h (sub_eq_zero.mp hsame)

theorem segment_midpoint_subset (a b : K × K) : segment K b (midpoint K b a) ⊆ segment K a b := by
  rw [segment_symm K a b]
  exact (convex_segment b a).segment_subset (left_mem_segment K b a) (midpoint_mem_segment b a)

/-! ### A check -/

theorem eq_of_turn_ne_zero (hturn : turn a b c ≠ 0) (hab : s ∈ segment K a b)
    (hbc : s ∈ segment K b c) : s = b := by
  have hfirst : cross (b - a) (s - b) = 0 := by
    have hzero := turn_of_mem_segment hab
    rw [turn_eq_cross, ← sub_add_sub_cancel s b a, cross_add, cross_self, add_zero] at hzero
    exact hzero
  have hsecond : cross (c - b) (s - b) = 0 := by
    have hzero := turn_of_mem_segment hbc
    rwa [turn_eq_cross] at hzero
  have hcross : cross (b - a) (c - b) ≠ 0 := by
    rwa [turn_eq_cross, ← sub_add_sub_cancel c b a, cross_add, cross_self, add_zero] at hturn
  have hsum := cross_smul_eq (b - a) (c - b) (s - b)
  rw [cross_comm (c - b) (s - b), hfirst, hsecond, neg_zero, zero_smul, zero_smul, add_zero] at hsum
  exact sub_eq_zero.mp ((smul_eq_zero.mp hsum).resolve_left hcross)

theorem disjoint_of_turn_mul_pos (h : 0 < turn a b p * turn a b q) :
    Disjoint (segment K a b) (segment K p q) := by
  have hmove : ∀ v, turn a b v = cross (b - a) v - cross (b - a) a := 
    fun v => (turn_eq_cross a b v).trans (cross_sub _ _ _)
  have hline : cross (b - a) b = cross (b - a) a := by
    have hright := cross_right_eq 1 a b
    rwa [one_smul] at hright
  rw [disjoint_comm]
  rcases pos_and_pos_or_neg_and_neg_of_mul_pos h with ⟨hp, hq⟩ | ⟨hp, hq⟩
  · rw [hmove, sub_pos] at hp hq
    exact disjoint_of_line (b - a) _ hp hq le_rfl hline.le
  · rw [hmove, sub_neg] at hp hq
    refine disjoint_of_line (-(b - a)) (cross (-(b - a)) a) ?_ ?_ le_rfl ?_
    · rw [neg_cross, neg_cross]
      exact neg_lt_neg hp
    · rw [neg_cross, neg_cross]
      exact neg_lt_neg hq
    · rw [neg_cross, neg_cross, hline]

def firstEdgeApart : List (K × K) → Bool
  | a :: b :: c :: path =>
      decide (turn a b c ≠ 0) && (edges (c :: path)).all fun e =>
        decide (0 < turn a b e.1 * turn a b e.2) || decide (0 < turn e.1 e.2 a * turn e.1 e.2 b)
  | _ => false

def edgesApart (vertices : List (K × K)) : Bool :=
  ((List.range (vertices.length + 1)).map vertices.rotate).all firstEdgeApart

theorem simpleRing_of_edgesApart (hthree : 3 ≤ vertices.length) (h : edgesApart vertices = true) :
    SimpleRing vertices := by
  have hfirst : ∀ {a b c path}, a :: b :: c :: path ~r vertices → turn a b c ≠ 0 ∧
      ∀ e ∈ edges (c :: path),
        0 < turn a b e.1 * turn a b e.2 ∨ 0 < turn e.1 e.2 a * turn e.1 e.2 b := by
    intro a b c path hrotated
    have hcheck := List.all_eq_true.mp h _ (List.isRotated_iff_mem_map_range.mp hrotated.symm)
    simpa [firstEdgeApart] using hcheck
  constructor
  · exact hthree
  · intro a b path hrotated
    rw [← hrotated.perm.length_eq] at hthree
    cases path with
    | nil => simp at hthree
    | cons c path =>
      rintro rfl
      exact (hfirst hrotated).1 (by simp [turn])
  · intro a b c path hrotated s hab hbc
    exact eq_of_turn_ne_zero (hfirst hrotated).1 hab hbc
  · intro a b c path hrotated e he
    rcases (hfirst hrotated).2 e he with hside | hside
    · exact disjoint_of_turn_mul_pos hside
    · exact (disjoint_of_turn_mul_pos hside).symm

theorem lt_cross_add (hp : cross (b - a) (p - a) = 0) {t : K} (ht : 0 < t)
    (hx : 0 < σ * cross (b - a) x) : cross (σ • (b - a)) a < cross (σ • (b - a)) (p + t • x) := by
  have hline : cross (b - a) p = cross (b - a) a := by
    rwa [cross_sub, sub_eq_zero] at hp
  rw [smul_cross, smul_cross, cross_add, hline, cross_smul]
  nlinarith [mul_pos ht hx]

theorem disjoint_beside (hp : cross (b - a) (p - a) = 0) (hq : cross (b - a) (q - a) = 0) {t : K}
    (ht : 0 < t) (hx : 0 < σ * cross (b - a) x) (hy : 0 < σ * cross (b - a) y) :
    Disjoint (segment K (p + t • x) (q + t • y)) (segment K a b) :=
  disjoint_of_line _ _ (lt_cross_add hp ht hx) (lt_cross_add hq ht hy) le_rfl
    (cross_right_eq σ a b).le

theorem cross_midpoint (a b : K × K) : cross (b - a) (midpoint K a b - a) = 0 := by
  rw [midpoint_sub, cross_smul, cross_self, mul_zero]

theorem SimpleRing.forward (hsimple : SimpleRing vertices) (h : a :: b :: c :: path ~r vertices)
    (hstraight : cross (b - a) (c - b) = 0) : 0 < cross (c - b) (leftward (b - a)) := by
  have hnext : b :: c :: (path ++ [a]) ~r vertices :=
    rotate_one h
  have hab : b - a ≠ 0 := sub_ne_zero.mpr (hsimple.ne h).symm
  have hback : cross (b - a) (a - b) = 0 := by
    rw [← neg_sub, neg_cross, cross_self, neg_zero]
  have hlow : cross (leftward (b - a)) b < cross (leftward (b - a)) a := by
    have hpos := cross_leftward_pos hab
    rw [cross_comm, neg_pos, cross_sub, sub_neg] at hpos
    exact hpos
  by_contra hnot
  have hlow' : cross (leftward (b - a)) b ≤ cross (leftward (b - a)) c := by
    rw [cross_comm, neg_pos, not_lt, cross_sub, sub_nonneg] at hnot
    exact hnot
  rcases le_total (cross (leftward (b - a)) a) (cross (leftward (b - a)) c) with hle | hle
  · have hmem : a ∈ segment K b c := mem_segment_of_between hab hstraight hback
      ((min_le_left _ _).trans hlow.le) (hle.trans (le_max_right _ _))
    exact hsimple.ne h (hsimple.corner h (left_mem_segment K a b) hmem)
  · have hmem : c ∈ segment K b a := mem_segment_of_between hab hback hstraight
      ((min_le_left _ _).trans hlow') (hle.trans (le_max_right _ _))
    rw [segment_symm] at hmem
    exact hsimple.ne hnext (hsimple.corner h hmem (right_mem_segment K b c)).symm

theorem SimpleRing.exists_left (hsimple : SimpleRing vertices)
    (h : a :: b :: c :: path ~r vertices) :
    ∃ x, 0 < cross (b - a) x ∧ 0 < cross (c - b) x := by
  rcases lt_trichotomy (cross (b - a) (c - b)) 0 with hright | hstraight | hleft
  · refine ⟨(b - a) - (c - b), ?_, ?_⟩
    · rw [cross_sub, cross_self]
      linarith
    · rw [cross_sub, cross_self, cross_comm]
      linarith
  · exact ⟨leftward (b - a), cross_leftward_pos (sub_ne_zero.mpr (hsimple.ne h).symm),
      hsimple.forward h hstraight⟩
  · refine ⟨(c - b) - (b - a), ?_, ?_⟩
    · rw [cross_sub, cross_self]
      linarith
    · rw [cross_sub, cross_self, cross_comm]
      linarith

variable [TopologicalSpace K] [OrderTopology K]

omit [IsStrictOrderedRing K] [OrderTopology K] in
theorem eventually_disjoint_onRing {P Q : K → K × K}
    (h : ∀ e ∈ edges (closed vertices), ∀ᶠ t in 𝓝[>] (0 : K),
      Disjoint (segment K (P t) (Q t)) (segment K e.1 e.2)) :
    ∀ᶠ t in 𝓝[>] (0 : K), Disjoint (segment K (P t) (Q t)) (onRing vertices) := by
  filter_upwards [(eventually_all_finite (List.finite_toSet _)).mpr h] with t ht
  exact Set.disjoint_right.mpr fun s ⟨e, he, hs⟩ => Set.disjoint_right.mp (ht e he) hs

/-- Next to a corner, from the middle of one of its two edges: no vector that points to a side of
both edges leads across them. -/
theorem eventually_corner (hx : 0 < σ * cross (a - b) x) (hx' : σ * cross (c - b) x < 0)
    (hy : 0 < σ * cross (a - b) y) : ∀ᶠ t in 𝓝[>] (0 : K),
      Disjoint (segment K (b + t • x) (midpoint K b a + t • y)) (segment K b a) ∧
      Disjoint (segment K (b + t • x) (midpoint K b a + t • y)) (segment K b c) := by
  have hown : ∀ᶠ t in 𝓝[>] (0 : K),
      Disjoint (segment K (b + t • x) (midpoint K b a + t • y)) (segment K b a) := by
    filter_upwards [self_mem_nhdsWithin] with t ht
    exact disjoint_beside (cross_self_left b a) (cross_midpoint b a) ht hx hy
  have hother : ∀ᶠ t in 𝓝[>] (0 : K),
      Disjoint (segment K (b + t • x) (midpoint K b a + t • y)) (segment K b c) := by
    rcases le_or_gt (σ * cross (a - b) (c - b)) 0 with hright | hleft
    · -- the other edge is on the far side of the first one
      filter_upwards [self_mem_nhdsWithin] with t ht
      refine disjoint_of_line _ _ (lt_cross_add (cross_self_left b a) ht hx)
        (lt_cross_add (cross_midpoint b a) ht hy) le_rfl ?_
      rw [cross_sub, mul_sub] at hright
      rw [smul_cross, smul_cross]
      linarith
    · have hmiddle : cross (-σ • (c - b)) b < cross (-σ • (c - b)) (midpoint K b a) := by
        have hpos : 0 < cross (-σ • (c - b)) (midpoint K b a - b) := by
          rw [midpoint_sub, cross_smul, smul_cross, cross_comm]
          have hhalf : (0 : K) < 2⁻¹ := by positivity
          nlinarith [mul_pos hhalf hleft]
        rwa [cross_sub, sub_pos] at hpos
      filter_upwards [self_mem_nhdsWithin, eventually_lt_cross hmiddle y] with t ht hfar
      refine disjoint_of_line _ _ (lt_cross_add (cross_self_left b c) ht ?_) hfar le_rfl
        (cross_right_eq _ b c).le
      linarith
  exact hown.and hother

/-! ### Around the ring -/

/-- The point is joined to those just beside the middle of the edge, on the left where `σ` is
positive and on the right where it is negative. -/
def Beside (vertices : List (K × K)) (σ : K) (a b p : K × K) : Prop :=
  ∀ᶠ t in 𝓝[>] (0 : K), Joined vertices p (midpoint K a b + t • σ • leftward (b - a))

theorem SimpleRing.eventually_avoids (hsimple : SimpleRing vertices)
    (h : a :: b :: c :: path ~r vertices) (x y : K × K) :
    (∀ e ∈ edges (c :: path ++ [a]), ∀ᶠ t in 𝓝[>] (0 : K),
      Disjoint (segment K (b + t • x) (midpoint K b a + t • y)) (segment K e.1 e.2)) ∧
    ∀ e ∈ edges (c :: path ++ [a]), ∀ᶠ t in 𝓝[>] (0 : K),
      Disjoint (segment K (b + t • x) (midpoint K b c + t • y)) (segment K e.1 e.2) := by
  have hnext : b :: c :: (path ++ [a]) ~r vertices :=
    rotate_one h
  constructor
  · intro e he
    refine eventually_disjoint (Set.disjoint_left.mpr fun s hs hmem => ?_) x y
    have hsa := (hsimple.outer h he hmem).1 (segment_midpoint_subset a b hs)
    exact notMem_segment_midpoint (hsimple.ne h) (hsa ▸ hs)
  · intro e he
    refine eventually_disjoint (Set.disjoint_left.mpr fun s hs hmem => ?_) x y
    have hbc := segment_midpoint_subset c b hs
    rw [segment_symm] at hbc
    have hsc := (hsimple.outer h he hmem).2 hbc
    exact notMem_segment_midpoint (hsimple.ne hnext).symm (hsc ▸ hs)

theorem SimpleRing.eventually_joined (hsimple : SimpleRing vertices)
    (h : a :: b :: c :: path ~r vertices) (hσ : σ ≠ 0) : ∀ᶠ t in 𝓝[>] (0 : K),
      Joined vertices (midpoint K a b + t • σ • leftward (b - a))
        (midpoint K b c + t • σ • leftward (c - b)) := by
  obtain ⟨x, hab, hbc⟩ := hsimple.exists_left h
  have hsq : 0 < σ * σ := mul_self_pos.mpr hσ
  have hnext : b :: c :: (path ++ [a]) ~r vertices :=
    rotate_one h
  have hback : ∀ v, cross (a - b) v = -cross (b - a) v := by
    intro v
    rw [← neg_sub, neg_cross]
  have hleft : 0 < cross (b - a) (leftward (b - a)) :=
    cross_leftward_pos (sub_ne_zero.mpr (hsimple.ne h).symm)
  have hleft' : 0 < cross (c - b) (leftward (c - b)) :=
    cross_leftward_pos (sub_ne_zero.mpr (hsimple.ne hnext).symm)
  have hin := eventually_corner (a := a) (b := b) (c := c) (σ := -σ) (x := σ • x)
    (y := σ • leftward (b - a)) (by rw [hback, cross_smul]; nlinarith)
    (by rw [cross_smul]; nlinarith) (by rw [hback, cross_smul]; nlinarith)
  have hout := eventually_corner (a := c) (b := b) (c := a) (σ := σ) (x := σ • x)
    (y := σ • leftward (c - b)) (by rw [cross_smul]; nlinarith)
    (by rw [hback, cross_smul]; nlinarith) (by rw [cross_smul]; nlinarith)
  have hin' : ∀ᶠ t in 𝓝[>] (0 : K), Avoids vertices (b + t • σ • x)
      (midpoint K b a + t • σ • leftward (b - a)) := by
    refine eventually_disjoint_onRing fun e he => ?_
    rcases edge_cases h he with rfl | rfl | he
    · exact hin.mono fun t ht => by rw [segment_symm K a b]; exact ht.1
    · exact hin.mono fun t ht => ht.2
    · exact (hsimple.eventually_avoids h _ _).1 e he
  have hout' : ∀ᶠ t in 𝓝[>] (0 : K), Avoids vertices (b + t • σ • x)
      (midpoint K b c + t • σ • leftward (c - b)) := by
    refine eventually_disjoint_onRing fun e he => ?_
    rcases edge_cases h he with rfl | rfl | he
    · exact hout.mono fun t ht => by rw [segment_symm K a b]; exact ht.2
    · exact hout.mono fun t ht => ht.1
    · exact (hsimple.eventually_avoids h _ _).2 e he
  filter_upwards [hin', hout'] with t hfirst hsecond
  rw [midpoint_comm a b]
  exact (Joined.symm (.single hfirst)).trans (.single hsecond)

theorem SimpleRing.beside_rotate (hsimple : SimpleRing vertices) (hσ : σ ≠ 0) (n : ℕ)
    (h : a :: b :: path ~r vertices) (hp : Beside vertices σ a b p) {a' b' : K × K}
    {path' : List (K × K)} (hn : (a :: b :: path).rotate n = a' :: b' :: path') :
    Beside vertices σ a' b' p := by
  induction n generalizing a b path with
  | zero =>
    rw [List.rotate_zero, List.cons.injEq, List.cons.injEq] at hn
    obtain ⟨rfl, rfl, -⟩ := hn
    exact hp
  | succ n ih =>
    have hthree := hsimple.three_le
    rw [← h.perm.length_eq] at hthree
    cases path with
    | nil => simp at hthree
    | cons c path =>
      have hnext : b :: c :: (path ++ [a]) ~r vertices :=
        rotate_one h
      rw [List.rotate_cons_succ] at hn
      refine ih hnext ?_ hn
      filter_upwards [hp, hsimple.eventually_joined h hσ] with t hin hout
      exact hin.trans hout

/-- A point beside one edge is beside every edge, on the same side. -/
theorem SimpleRing.beside_of_beside (hsimple : SimpleRing vertices) (hσ : σ ≠ 0)
    (h : a :: b :: path ~r vertices) (hp : Beside vertices σ a b p) {a' b' : K × K}
    {path' : List (K × K)} (h' : a' :: b' :: path' ~r vertices) : Beside vertices σ a' b' p := by
  obtain ⟨n, hn⟩ := h.trans h'.symm
  exact hsimple.beside_rotate hσ n h hp hn

/-- Two points beside a simple ring on the same side of it are joined. -/
theorem SimpleRing.joined_of_beside (hsimple : SimpleRing vertices) (hσ : σ ≠ 0)
    (h : a :: b :: path ~r vertices) (hp : Beside vertices σ a b p) {a' b' : K × K}
    {path' : List (K × K)} (h' : a' :: b' :: path' ~r vertices)
    (hq : Beside vertices σ a' b' q) : Joined vertices p q := by
  obtain ⟨t, hpt, hqt⟩ := ((hsimple.beside_of_beside hσ h hp h').and hq).exists
  exact hpt.trans hqt.symm

end LandRecords.Rings
