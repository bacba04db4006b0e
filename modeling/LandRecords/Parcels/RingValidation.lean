import LandRecords.Base.RingArea
import LandRecords.Parcels.ClosedPolygon

/-! The two validations of a polygon ring. The pairwise test of edges counts the ends strictly to
the left of each other's lines, so it can miss edges that touch, in one direction of the ring. -/
namespace LandRecords.Parcels

open EdgeSums Planar Rings

variable {vertices vertices' coords : List Point}

/-! ## Edges that meet -/

/-- Exactly one of the two points is strictly to the left of the line, where `σ` is positive, or
to its right, where it is negative. -/
def Parts (σ : ℚ) (p q a b : Point) : Prop := ¬ (0 < σ * turn p q a ↔ 0 < σ * turn p q b)

def MeetOn (σ : ℚ) (e f : Point × Point) : Prop :=
  Parts σ e.1 e.2 f.1 f.2 ∧ Parts σ f.1 f.2 e.1 e.2

def CrossedOn (σ : ℚ) (vertices : List Point) : Prop :=
  ∃ a b c path, a :: b :: c :: path ~r vertices ∧
    ∃ e ∈ edges (c :: path), MeetOn σ (a, b) e

theorem MeetOn.symm {σ : ℚ} {e f : Point × Point} (h : MeetOn σ e f) : MeetOn σ f e := ⟨h.2, h.1⟩

theorem ccw_eq (a b c : Point) : Extract.ccw a b c = decide (0 < turn a b c) := by
  unfold Extract.ccw turn
  rw [decide_eq_decide, gt_iff_lt, ← sub_pos, mul_comm (c.2 - a.2)]

theorem parts_one_iff (p q a b : Point) :
    (decide (0 < turn p q a) != decide (0 < turn p q b)) = true ↔ Parts 1 p q a b := by
  rw [bne_iff_ne, ne_eq, decide_eq_decide, Parts, one_mul, one_mul]

theorem segmentsCross_iff (e f : Point × Point) :
    segmentsCross e.1 e.2 f.1 f.2 = true ↔ MeetOn 1 e f := by
  unfold segmentsCross Extract.segmentsCross MeetOn
  rw [ccw_eq, ccw_eq, ccw_eq, ccw_eq, turn_cycle e.1 f.1, turn_cycle e.2 f.1, Bool.and_eq_true,
    parts_one_iff, parts_one_iff, and_comm]

/-- The pairwise test finds the edges that meet on the left. -/
theorem isSelfIntersecting_iff (vertices : List Point) :
    isSelfIntersecting (closed vertices) = true ↔ CrossedOn 1 vertices := by
  have hlength : (closed vertices).length - 1 = vertices.length := by
    cases vertices <;> simp [closed]
  have hpairs := @exists_apart_iff Point (MeetOn 1) (fun e f => MeetOn.symm) vertices
  rw [CrossedOn, ← hpairs, isSelfIntersecting, hlength]
  constructor
  · intro h
    split at h
    · cases h
    · obtain ⟨⟨e, i⟩, he, h⟩ := List.any_eq_true.mp h
      obtain ⟨⟨f, j⟩, hf, h⟩ := List.any_eq_true.mp h
      rw [List.mem_zipIdx_iff_getElem?] at he hf
      simp only [Bool.and_eq_true, decide_eq_true_eq, Bool.not_eq_true', segmentsCross_iff,
        Bool.and_eq_false_iff, beq_eq_false_iff_ne] at h
      refine ⟨i, j, e, f, he, hf, h.1.1, by omega, h.2⟩
  · rintro ⟨i, j, e, f, he, hf, hij, hends, hmeet⟩
    have hj : j < vertices.length := by
      rw [← length_edges_closed]
      exact (List.getElem?_eq_some_iff.mp hf).1
    rw [if_neg (by omega), List.any_eq_true]
    refine ⟨(e, i), List.mem_zipIdx_iff_getElem?.mpr he, List.any_eq_true.mpr
      ⟨(f, j), List.mem_zipIdx_iff_getElem?.mpr hf, ?_⟩⟩
    simp only [Bool.and_eq_true, decide_eq_true_eq, Bool.not_eq_true', segmentsCross_iff,
      Bool.and_eq_false_iff, beq_eq_false_iff_ne]
    exact ⟨⟨hij, by omega⟩, hmeet⟩

/-! ## Other starts and directions -/

theorem crossedOn_isRotated {σ : ℚ} (h : vertices ~r vertices') :
    CrossedOn σ vertices ↔ CrossedOn σ vertices' := by
  constructor
  · rintro ⟨a, b, c, path, hrotated, hmeet⟩
    exact ⟨a, b, c, path, hrotated.trans h, hmeet⟩
  · rintro ⟨a, b, c, path, hrotated, hmeet⟩
    exact ⟨a, b, c, path, hrotated.trans h.symm, hmeet⟩

theorem parts_swap (σ : ℚ) (p q a b : Point) : Parts (-σ) p q a b ↔ Parts σ q p b a := by
  have hturn : ∀ c, turn q p c = -turn p q c := by
    intro c
    unfold turn
    ring
  unfold Parts
  rw [hturn, hturn, mul_neg, mul_neg, neg_mul, neg_mul]
  exact not_congr iff_comm

theorem meetOn_swap (σ : ℚ) (e f : Point × Point) :
    MeetOn (-σ) e f ↔ MeetOn σ e.swap f.swap := by
  unfold MeetOn
  rw [parts_swap, parts_swap]
  rfl

theorem CrossedOn.of_reverse {σ : ℚ} (h : CrossedOn σ vertices.reverse) :
    CrossedOn (-σ) vertices := by
  obtain ⟨a, b, c, path, hrotated, e, he, hmeet⟩ := h
  have hback : b :: a :: (c :: path).reverse ~r vertices := by
    have hreverse := hrotated.reverse
    rw [List.reverse_reverse] at hreverse
    have hstart : (c :: path).reverse ++ [b, a] ~r [b, a] ++ (c :: path).reverse :=
      List.isRotated_append
    have hsplit : (a :: b :: c :: path).reverse = (c :: path).reverse ++ [b, a] := by simp
    rw [hsplit] at hreverse
    exact hstart.symm.trans hreverse
  have hswap := swap_mem_edges_reverse he
  match hpath : (c :: path).reverse with
  | [] => simp at hpath
  | d :: rest =>
    rw [hpath] at hback hswap
    refine ⟨b, a, d, rest, hback, e.swap, hswap, ?_⟩
    rw [meetOn_swap]
    exact hmeet

theorem crossedOn_reverse {σ : ℚ} : CrossedOn σ vertices.reverse ↔ CrossedOn (-σ) vertices := by
  constructor
  · exact CrossedOn.of_reverse
  · intro h
    rw [← List.reverse_reverse vertices] at h
    have hback := h.of_reverse
    rwa [neg_neg] at hback

theorem not_disjoint_of_meetOn {e f : Point × Point} (h : MeetOn 1 e f) :
    ¬ Disjoint (segment ℚ e.1 e.2) (segment ℚ f.1 f.2) := by
  have hsides : ∀ {p q a b : Point}, Parts 1 p q a b →
      decide (0 < turn p q a) ≠ decide (0 < turn p q b) := by
    intro p q a b hparts
    exact bne_iff_ne.mp ((parts_one_iff p q a b).mpr hparts)
  rw [Set.not_disjoint_iff_nonempty_inter]
  exact segments_meet (hsides h.2) (hsides h.1)

theorem not_crossedOn_of_simpleRing (hsimple : SimpleRing vertices) :
    ¬ CrossedOn 1 vertices ∧ ¬ CrossedOn (-1) vertices := by
  constructor
  · rintro ⟨a, b, c, path, hrotated, e, he, hmeet⟩
    exact not_disjoint_of_meetOn hmeet (hsimple.apart hrotated e he)
  · rintro ⟨a, b, c, path, hrotated, e, he, hmeet⟩
    rw [meetOn_swap] at hmeet
    refine not_disjoint_of_meetOn hmeet ?_
    rw [Prod.fst_swap, Prod.snd_swap, Prod.fst_swap, Prod.snd_swap, segment_symm, segment_symm ℚ e.2]
    exact hsimple.apart hrotated e he

theorem shoelaceArea_closed (vertices : List Point) :
    shoelaceArea (closed vertices) =
      |ringSum (fun a b : Point => a.1 * b.2 - b.1 * a.2) vertices| / 2 := by
  rw [shoelaceArea, ringSum, pathSum_eq_sum]

theorem shoelaceArea_isRotated (h : vertices ~r vertices') :
    shoelaceArea (closed vertices) = shoelaceArea (closed vertices') := by
  rw [shoelaceArea_closed, shoelaceArea_closed, ringSum_isRotated h]

theorem shoelaceArea_reverse (vertices : List Point) :
    shoelaceArea (closed vertices.reverse) = shoelaceArea (closed vertices) := by
  rw [shoelaceArea_closed, shoelaceArea_closed, ringSum_reverse (fun a b => by ring), abs_neg]

theorem shoelaceArea_pos (hsimple : SimpleRing vertices) : 0 < shoelaceArea (closed vertices) := by
  rw [shoelaceArea_closed]
  exact half_pos (abs_pos.mpr hsimple.area_ne_zero)

/-! ## The two validations -/

/-- The geometry package on rings without repeated vertices: valid is simple, and a simple ring has
an area. -/
structure Shapely.ValidatesExactly (package : Shapely) : Prop where
  isValid : ∀ {vertices}, 3 ≤ vertices.length →
    (∀ e ∈ edges (closed vertices), e.1 ≠ e.2) →
    ∃ valid, package.isValid (closed vertices) = .ok valid ∧ (valid = true ↔ SimpleRing vertices)
  area : ∀ {vertices}, SimpleRing vertices → ∃ area, package.area (closed vertices) = .ok area ∧ 0 < area

/-- The checks before the geometry: a closed ring of three distinct vertices. -/
def IsClosedRing (coords : List Point) : Prop :=
  4 ≤ coords.length ∧ coords.head? = coords.getLast? ∧ 3 ≤ coords.dropLast.dedup.length

/-- The package and the fallback accept the ring alike, and the fallback accepts it alike from
each of its vertices on, in both directions. -/
structure ValidatedAlike (package : Shapely) (coords : List Point) : Prop where
  fallback : (validatePolygonGeometry none coords).1 =
    (validatePolygonGeometry (some package) coords).1
  traversal : ∀ {vertices vertices'}, coords = closed vertices →
    (vertices' ~r vertices ∨ vertices' ~r vertices.reverse) →
    (validatePolygonGeometry none (closed vertices')).1 = (validatePolygonGeometry none coords).1

theorem validate_of_not_isClosedRing (shapely : Option Shapely) (h : ¬ IsClosedRing coords) :
    (validatePolygonGeometry shapely coords).1 = false := by
  unfold IsClosedRing at h
  unfold validatePolygonGeometry
  split
  · rfl
  · split
    · rfl
    · split
      · rfl
      · rename_i hlength hends hdistinct
        exact absurd ⟨not_lt.mp hlength, not_not.mp hends, not_lt.mp hdistinct⟩ h

theorem shoelaceArea_nonpos_iff : shoelaceArea coords ≤ 0 ↔ shoelaceArea coords = 0 := by
  have hnonneg : 0 ≤ shoelaceArea coords := by
    unfold shoelaceArea
    positivity
  exact ⟨fun h => le_antisymm h hnonneg, le_of_eq⟩

theorem validate_none_iff (h : IsClosedRing (closed vertices)) :
    (validatePolygonGeometry none (closed vertices)).1 = true ↔
      ¬ CrossedOn 1 vertices ∧ shoelaceArea (closed vertices) ≠ 0 := by
  obtain ⟨hlength, hends, hdistinct⟩ := h
  rw [validatePolygonGeometry, if_neg (by omega), if_neg (not_not.mpr hends), if_neg (by omega)]
  rw [← isSelfIntersecting_iff, ne_eq, ← shoelaceArea_nonpos_iff]
  split
  · rename_i hcrossed
    simp [hcrossed]
  · rename_i hfree
    split
    · rename_i harea
      simp [harea]
    · rename_i harea
      simp [hfree, harea]

theorem validate_package_iff {package : Shapely} (hpackage : package.ValidatesExactly)
    (h : IsClosedRing (closed vertices))
    (hconsecutive : ∀ e ∈ edges (closed vertices), e.1 ≠ e.2) :
    (validatePolygonGeometry (some package) (closed vertices)).1 = true ↔ SimpleRing vertices := by
  obtain ⟨hlength, hends, hdistinct⟩ := h
  rw [validatePolygonGeometry, if_neg (by omega), if_neg (not_not.mpr hends), if_neg (by omega)]
  rw [dropLast_closed] at hdistinct
  have hthree : 3 ≤ vertices.length := hdistinct.trans (List.dedup_sublist vertices).length_le
  obtain ⟨valid, hvalid, hsimple⟩ := hpackage.isValid hthree hconsecutive
  rw [← hsimple]
  cases valid with
  | false => simp [validateByShapely, hvalid]
  | true =>
    obtain ⟨area, harea, hpos⟩ := hpackage.area (hsimple.mp rfl)
    have hsome : decide (area ≤ 0) = false := decide_eq_false hpos.not_ge
    simp [validateByShapely, hvalid, harea, hsome]

theorem isClosedRing_closed : IsClosedRing (closed vertices) ↔ 3 ≤ vertices.dedup.length := by
  rw [IsClosedRing, dropLast_closed]
  constructor
  · exact fun h => h.2.2
  · intro h
    have hthree : 3 ≤ vertices.length := h.trans (List.dedup_sublist vertices).length_le
    cases vertices with
    | nil => simp at hthree
    | cons a path =>
      refine ⟨?_, ?_, h⟩
      · simp only [closed_cons, List.length_append, List.length_cons, List.length_nil] at hthree ⊢
        omega
      · rw [closed_cons, List.getLast?_concat, List.cons_append, List.head?_cons]

theorem isClosedRing_of_perm (hperm : vertices.Perm vertices') :
    IsClosedRing (closed vertices) ↔ IsClosedRing (closed vertices') := by
  rw [isClosedRing_closed, isClosedRing_closed, hperm.dedup.length_eq]

theorem validate_none_traversal (h : IsClosedRing (closed vertices)) :
    (∀ vertices', vertices' ~r vertices →
      ((validatePolygonGeometry none (closed vertices')).1 = true ↔
        ¬ CrossedOn 1 vertices ∧ shoelaceArea (closed vertices) ≠ 0)) ∧
    ∀ vertices', vertices' ~r vertices.reverse →
      ((validatePolygonGeometry none (closed vertices')).1 = true ↔
        ¬ CrossedOn (-1) vertices ∧ shoelaceArea (closed vertices) ≠ 0) := by
  constructor
  · intro vertices' hrotated
    rw [validate_none_iff ((isClosedRing_of_perm hrotated.perm).mpr h), crossedOn_isRotated hrotated,
      shoelaceArea_isRotated hrotated]
  · intro vertices' hrotated
    have hperm := hrotated.perm.trans (List.reverse_perm vertices)
    rw [validate_none_iff ((isClosedRing_of_perm hperm).mpr h), crossedOn_isRotated hrotated,
      crossedOn_reverse, shoelaceArea_isRotated hrotated, shoelaceArea_reverse]

/-- The two validations accept a ring alike exactly where it is no closed ring, simple, without
area, or crossed on both of its sides. -/
theorem validatedAlike_iff {package : Shapely} (hpackage : package.ValidatesExactly)
    (hconsecutive : ∀ e ∈ edges coords, e.1 ≠ e.2) :
    ValidatedAlike package coords ↔ ¬ IsClosedRing coords ∨ SimpleRing coords.dropLast ∨
      shoelaceArea coords = 0 ∨ (CrossedOn 1 coords.dropLast ∧ CrossedOn (-1) coords.dropLast) := by
  by_cases hclosed : IsClosedRing coords
  · obtain ⟨vertices, rfl⟩ : ∃ vertices, coords = closed vertices :=
      ⟨_, eq_closed hclosed.2.1 (by have := hclosed.1; omega)⟩
    obtain ⟨hsame, hback⟩ := validate_none_traversal hclosed
    have hnone := hsame vertices (List.IsRotated.refl vertices)
    have hvalid := validate_package_iff hpackage hclosed hconsecutive
    rw [dropLast_closed]
    constructor
    · rintro ⟨hfallback, htraversal⟩
      by_contra hnot
      simp only [not_or, not_not] at hnot
      obtain ⟨-, hcrossed, harea, hside⟩ := hnot
      have hrejected : (validatePolygonGeometry none (closed vertices)).1 ≠ true := by
        rw [hfallback, ne_eq, hvalid]
        exact hcrossed
      have hreversed := htraversal rfl (.inr (List.IsRotated.refl vertices.reverse))
      rw [← hreversed] at hrejected
      have hright := (hback _ (List.IsRotated.refl _)).not.mp hrejected
      rw [hreversed] at hrejected
      have hleft := hnone.not.mp hrejected
      simp only [harea, ne_eq, not_false_eq_true, and_true, not_not] at hleft hright
      exact hside ⟨hleft, hright⟩
    · intro hcondition
      have hsides : ((¬ CrossedOn (-1) vertices ∧ shoelaceArea (closed vertices) ≠ 0) ↔
            (¬ CrossedOn 1 vertices ∧ shoelaceArea (closed vertices) ≠ 0)) ∧
          ((¬ CrossedOn 1 vertices ∧ shoelaceArea (closed vertices) ≠ 0) ↔ SimpleRing vertices) := by
        rcases hcondition with hopen | hsimple | harea | ⟨hleft, hright⟩
        · exact absurd hclosed hopen
        · obtain ⟨hleft, hright⟩ := not_crossedOn_of_simpleRing hsimple
          simp [hleft, hright, hsimple, (shoelaceArea_pos hsimple).ne']
        · have hcrossed : ¬ SimpleRing vertices := fun hsimple => (shoelaceArea_pos hsimple).ne' harea
          simp [harea, hcrossed]
        · have hcrossed : ¬ SimpleRing vertices :=
            fun hsimple => (not_crossedOn_of_simpleRing hsimple).1 hleft
          simp [hleft, hright, hcrossed]
      refine ⟨?_, ?_⟩
      · rw [Bool.eq_iff_iff, hnone, hvalid, hsides.2]
      · intro other vertices' hcoords htraversal
        obtain rfl : vertices = other := by
          rw [← dropLast_closed vertices, hcoords, dropLast_closed]
        rw [Bool.eq_iff_iff, hnone]
        rcases htraversal with hrotated | hrotated
        · exact hsame vertices' hrotated
        · rw [hback vertices' hrotated, hsides.1]
  · refine iff_of_true ⟨?_, ?_⟩ (.inl hclosed)
    · rw [validate_of_not_isClosedRing _ hclosed, validate_of_not_isClosedRing _ hclosed]
    · rintro vertices vertices' rfl htraversal
      have hperm : vertices'.Perm vertices := by
        rcases htraversal with hrotated | hrotated
        · exact hrotated.perm
        · exact hrotated.perm.trans (List.reverse_perm vertices)
      rw [validate_of_not_isClosedRing _ hclosed,
        validate_of_not_isClosedRing _ ((isClosedRing_of_perm hperm).not.mpr hclosed)]

theorem polygonPackage_validatesExactly (sqrt : ℚ → ℚ) :
    (polygonPackage sqrt).ValidatesExactly := by
  constructor
  · intro vertices _ _
    refine ⟨_, rfl, ?_⟩
    simp only [dropLast_closed, decide_eq_true_iff]
  · intro vertices hsimple
    exact ⟨_, rfl, shoelaceArea_pos hsimple⟩

theorem validatedAlike_square :
    ValidatedAlike (polygonPackage sampleSqrt) (closed (squareVertices 0)) := by
  refine (validatedAlike_iff (polygonPackage_validatesExactly sampleSqrt) (by decide +kernel)).mpr
    (.inr (.inl ?_))
  rw [dropLast_closed]
  exact simpleRing_square.1

def touchingVertices : List Point := [(0, 0), (0, 4), (2, 0), (4, 4), (4, 0)]

/-- Without the package the ring is accepted and its reverse is not; the package rejects both. -/
theorem touchingRing_accepted : (polygonPackage sampleSqrt).ValidatesExactly ∧
    (∀ e ∈ edges (closed touchingVertices), e.1 ≠ e.2) ∧
    (validatePolygonGeometry none (closed touchingVertices)).1 = true ∧
    (validatePolygonGeometry none (closed touchingVertices.reverse)).1 = false ∧
    (validatePolygonGeometry (some (polygonPackage sampleSqrt)) (closed touchingVertices)).1 =
      false := by
  refine ⟨polygonPackage_validatesExactly sampleSqrt, by decide +kernel, by decide +kernel,
    by decide +kernel, ?_⟩
  have hnot : ¬ SimpleRing touchingVertices := by
    intro hsimple
    have hrotated : (4, 0) :: (0, 0) :: (0, 4) :: [(2, 0), (4, 4)] ~r touchingVertices :=
      (List.isRotated_concat ((4, 0) : Point) [(0, 0), (0, 4), (2, 0), (4, 4)]).symm
    have hapart := hsimple.apart hrotated ((0, 4), (2, 0)) (by decide +kernel)
    have hmem : ((2, 0) : Point) ∈ segment ℚ (4, 0) (0, 0) :=
      mem_segment_iff.mpr ⟨1 / 2, by norm_num, by norm_num, by norm_num⟩
    exact Set.disjoint_left.mp hapart hmem (right_mem_segment ℚ _ _)
  have hclosed : IsClosedRing (closed touchingVertices) :=
    isClosedRing_closed.mpr (by decide +kernel)
  rw [← Bool.not_eq_true,
    validate_package_iff (polygonPackage_validatesExactly sampleSqrt) hclosed (by decide +kernel)]
  exact hnot

end LandRecords.Parcels
