import LandRecords.Base.RingDistance
import LandRecords.Parcels.LabelBinding
import LandRecords.Parcels.RayParity
import Mathlib

/-! The ray test against the closed polygon of a simple ring. Off the ring they agree; on the ring
the ray test keeps the points from which the polygon is entered to the left. -/
namespace LandRecords.Parcels

open EdgeSums Planar Rings Filter Topology
open Plane (squaredDistance)

variable {p a b : Point} {vertices : List Point}

/-! ## Points off the ring -/

theorem cross_right (v w : Point) : cross (1, 0) (v - w) = v.2 - w.2 := by
  simp [cross]

theorem meetsRay_upward (hlow : a.2 < p.2) (hhigh : p.2 ≤ b.2) :
    meetsRay p a b = decide (0 ≤ turn p a b) := by
  have hab : 0 < b.2 - a.2 := by linarith
  have hmeet : p.1 ≤ (p.2 - a.2) * (b.1 - a.1) / (b.2 - a.2) + a.1 ↔ 0 ≤ turn p a b := by
    rw [← sub_le_iff_le_add, le_div_iff₀ hab]
    unfold turn
    constructor <;> intro h <;> linarith
  have hmax : 0 ≤ turn p a b → p.1 ≤ max a.1 b.1 := by
    intro hturn
    by_contra hright
    rw [not_le, max_lt_iff] at hright
    unfold turn at hturn
    nlinarith [hright.1, hright.2]
  have hupright : a.1 = b.1 → p.1 ≤ max a.1 b.1 → 0 ≤ turn p a b := by
    intro heq hright
    rw [heq, max_self] at hright
    unfold turn
    nlinarith [heq, hright]
  unfold meetsRay
  rw [min_eq_left (by linarith), max_eq_right (by linarith : a.2 ≤ b.2)]
  by_cases hturn : 0 ≤ turn p a b
  · simp [hlow, hhigh, hmax hturn, hmeet.mpr hturn, hturn]
  · have hfar : ¬ p.1 ≤ (p.2 - a.2) * (b.1 - a.1) / (b.2 - a.2) + a.1 := hmeet.not.mpr hturn
    simp only [hfar, hturn, decide_false, Bool.or_false, Bool.and_eq_false_iff,
      decide_eq_false_iff_not]
    by_cases heq : a.1 = b.1
    · exact .inl (.inr fun hright => hturn (hupright heq hright))
    · exact .inr heq

theorem meetsRay_above (ha : p.2 ≤ a.2) (hb : p.2 ≤ b.2) : meetsRay p a b = false := by
  simp [meetsRay, ha.not_gt, hb.not_gt]

theorem meetsRay_below (ha : a.2 < p.2) (hb : b.2 < p.2) : meetsRay p a b = false := by
  simp [meetsRay, ha.not_ge, hb.not_ge]

theorem turn_swap (p a b : Point) : turn p b a = -turn p a b := by
  rw [turn_eq_cross, turn_eq_cross, cross_comm]

theorem meetsRay_eq (hoff : p ∉ segment ℚ a b) : meetsRay p a b = crossesRay p (1, 0) a b := by
  have hturn : Straddles p (1, 0) a b → turn p a b ≠ 0 := turn_ne_zero hoff
  unfold Straddles at hturn
  unfold crossesRay
  simp only [cross_right, sub_neg, sub_nonneg] at hturn ⊢
  rcases lt_or_ge a.2 p.2 with ha | ha <;> rcases lt_or_ge b.2 p.2 with hb | hb
  · rw [meetsRay_below ha hb]
    simp [ha.not_ge, hb.not_ge]
  · rw [meetsRay_upward ha hb]
    have hne := hturn (.inl ⟨ha, hb⟩)
    simp [ha, hb, ha.not_ge, hne.symm, le_iff_lt_or_eq]
  · rw [meetsRay_comm, meetsRay_upward hb ha, turn_swap]
    have hne := hturn (.inr ⟨ha, hb⟩)
    simp [ha, hb, ha.not_gt, hne, le_iff_lt_or_eq]
  · rw [meetsRay_above ha hb]
    simp [ha.not_gt, hb.not_gt]

theorem bit_pointInPolygonRing_eq (hoff : p ∉ onRing vertices) :
    bit (pointInPolygonRing .exact p (closed vertices)) = rayParity p (1, 0) vertices := by
  rw [bit_pointInPolygonRing]
  refine ringSum_congr fun e he => ?_
  rw [meetsRay_eq (notMem_segment hoff he)]

theorem bit_eq_one_iff (x : Bool) : bit x = 1 ↔ x = true := by
  revert x
  decide

/-- Off a simple ring the ray test finds the points inside. -/
theorem mem_enclosed_iff_pointInPolygonRing (hsimple : SimpleRing vertices)
    (hoff : p ∉ onRing vertices) :
    p ∈ enclosed vertices ↔ pointInPolygonRing .exact p (closed vertices) = true := by
  have hdirection : ((1, 0) : Point) ≠ 0 := by decide
  rw [hsimple.mem_enclosed_iff hoff hdirection, ← bit_pointInPolygonRing_eq hoff, bit_eq_one_iff]

/-! ## Points on the ring -/

def leftOf (p : Point) (ε δ : ℚ) : Point := (p.1 - ε, p.2 - δ)

theorem eventually_above {x y : ℚ} (h : x < y) : ∀ᶠ δ in 𝓝[>] (0 : ℚ), x < y - δ := by
  filter_upwards [eventually_lt_add h (-1)] with δ hδ
  linarith

theorem notMem_segment_of_heights {q : Point} (h : (a.2 < q.2 ∧ b.2 < q.2) ∨ (q.2 < a.2 ∧ q.2 < b.2)) :
    q ∉ segment ℚ a b := by
  have hheight : ∀ v : Point, cross (1, 0) v = v.2 := by
    intro v
    simp [cross]
  intro hmem
  rcases h with ⟨ha, hb⟩ | ⟨ha, hb⟩
  · have hle := cross_le_of_mem_segment (n := ((1, 0) : Point)) (k := max a.2 b.2)
      (by rw [hheight]; exact le_max_left _ _) (by rw [hheight]; exact le_max_right _ _) hmem
    rw [hheight] at hle
    exact hle.not_gt (max_lt ha hb)
  · have hlt := lt_cross_of_mem_segment (n := ((1, 0) : Point)) (k := q.2)
      (by rw [hheight]; exact ha) (by rw [hheight]; exact hb) hmem
    rw [hheight] at hlt
    exact lt_irrefl _ hlt

theorem eventually_turn (hlow : a.2 < b.2) : ∀ᶠ ε in 𝓝[>] (0 : ℚ), ∀ᶠ δ in 𝓝[>] (0 : ℚ),
    turn (leftOf p ε δ) a b ≠ 0 ∧ (0 ≤ turn (leftOf p ε δ) a b ↔ 0 ≤ turn p a b) := by
  have hmove : ∀ ε δ, turn (leftOf p ε δ) a b =
      turn p a b + ε * (b.2 - a.2) + δ * (a.1 - b.1) := by
    intro ε δ
    simp only [turn, leftOf]
    ring
  have hpos : 0 < b.2 - a.2 := by linarith
  rcases le_or_gt 0 (turn p a b) with hleft | hright
  · filter_upwards [self_mem_nhdsWithin] with ε hε
    have hfar : 0 < turn p a b + ε * (b.2 - a.2) := add_pos_of_nonneg_of_pos hleft (mul_pos hε hpos)
    filter_upwards [eventually_lt_add hfar (a.1 - b.1)] with δ hδ
    rw [hmove]
    exact ⟨hδ.ne', iff_of_true hδ.le hleft⟩
  · filter_upwards [eventually_lt_add (neg_pos.mpr hright) (-(b.2 - a.2))] with ε hε
    have hfar : 0 < -(turn p a b + ε * (b.2 - a.2)) := by linarith
    filter_upwards [eventually_lt_add hfar (-(a.1 - b.1))] with δ hδ
    have hneg : turn p a b + ε * (b.2 - a.2) + δ * (a.1 - b.1) < 0 := by linarith
    rw [hmove]
    exact ⟨hneg.ne, iff_of_false hneg.not_ge hright.not_ge⟩

theorem eventually_meetsRay_upward (hlow : a.2 < p.2) (hhigh : p.2 ≤ b.2) :
    ∀ᶠ ε in 𝓝[>] (0 : ℚ), ∀ᶠ δ in 𝓝[>] (0 : ℚ), leftOf p ε δ ∉ segment ℚ a b ∧
      meetsRay (leftOf p ε δ) a b = meetsRay p a b := by
  filter_upwards [eventually_turn (p := p) (hlow.trans_le hhigh)] with ε hε
  filter_upwards [hε, eventually_above hlow, self_mem_nhdsWithin] with δ hδ habove hpos
  have hhigh' : p.2 - δ ≤ b.2 := by linarith [Set.mem_Ioi.mp hpos]
  constructor
  · intro hmem
    refine hδ.1 ?_
    rw [turn_cycle]
    exact turn_of_mem_segment hmem
  · rw [meetsRay_upward hlow hhigh, meetsRay_upward (p := leftOf p ε δ) habove hhigh']
    simp only [hδ.2]

theorem eventually_meetsRay (p a b : Point) : ∀ᶠ ε in 𝓝[>] (0 : ℚ), ∀ᶠ δ in 𝓝[>] (0 : ℚ),
    leftOf p ε δ ∉ segment ℚ a b ∧ meetsRay (leftOf p ε δ) a b = meetsRay p a b := by
  rcases lt_or_ge a.2 p.2 with ha | ha <;> rcases lt_or_ge b.2 p.2 with hb | hb
  · refine Eventually.of_forall fun ε => ?_
    filter_upwards [eventually_above ha, eventually_above hb] with δ ha' hb'
    refine ⟨notMem_segment_of_heights (.inl ⟨ha', hb'⟩), ?_⟩
    rw [meetsRay_below ha hb, meetsRay_below (p := leftOf p ε δ) ha' hb']
  · exact eventually_meetsRay_upward ha hb
  · rw [segment_symm]
    simp only [meetsRay_comm _ a b]
    exact eventually_meetsRay_upward hb ha
  · refine Eventually.of_forall fun ε => ?_
    filter_upwards [self_mem_nhdsWithin] with δ hδ
    have hbelow : p.2 - δ < p.2 := by linarith [Set.mem_Ioi.mp hδ]
    refine ⟨notMem_segment_of_heights (.inr ⟨hbelow.trans_le ha, hbelow.trans_le hb⟩), ?_⟩
    rw [meetsRay_above ha hb,
      meetsRay_above (p := leftOf p ε δ) (hbelow.trans_le ha).le (hbelow.trans_le hb).le]

/-- The polygon is entered where one leaves the point to the left. -/
def EnteredLeft (vertices : List Point) (p : Point) : Prop :=
  ∀ᶠ ε in 𝓝[>] (0 : ℚ), ∀ᶠ δ in 𝓝[>] (0 : ℚ), leftOf p ε δ ∈ enclosed vertices

theorem eventually_pointInPolygonRing (hsimple : SimpleRing vertices) (p : Point) :
    ∀ᶠ ε in 𝓝[>] (0 : ℚ), ∀ᶠ δ in 𝓝[>] (0 : ℚ),
      (leftOf p ε δ ∈ enclosed vertices ↔ pointInPolygonRing .exact p (closed vertices) = true) := by
  have hfinite := List.finite_toSet (edges (closed vertices))
  have hedges : ∀ᶠ ε in 𝓝[>] (0 : ℚ), ∀ e ∈ {e | e ∈ edges (closed vertices)},
      ∀ᶠ δ in 𝓝[>] (0 : ℚ), leftOf p ε δ ∉ segment ℚ e.1 e.2 ∧
        meetsRay (leftOf p ε δ) e.1 e.2 = meetsRay p e.1 e.2 :=
    (eventually_all_finite hfinite).mpr fun e _ => eventually_meetsRay p e.1 e.2
  filter_upwards [hedges] with ε hε
  filter_upwards [(eventually_all_finite hfinite).mpr hε] with δ hδ
  have hoff : leftOf p ε δ ∉ onRing vertices := fun ⟨e, he, hmem⟩ => (hδ e he).1 hmem
  have hsame : pointInPolygonRing .exact (leftOf p ε δ) (closed vertices) =
      pointInPolygonRing .exact p (closed vertices) := by
    apply bit_injective
    rw [bit_pointInPolygonRing, bit_pointInPolygonRing]
    exact ringSum_congr fun e he => congrArg bit (hδ e he).2
  rw [mem_enclosed_iff_pointInPolygonRing hsimple hoff, hsame]

/-- The ray test keeps the points where the polygon is entered to the left. -/
theorem pointInPolygonRing_iff (hsimple : SimpleRing vertices) (p : Point) :
    pointInPolygonRing .exact p (closed vertices) = true ↔ EnteredLeft vertices p := by
  have hevent := eventually_pointInPolygonRing hsimple p
  constructor
  · intro hinside
    filter_upwards [hevent] with ε hε
    filter_upwards [hε] with δ hδ
    exact hδ.mpr hinside
  · intro hentered
    obtain ⟨ε, hε, hε'⟩ := (hevent.and hentered).exists
    obtain ⟨δ, hδ, hδ'⟩ := (hε.and hε').exists
    exact hδ.mp hδ'

/-! ## The two containment tests -/

/-- The geometry package on simple rings: contained or touched is the closed polygon, and the
distance is the root of the least squared distance from its points. -/
structure Shapely.PlacesExactly (package : Shapely) (sqrt : ℚ → ℚ) : Prop where
  contains : ∀ {vertices}, SimpleRing vertices → ∀ p, ∃ inner outer,
    package.contains (closed vertices) p = .ok inner ∧
      package.touches (closed vertices) p = .ok outer ∧
      ((inner || outer) = true ↔ p ∈ closedPolygon vertices)
  distance : ∀ {vertices}, SimpleRing vertices → ∀ {p m},
    IsLeast (squaredDistance p '' closedPolygon vertices) m →
      package.distance (closed vertices) p = .ok (sqrt m)

theorem distSqToEdge_exact (p : Point) (edge : Point × Point) :
    distSqToEdge .exact p edge = .ok (squaredDistance p (nearestPoint p edge.1 edge.2)) := by
  obtain ⟨a, b⟩ := edge
  unfold distSqToEdge
  dsimp only [FloatOperations.exact, sumOfSquares, Raised.ok_bind]
  split
  · rename_i hsame
    have hnearest : nearestPoint p a b = a := by
      simp [nearestPoint, hsame.1, hsame.2]
    rw [hnearest]
    rfl
  · rename_i hne
    have hlength : (b.1 - a.1) * (b.1 - a.1) + (b.2 - a.2) * (b.2 - a.2) ≠ 0 := by
      intro hzero
      exact hne (by constructor <;> nlinarith [mul_self_nonneg (b.1 - a.1), mul_self_nonneg (b.2 - a.2)])
    rw [dif_neg hlength]
    rfl

theorem pointToPolygonDistance_exact (hsimple : SimpleRing vertices) (p : Point) (sqrt : ℚ → ℚ) :
    ∃ m, IsLeast (squaredDistance p '' onRing vertices) m ∧
      pointToPolygonDistance .exact p sqrt (closed vertices) = .ok (some (sqrt m)) := by
  have hthree := hsimple.three_le
  have hedges : (edges (closed vertices)).map
      (fun e => squaredDistance p (nearestPoint p e.1 e.2)) ≠ [] := by
    rw [← List.length_pos_iff, List.length_map, length_edges_closed]
    omega
  obtain ⟨m, hm⟩ := Option.ne_none_iff_exists'.mp (List.min?_eq_none_iff.not.mpr hedges)
  have hdistances : (edges (closed vertices)).mapM (distSqToEdge .exact p) =
      .ok ((edges (closed vertices)).map
        fun e => squaredDistance p (nearestPoint p e.1 e.2)) := by
    rw [funext (distSqToEdge_exact p)]
    exact List.mapM_pure
  refine ⟨m, isLeast_onRing hm, ?_⟩
  rw [pointToPolygonDistance, hdistances, Raised.ok_bind, hm]
  rfl

section Places

variable {package : Shapely} {operations : FloatOperations} {sqrt : ℚ → ℚ}

variable (operations) in
theorem placeOf_package (hpackage : package.PlacesExactly sqrt) (hsimple : SimpleRing vertices)
    (p : Point) : ∃ isInside d,
      placeOf ⟨some package, operations, sqrt⟩ (closed vertices) p = .ok (isInside, some d) ∧
      (isInside = true ↔ p ∈ closedPolygon vertices) ∧
      (p ∉ closedPolygon vertices →
        ∀ m, IsLeast (squaredDistance p '' onRing vertices) m → d = sqrt m) := by
  obtain ⟨inner, outer, hinner, houter, hclosed⟩ := hpackage.contains hsimple p
  have hdistance : ∃ d, package.distance (closed vertices) p = .ok d ∧
      (p ∉ closedPolygon vertices →
        ∀ m, IsLeast (squaredDistance p '' onRing vertices) m → d = sqrt m) := by
    by_cases hp : p ∈ closedPolygon vertices
    · exact ⟨_, hpackage.distance hsimple (isLeast_of_mem hp), fun h => absurd hp h⟩
    · obtain ⟨m, hm, -⟩ := pointToPolygonDistance_exact hsimple p sqrt
      refine ⟨_, hpackage.distance hsimple (isLeast_closedPolygon hp hm), fun _ m' hm' => ?_⟩
      rw [hm.unique hm']
  obtain ⟨d, hd, hdist⟩ := hdistance
  refine ⟨inner || outer, d, ?_, hclosed, hdist⟩
  simp only [placeOf, hinner, houter, hd]
  cases inner <;> rfl

variable (sqrt) in
theorem placeOf_none (hsimple : SimpleRing vertices) (p : Point) :
    ∃ m, IsLeast (squaredDistance p '' onRing vertices) m ∧
      placeOf ⟨none, .exact, sqrt⟩ (closed vertices) p =
        .ok (pointInPolygonRing .exact p (closed vertices), some (sqrt m)) := by
  obtain ⟨m, hm, hd⟩ := pointToPolygonDistance_exact hsimple p sqrt
  refine ⟨m, hm, ?_⟩
  simp only [placeOf, hd]
  rfl

theorem mem_closedPolygon_iff (hsimple : SimpleRing vertices)
    (h : p ∈ onRing vertices → EnteredLeft vertices p) :
    p ∈ closedPolygon vertices ↔ pointInPolygonRing .exact p (closed vertices) = true := by
  by_cases hon : p ∈ onRing vertices
  · rw [pointInPolygonRing_iff hsimple]
    exact iff_of_true (.inl hon) (h hon)
  · rw [← mem_enclosed_iff_pointInPolygonRing hsimple hon]
    exact ⟨fun hmem => hmem.resolve_left hon, .inr⟩

variable (operations) in
theorem placeOf_agrees (hpackage : package.PlacesExactly sqrt) (hsimple : SimpleRing vertices)
    (h : p ∈ onRing vertices → EnteredLeft vertices p) : ∃ isInside dist dist',
      placeOf ⟨some package, operations, sqrt⟩ (closed vertices) p = .ok (isInside, dist) ∧
      placeOf ⟨none, .exact, sqrt⟩ (closed vertices) p = .ok (isInside, dist') ∧
      (isInside = false → dist = dist') := by
  obtain ⟨isInside, d, hplace, hclosed, hdist⟩ :=
    placeOf_package operations hpackage hsimple p
  obtain ⟨m, hm, hplace'⟩ := placeOf_none sqrt hsimple p
  have hsame : isInside = pointInPolygonRing .exact p (closed vertices) := by
    rw [Bool.eq_iff_iff, hclosed, mem_closedPolygon_iff hsimple h]
  refine ⟨isInside, some d, some (sqrt m), hplace, hsame ▸ hplace', fun houtside => ?_⟩
  have hnot : p ∉ closedPolygon vertices := by
    rw [← hclosed, houtside]
    exact Bool.false_ne_true
  rw [hdist hnot m hm]

end Places

theorem candidatesIn_congr {geometry geometry' : Geometry} {maxNearbyDistance : ℚ}
    {coords : List Point} {labels : List PreparedLabel}
    (h : ∀ lbl ∈ labels, ∃ isInside dist dist', placeOf geometry coords lbl.point = .ok (isInside, dist) ∧
      placeOf geometry' coords lbl.point = .ok (isInside, dist') ∧
      (isInside = false → dist = dist')) :
    candidatesIn geometry maxNearbyDistance coords labels =
      candidatesIn geometry' maxNearbyDistance coords labels := by
  induction labels with
  | nil => rfl
  | cons lbl labels ih =>
    obtain ⟨isInside, dist, dist', hplace, hplace', hdist⟩ := h lbl (List.mem_cons_self ..)
    have hrest := ih fun other hother => h other (List.mem_cons_of_mem _ hother)
    rw [candidatesIn, candidatesIn, hplace, hplace', hrest]
    cases isInside with
    | true => rfl
    | false => rw [hdist rfl]

theorem candidatesOf_congr {geometry geometry' : Geometry} {maxNearbyDistance : ℚ}
    {labels : List PreparedLabel} {polyItem : ParcelBoundary}
    (h : ∀ coords ∈ polyItem.ring, candidatesIn geometry maxNearbyDistance coords labels =
      candidatesIn geometry' maxNearbyDistance coords labels) :
    candidatesOf geometry maxNearbyDistance labels polyItem =
      candidatesOf geometry' maxNearbyDistance labels polyItem := by
  unfold candidatesOf
  split
  · rfl
  · rename_i polyDict hpolygon
    split
    · rfl
    · rename_i hvalid
      split
      · rfl
      · rename_i coords later hcoordinates
        split
        · rfl
        · rename_i hlong
          have hring : polyItem.ring = some coords := by
            simp [ParcelBoundary.ring, hpolygon, hcoordinates, not_lt.mp hlong,
              (by simpa using hvalid : polyItem.isValid = true)]
          exact h coords hring

theorem candidateTable_congr {geometry geometry' : Geometry} {maxNearbyDistance : ℚ}
    {labels : List PreparedLabel} {polygons : List ParcelBoundary}
    (h : ∀ polyItem ∈ polygons, candidatesOf geometry maxNearbyDistance labels polyItem =
      candidatesOf geometry' maxNearbyDistance labels polyItem) :
    candidateTable geometry maxNearbyDistance labels polygons =
      candidateTable geometry' maxNearbyDistance labels polygons := by
  induction polygons with
  | nil => rfl
  | cons polyItem polygons ih =>
    obtain ⟨hfirst, hrest⟩ := List.forall_mem_cons.mp h
    rw [candidateTable, candidateTable, hfirst, ih hrest]

theorem bindSurveyLabels_congr {builtins : MapBuiltins} {shapely shapely' : Option Shapely}
    {operations : FloatOperations} {sqrt : ℚ → ℚ} {polygons : List ParcelBoundary}
    {labels : Value ℚ} {georefResult : Option GeoreferenceResult} {maxNearbyDistance : ℚ}
    (h : ∀ polyItem ∈ polygons, ∀ coords ∈ polyItem.ring,
      ∀ lbl ∈ preparedOf builtins.toConversions operations labels georefResult,
        ∃ isInside dist dist',
          placeOf ⟨shapely, operations, sqrt⟩ coords lbl.point = .ok (isInside, dist) ∧
          placeOf ⟨shapely', operations, sqrt⟩ coords lbl.point = .ok (isInside, dist') ∧
          (isInside = false → dist = dist')) :
    bindSurveyLabels { builtins with toGeometry := ⟨shapely, operations, sqrt⟩ } polygons labels
        georefResult maxNearbyDistance =
      bindSurveyLabels { builtins with toGeometry := ⟨shapely', operations, sqrt⟩ } polygons labels
        georefResult maxNearbyDistance := by
  unfold bindSurveyLabels
  split
  · rfl
  · refine Raised.bind_congr_ok fun items hitems => Raised.bind_congr_ok fun prepared hprepared => ?_
    have hlabels : preparedOf builtins.toConversions operations labels georefResult = prepared := by
      rw [preparedOf, liftM_eq_ok.mp hitems, Raised.ok_bind, liftM_eq_ok.mp hprepared]
    have htable : candidateTable ⟨shapely, operations, sqrt⟩ maxNearbyDistance prepared polygons =
        candidateTable ⟨shapely', operations, sqrt⟩ maxNearbyDistance prepared polygons := by
      refine candidateTable_congr fun polyItem hpoly => candidatesOf_congr fun coords hcoords => ?_
      rw [← hlabels]
      exact candidatesIn_congr (h polyItem hpoly coords hcoords)
    rw [htable]

/-- In exact arithmetic the two containment tests agree at a point of a simple ring's plane exactly
where it is not on the ring or the polygon is entered to its left, and where they agree for each
label and ring of a page, its labels are bound alike. -/
theorem bindSurveyLabels_without_package {package : Shapely} {sqrt : ℚ → ℚ}
    (hpackage : package.PlacesExactly sqrt) :
    (∀ vertices, SimpleRing vertices → ∀ p,
      ((placeOf ⟨some package, .exact, sqrt⟩ (closed vertices) p).map Prod.fst =
          (placeOf ⟨none, .exact, sqrt⟩ (closed vertices) p).map Prod.fst ↔
        (p ∈ onRing vertices → EnteredLeft vertices p))) ∧
    ∀ (builtins : MapBuiltins) (polygons : List ParcelBoundary) (labels : Value ℚ)
      (georefResult : Option GeoreferenceResult) (maxNearbyDistance : ℚ),
      (∀ polyItem ∈ polygons, ∀ coords ∈ polyItem.ring, ∃ vertices, SimpleRing vertices ∧
        coords = closed vertices ∧
        ∀ lbl ∈ preparedOf builtins.toConversions .exact labels georefResult,
          lbl.point ∈ onRing vertices → EnteredLeft vertices lbl.point) →
      bindSurveyLabels { builtins with toGeometry := ⟨some package, .exact, sqrt⟩ } polygons labels
          georefResult maxNearbyDistance =
        bindSurveyLabels { builtins with toGeometry := ⟨none, .exact, sqrt⟩ } polygons labels
          georefResult maxNearbyDistance := by
  constructor
  · intro vertices hsimple p
    constructor
    · intro hagree hon
      obtain ⟨isInside, d, hplace, hclosed, -⟩ := placeOf_package .exact hpackage hsimple p
      obtain ⟨m, -, hplace'⟩ := placeOf_none sqrt hsimple p
      rw [hplace, hplace'] at hagree
      have hsame : isInside = pointInPolygonRing .exact p (closed vertices) := Except.ok.inj hagree
      rw [← pointInPolygonRing_iff hsimple, ← hsame, hclosed]
      exact .inl hon
    · intro h
      obtain ⟨isInside, dist, dist', hplace, hplace', -⟩ := placeOf_agrees .exact hpackage hsimple h
      rw [hplace, hplace']
      rfl
  · intro builtins polygons labels georefResult maxNearbyDistance hpage
    refine bindSurveyLabels_congr fun polyItem hpoly coords hcoords lbl hlbl => ?_
    obtain ⟨vertices, hsimple, rfl, hentered⟩ := hpage polyItem hpoly coords hcoords
    exact placeOf_agrees .exact hpackage hsimple (hentered lbl hlbl)

/-! ### Two parcels side by side -/

def squareVertices (x : ℚ) : List Point := [(x, 0), (x + 100, 0), (x + 100, 100), (x, 100)]

open Classical in
noncomputable def polygonPackage (sqrt : ℚ → ℚ) : Shapely where
  isValid coords := .ok (decide (SimpleRing coords.dropLast))
  area coords := .ok (shoelaceArea coords)
  contains coords p := .ok (decide (p ∈ enclosed coords.dropLast))
  touches coords p := .ok (decide (p ∈ onRing coords.dropLast))
  distance coords p :=
    if h : ∃ m, IsLeast (squaredDistance p '' closedPolygon coords.dropLast) m then
      .ok (sqrt h.choose)
    else .error "no distance".toList

theorem polygonPackage_placesExactly (sqrt : ℚ → ℚ) : (polygonPackage sqrt).PlacesExactly sqrt := by
  constructor
  · intro vertices hsimple p
    refine ⟨_, _, rfl, rfl, ?_⟩
    simp only [dropLast_closed, Bool.or_eq_true, decide_eq_true_iff]
    exact or_comm
  · intro vertices hsimple p m hm
    rw [← dropLast_closed vertices] at hm
    have hleast : ∃ m, IsLeast (squaredDistance p '' closedPolygon (closed vertices).dropLast) m :=
      ⟨m, hm⟩
    have hfound : (polygonPackage sqrt).distance (closed vertices) p = .ok (sqrt hleast.choose) :=
      dif_pos hleast
    rw [hfound, hleast.choose_spec.unique hm]

theorem simpleRing_square :
    SimpleRing (squareVertices 0) ∧ SimpleRing (squareVertices 100) :=
  ⟨simpleRing_of_edgesApart (by decide) (by decide +kernel),
    simpleRing_of_edgesApart (by decide) (by decide +kernel)⟩

theorem sharedEdge_onRing :
    ((100, 50) : Point) ∈ onRing (squareVertices 0) ∧
      ((100, 50) : Point) ∈ onRing (squareVertices 100) := by
  refine ⟨⟨((100, 0), (100, 100)), by decide +kernel, ?_⟩,
    ⟨((100, 100), (100, 0)), by decide +kernel, ?_⟩⟩
  · exact mem_segment_iff.mpr ⟨1 / 2, by norm_num, by norm_num, by norm_num⟩
  · exact mem_segment_iff.mpr ⟨1 / 2, by norm_num, by norm_num, by norm_num⟩

def everywherePackage : Shapely where
  isValid _ := .ok true
  area coords := .ok (shoelaceArea coords)
  contains _ _ := .ok true
  touches _ _ := .ok false
  distance _ _ := .ok 0

def sampleSqrt : ℚ → ℚ := Rounding.rootTo 17

def boundWith (shapely : Option Shapely) (polygons : List ParcelBoundary) :
    Except MapError (List BoundParcel) :=
  bindSurveyLabels { planarBuiltins with toGeometry := ⟨shapely, .exact, sampleSqrt⟩ } polygons
    (.list [pointLabel "12A" 100 50]) none 50

/-- A label on the edge that two parcels share is inside both of them with the package, and inside
one of them without. -/
theorem bindSurveyLabels_sharedEdge : ∃ package : Shapely, package.PlacesExactly sampleSqrt ∧
    SimpleRing (squareVertices 100) ∧
    (placeOf ⟨some package, .exact, sampleSqrt⟩ (closed (squareVertices 100)) (100, 50)).map
      Prod.fst = .ok true ∧
    (placeOf ⟨none, .exact, sampleSqrt⟩ (closed (squareVertices 100)) (100, 50)).map
      Prod.fst = .ok false ∧
    (boundWith (some package) [squareParcel 1 0, squareParcel 2 100]).map
      (List.map (·.boundSurveyNo)) = .ok [none, none] ∧
    (boundWith none [squareParcel 1 0, squareParcel 2 100]).map
      (List.map (·.boundSurveyNo)) = .ok [some "12A".toList, none] := by
  let package := polygonPackage sampleSqrt
  have hexact : package.PlacesExactly sampleSqrt := polygonPackage_placesExactly sampleSqrt
  have hinside : ∀ vertices, SimpleRing vertices → ((100, 50) : Point) ∈ onRing vertices →
      ∃ d, placeOf ⟨some package, .exact, sampleSqrt⟩ (closed vertices) (100, 50) =
        .ok (true, some d) := by
    intro vertices hsimple hon
    obtain ⟨isInside, d, hplace, hclosed, -⟩ := placeOf_package .exact hexact hsimple (100, 50)
    rw [hclosed.mpr (.inl hon)] at hplace
    exact ⟨d, hplace⟩
  have hlabels : (preparedOf planarBuiltins.toConversions .exact (.list [pointLabel "12A" 100 50])
      none).map (·.point) = [(100, 50)] := by decide +kernel
  have hpage : ∀ polyItem ∈ [squareParcel 1 0, squareParcel 2 100], ∀ coords ∈ polyItem.ring,
      ∃ d, placeOf ⟨some package, .exact, sampleSqrt⟩ coords (100, 50) = .ok (true, some d) := by
    intro polyItem hpoly coords hcoords
    have hrings : [squareParcel 1 0, squareParcel 2 100].map (·.ring) =
        [some (closed (squareVertices 0)), some (closed (squareVertices 100))] := by
      decide +kernel
    have hring : polyItem.ring ∈
        [some (closed (squareVertices 0)), some (closed (squareVertices 100))] :=
      hrings ▸ List.mem_map_of_mem hpoly
    rw [Option.mem_def.mp hcoords, List.mem_pair, Option.some_inj, Option.some_inj] at hring
    rcases hring with rfl | rfl
    · exact hinside _ simpleRing_square.1 sharedEdge_onRing.1
    · exact hinside _ simpleRing_square.2 sharedEdge_onRing.2
  refine ⟨package, hexact, simpleRing_square.2, ?_, by decide +kernel, ?_, by decide +kernel⟩
  · obtain ⟨d, hplace⟩ := hinside _ simpleRing_square.2 sharedEdge_onRing.2
    rw [hplace]
    rfl
  · have hsame : boundWith (some package) [squareParcel 1 0, squareParcel 2 100] =
        boundWith (some everywherePackage) [squareParcel 1 0, squareParcel 2 100] := by
      refine bindSurveyLabels_congr fun polyItem hpoly coords hcoords lbl hlbl => ?_
      have hpoint : lbl.point ∈ [((100, 50) : Point)] := hlabels ▸ List.mem_map_of_mem hlbl
      rw [List.mem_singleton.mp hpoint]
      obtain ⟨d, hplace⟩ := hpage polyItem hpoly coords hcoords
      exact ⟨true, some d, some 0, hplace, rfl, fun h => absurd h (by decide)⟩
    rw [hsame]
    decide +kernel

/-- On the right edge of a parcel alone both tests find the label inside. -/
theorem bindSurveyLabels_rightEdge :
    ((placeOf ⟨some (polygonPackage sampleSqrt), .exact, sampleSqrt⟩ (closed (squareVertices 0))
        (100, 50)).map Prod.fst =
      (placeOf ⟨none, .exact, sampleSqrt⟩ (closed (squareVertices 0)) (100, 50)).map Prod.fst) ∧
    boundWith (some (polygonPackage sampleSqrt)) [squareParcel 1 0] =
      boundWith none [squareParcel 1 0] := by
  have hentered : EnteredLeft (squareVertices 0) (100, 50) :=
    (pointInPolygonRing_iff simpleRing_square.1 _).mp (by decide +kernel)
  obtain ⟨hplace, hbind⟩ :=
    bindSurveyLabels_without_package (polygonPackage_placesExactly sampleSqrt)
  refine ⟨(hplace _ simpleRing_square.1 _).mpr fun _ => hentered, hbind _ _ _ _ _ ?_⟩
  intro polyItem hpoly coords hcoords
  obtain rfl := List.mem_singleton.mp hpoly
  have hring : (squareParcel 1 0).ring = some (closed (squareVertices 0)) := by decide +kernel
  refine ⟨squareVertices 0, simpleRing_square.1, Option.some.inj (hcoords.symm.trans hring), ?_⟩
  intro lbl hlbl _
  have hlabels : (preparedOf planarBuiltins.toConversions .exact (.list [pointLabel "12A" 100 50])
      none).map (·.point) = [(100, 50)] := by decide +kernel
  have hpoint : lbl.point ∈ [((100, 50) : Point)] := hlabels ▸ List.mem_map_of_mem hlbl
  rw [List.mem_singleton.mp hpoint]
  exact hentered

end LandRecords.Parcels
