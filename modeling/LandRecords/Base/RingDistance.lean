import LandRecords.Base.Enclosed
import LandRecords.Base.PlaneTurns

/-! The distance of a point from a segment, a ring and a closed polygon, by the least of the squared
distances from their points. Outside a polygon its ring is nearest. -/
namespace LandRecords.Rings

open EdgeSums Plane

variable {K : Type*} [Field K] [LinearOrder K] [IsStrictOrderedRing K]
variable {a b p q s : K × K} {m : K} {vertices : List (K × K)}

/-- How far along the segment its point nearest to `p` is. -/
def nearestWeight (p a b : K × K) : K :=
  max 0 (min 1 (((p.1 - a.1) * (b.1 - a.1) + (p.2 - a.2) * (b.2 - a.2)) /
    ((b.1 - a.1) * (b.1 - a.1) + (b.2 - a.2) * (b.2 - a.2))))

def nearestPoint (p a b : K × K) : K × K :=
  (a.1 + nearestWeight p a b * (b.1 - a.1), a.2 + nearestWeight p a b * (b.2 - a.2))

theorem nearestPoint_mem (p a b : K × K) : nearestPoint p a b ∈ segment K a b := by
  rw [segment_eq_image']
  refine ⟨nearestWeight p a b, ⟨le_max_left _ _, max_le zero_le_one (min_le_left _ _)⟩, ?_⟩
  simp [nearestPoint, Prod.ext_iff]

/-- The square of a clamped quotient's distance: no weight of the unit interval does better. -/
theorem clamp_minimises {length along u : K} (hpos : 0 < length) (hu : 0 ≤ u) (hu' : u ≤ 1) :
    max 0 (min 1 (along / length)) * (length * max 0 (min 1 (along / length)) - 2 * along) ≤
      u * (length * u - 2 * along) := by
  rcases le_total (along / length) 0 with hlow | hlow
  · have halong : along ≤ 0 := by rwa [div_le_iff₀ hpos, zero_mul] at hlow
    rw [min_eq_right (hlow.trans zero_le_one), max_eq_left hlow]
    nlinarith [mul_nonneg hu hpos.le, mul_nonneg (mul_nonneg hu hu) hpos.le]
  · rcases le_total 1 (along / length) with hhigh | hhigh
    · have halong : length ≤ along := by rwa [le_div_iff₀ hpos, one_mul] at hhigh
      rw [min_eq_left hhigh, max_eq_right zero_le_one]
      nlinarith [mul_nonneg (sub_nonneg.mpr hu') (sub_nonneg.mpr halong),
        mul_nonneg (mul_nonneg (sub_nonneg.mpr hu') (sub_nonneg.mpr hu')) hpos.le]
    · have halong : along = length * (along / length) := by field_simp
      rw [min_eq_right hhigh, max_eq_right hlow]
      nlinarith [mul_nonneg (mul_self_nonneg (u - along / length)) hpos.le]

omit [LinearOrder K] [IsStrictOrderedRing K] in
theorem squaredDistance_along (t : K) :
    squaredDistance p (a + t • (b - a)) = squaredDistance p a +
      t * (((b.1 - a.1) * (b.1 - a.1) + (b.2 - a.2) * (b.2 - a.2)) * t -
        2 * ((p.1 - a.1) * (b.1 - a.1) + (p.2 - a.2) * (b.2 - a.2))) := by
  simp only [squaredDistance, Prod.fst_add, Prod.snd_add, Prod.smul_fst, Prod.smul_snd,
    Prod.fst_sub, Prod.snd_sub, smul_eq_mul]
  ring

theorem isLeast_segment (p a b : K × K) :
    IsLeast (squaredDistance p '' segment K a b) (squaredDistance p (nearestPoint p a b)) := by
  refine ⟨⟨_, nearestPoint_mem p a b, rfl⟩, ?_⟩
  rintro _ ⟨s, hs, rfl⟩
  by_cases hab : a = b
  · subst hab
    have hsame : ∀ r ∈ segment K a a, r = a := by
      intro r hr
      rwa [segment_same] at hr
    rw [hsame s hs, hsame _ (nearestPoint_mem p a a)]
  · have hpos : 0 < (b.1 - a.1) * (b.1 - a.1) + (b.2 - a.2) * (b.2 - a.2) := by
      rcases eq_or_ne (b.1 - a.1) 0 with hfst | hfst
      · have hsnd : b.2 - a.2 ≠ 0 := by
          intro hsnd
          exact hab (Prod.ext (sub_eq_zero.mp hfst).symm (sub_eq_zero.mp hsnd).symm)
        rw [hfst, zero_mul, zero_add]
        exact mul_self_pos.mpr hsnd
      · exact add_pos_of_pos_of_nonneg (mul_self_pos.mpr hfst) (mul_self_nonneg _)
    rw [segment_eq_image'] at hs
    obtain ⟨u, ⟨hu, hu'⟩, rfl⟩ := hs
    have hnearest : nearestPoint p a b = a + nearestWeight p a b • (b - a) := by
      simp [nearestPoint, Prod.ext_iff]
    rw [hnearest, squaredDistance_along, squaredDistance_along]
    exact add_le_add_right (clamp_minimises hpos hu hu') _

theorem isLeast_onRing
    (h : ((edges (closed vertices)).map fun e => squaredDistance p (nearestPoint p e.1 e.2)).min? =
      some m) : IsLeast (squaredDistance p '' onRing vertices) m := by
  obtain ⟨hmem, hle⟩ := List.min?_eq_some_iff.mp h
  obtain ⟨e, he, rfl⟩ := List.mem_map.mp hmem
  refine ⟨⟨_, ⟨e, he, nearestPoint_mem p e.1 e.2⟩, rfl⟩, ?_⟩
  rintro _ ⟨s, ⟨f, hf, hs⟩, rfl⟩
  exact (hle _ (List.mem_map_of_mem hf)).trans ((isLeast_segment p f.1 f.2).2 ⟨s, hs, rfl⟩)

/-! ### The inside -/

theorem squaredDistance_nonneg (p q : K × K) : 0 ≤ squaredDistance p q := by
  unfold squaredDistance
  positivity

theorem squaredDistance_le_of_mem (hs : s ∈ segment K p q) :
    squaredDistance p s ≤ squaredDistance p q := by
  rw [segment_eq_image'] at hs
  obtain ⟨t, ⟨ht, ht'⟩, rfl⟩ := hs
  have hscale : squaredDistance p (p + t • (q - p)) = t * t * squaredDistance p q := by
    simp only [squaredDistance, Prod.fst_add, Prod.snd_add, Prod.smul_fst, Prod.smul_snd,
      Prod.fst_sub, Prod.snd_sub, smul_eq_mul]
    ring
  rw [hscale]
  exact mul_le_of_le_one_left (squaredDistance_nonneg p q) (mul_le_one₀ ht' ht ht')

omit [IsStrictOrderedRing K] in
/-- From outside to a point inside the way meets the ring. -/
theorem exists_onRing_between (hp : p ∉ closedPolygon vertices) (hq : q ∈ enclosed vertices) :
    ∃ s ∈ onRing vertices, s ∈ segment K p q := by
  by_contra hnone
  have havoids : Avoids vertices p q :=
    Set.disjoint_left.mpr fun s hs hon => hnone ⟨s, hon, hs⟩
  have hescapes : Escapes vertices p := by
    by_contra hinside
    exact hp (.inr ⟨fun hon => hp (.inl hon), hinside⟩)
  exact hq.2 (hescapes.of_joined (Joined.symm (.single havoids)))

theorem isLeast_of_mem (hp : p ∈ closedPolygon vertices) :
    IsLeast (squaredDistance p '' closedPolygon vertices) 0 := by
  refine ⟨⟨p, hp, by simp [squaredDistance]⟩, ?_⟩
  rintro _ ⟨q, -, rfl⟩
  exact squaredDistance_nonneg p q

theorem isLeast_closedPolygon (hp : p ∉ closedPolygon vertices)
    (h : IsLeast (squaredDistance p '' onRing vertices) m) :
    IsLeast (squaredDistance p '' closedPolygon vertices) m := by
  refine ⟨Set.image_mono Set.subset_union_left h.1, ?_⟩
  rintro _ ⟨q, hq | hq, rfl⟩
  · exact h.2 ⟨q, hq, rfl⟩
  · obtain ⟨s, hs, hmem⟩ := exists_onRing_between hp hq
    exact (h.2 ⟨s, hs, rfl⟩).trans (squaredDistance_le_of_mem hmem)

end LandRecords.Rings
