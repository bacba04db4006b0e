import LandRecords.Base.SimpleRings

/-! The inside of a simple ring: the points from which no path that avoids the ring gets far. From
exactly these a ray crosses the ring an odd number of times. -/
namespace LandRecords.Rings

open EdgeSums Planar Filter Topology

variable {K : Type*} [Field K] [LinearOrder K]

def Escapes (vertices : List (K × K)) (p : K × K) : Prop :=
  ∀ r, ∃ q, Joined vertices p q ∧ (r < |q.1| ∨ r < |q.2|)

def enclosed (vertices : List (K × K)) : Set (K × K) :=
  {p | p ∉ onRing vertices ∧ ¬ Escapes vertices p}

def closedPolygon (vertices : List (K × K)) : Set (K × K) := onRing vertices ∪ enclosed vertices

variable {a b c d p q s : K × K} {path vertices : List (K × K)}

theorem Escapes.of_joined (h : Joined vertices p q) (hq : Escapes vertices q) :
    Escapes vertices p := by
  intro r
  obtain ⟨far, hjoined, hfar⟩ := hq r
  exact ⟨far, h.trans hjoined, hfar⟩

variable [IsStrictOrderedRing K]

/-! ### Far points -/

omit [IsStrictOrderedRing K] in
theorem exists_bound (vertices : List (K × K)) : ∃ r, ∀ v ∈ vertices, |v.1| ≤ r ∧ |v.2| ≤ r := by
  induction vertices with
  | nil => exact ⟨0, fun v hv => by cases hv⟩
  | cons a vertices ih =>
    obtain ⟨r, hr⟩ := ih
    refine ⟨max r (max |a.1| |a.2|), List.forall_mem_cons.mpr ⟨?_, fun v hv => ?_⟩⟩
    · simp
    · exact ⟨(hr v hv).1.trans (le_max_left _ _), (hr v hv).2.trans (le_max_left _ _)⟩

theorem notMem_onRing_of_behind (hbehind : ∀ v ∈ vertices, cross d p < cross d v) :
    p ∉ onRing vertices := by
  rintro ⟨e, he, hp⟩
  obtain ⟨ha, hb⟩ := mem_of_mem_edges he
  exact lt_irrefl _ (lt_cross_of_mem_segment (hbehind _ ha) (hbehind _ hb) hp)

theorem rayParity_of_far {r : K} (hr : ∀ v ∈ vertices, |v.1| ≤ r ∧ |v.2| ≤ r)
    (hq : r < |q.1| ∨ r < |q.2|) (hd : d ≠ 0) : rayParity q d vertices = 0 := by
  have hdirection : ∃ e ≠ (0 : K × K), ∀ v ∈ vertices, cross (leftward e) q < cross (leftward e) v := by
    rcases hq with hq | hq <;> rcases lt_abs.mp hq with hq | hq
    · refine ⟨(1, 0), by simp, fun v hv => ?_⟩
      have hv := (abs_le.mp (hr v hv).1).2
      simp only [cross, leftward]
      linarith
    · refine ⟨(-1, 0), by simp, fun v hv => ?_⟩
      have hv := (abs_le.mp (hr v hv).1).1
      simp only [cross, leftward]
      linarith
    · refine ⟨(0, 1), by simp, fun v hv => ?_⟩
      have hv := (abs_le.mp (hr v hv).2).2
      simp only [cross, leftward]
      linarith
    · refine ⟨(0, -1), by simp, fun v hv => ?_⟩
      have hv := (abs_le.mp (hr v hv).2).1
      simp only [cross, leftward]
      linarith
  obtain ⟨e, he, hbehind⟩ := hdirection
  rw [rayParity_direction hd he (notMem_onRing_of_behind hbehind), rayParity_of_behind hbehind]

theorem escapes_of_right (h : ∀ v ∈ vertices, v.1 < p.1) : Escapes vertices p := by
  intro r
  refine ⟨(max p.1 (r + 1), p.2), .single (Set.disjoint_right.mpr ?_), .inl ?_⟩
  · rintro s ⟨e, he, hs⟩ hps
    obtain ⟨ha, hb⟩ := mem_of_mem_edges he
    have hfirst : ∀ v : K × K, cross (0, -1) v = v.1 := by
      intro v
      simp [cross]
    have hline := disjoint_of_line (a := p) (b := (max p.1 (r + 1), p.2)) (c := e.1) (d := e.2)
      (0, -1) (max e.1.1 e.2.1) (by rw [hfirst]; exact max_lt (h _ ha) (h _ hb))
      (by rw [hfirst]; exact (max_lt (h _ ha) (h _ hb)).trans_le (le_max_left _ _))
      (by rw [hfirst]; exact le_max_left _ _) (by rw [hfirst]; exact le_max_right _ _)
    exact Set.disjoint_left.mp hline hps hs
  · exact ((lt_add_one r).trans_le (le_max_right _ _)).trans_le (le_abs_self _)

theorem rayParity_of_joined (hd : d ≠ 0) (hp : p ∉ onRing vertices) (h : Joined vertices p q) :
    q ∉ onRing vertices ∧ rayParity p d vertices = rayParity q d vertices := by
  induction h with
  | refl => exact ⟨hp, rfl⟩
  | @tail b c _ hlast ih =>
    obtain ⟨hb, hparity⟩ := ih
    have hc : c ∉ onRing vertices := Set.disjoint_left.mp hlast (right_mem_segment K b c)
    refine ⟨hc, hparity.trans ?_⟩
    by_cases hbc : b = c
    · rw [hbc]
    · have hne : c - b ≠ 0 := sub_ne_zero.mpr (Ne.symm hbc)
      rw [rayParity_direction hd hne hb, rayParity_of_avoids hlast, rayParity_direction hne hd hc]

theorem not_escapes_of_rayParity (hd : d ≠ 0) (hp : p ∉ onRing vertices)
    (hodd : rayParity p d vertices = 1) : ¬ Escapes vertices p := by
  intro hescapes
  obtain ⟨r, hr⟩ := exists_bound vertices
  obtain ⟨q, hjoined, hfar⟩ := hescapes r
  rw [(rayParity_of_joined hd hp hjoined).2, rayParity_of_far hr hfar hd] at hodd
  exact zero_ne_one hodd

/-! ### The first hit of a ray -/

def Generic (vertices : List (K × K)) (p d : K × K) : Prop := ∀ v ∈ vertices, cross d (v - p) ≠ 0

theorem exists_generic (hp : p ∉ vertices) : ∃ k : K, Generic vertices p (1, k) := by
  obtain ⟨k, hk⟩ := Infinite.exists_notMem_finset
    (vertices.map fun v => (v.2 - p.2) / (v.1 - p.1)).toFinset
  refine ⟨k, fun v hv hzero => ?_⟩
  rw [List.mem_toFinset, List.mem_map, not_exists] at hk
  have hline : v.2 - p.2 = k * (v.1 - p.1) := by
    simp only [cross, Prod.fst_sub, Prod.snd_sub] at hzero
    linarith
  by_cases hfst : v.1 - p.1 = 0
  · rw [hfst, mul_zero, sub_eq_zero] at hline
    exact hp (Prod.ext (sub_eq_zero.mp hfst) hline ▸ hv)
  · exact hk v ⟨hv, by rw [hline, mul_div_assoc, div_self hfst, mul_one]⟩

theorem cross_ne_zero_of_hit (ha : cross d (a - p) ≠ 0) {t : K}
    (hs : p + t • d ∈ segment K a b) :
    cross d (b - a) ≠ 0 ∧ (p + t • d) - a = (-cross d (a - p) / cross d (b - a)) • (b - a) := by
  rw [segment_eq_image'] at hs
  obtain ⟨u, -, hu⟩ := hs
  have hsum : cross d (a - p) + u * cross d (b - a) = 0 := by
    have hline : cross d (a + u • (b - a) - p) = 0 := by
      dsimp only at hu
      rw [hu, add_sub_cancel_left, cross_smul, cross_self, mul_zero]
    rw [add_sub_right_comm, cross_add, cross_smul] at hline
    exact hline
  have hne : cross d (b - a) ≠ 0 := by
    intro hzero
    rw [hzero, mul_zero, add_zero] at hsum
    exact ha hsum
  refine ⟨hne, ?_⟩
  have hu' : u = -cross d (a - p) / cross d (b - a) := by
    field_simp
    linarith
  rw [← hu', ← hu]
  exact add_sub_cancel_left _ _

theorem hit_unique (ha : cross d (a - p) ≠ 0) {t t' : K} (h : p + t • d ∈ segment K a b)
    (h' : p + t' • d ∈ segment K a b) : t = t' := by
  have hd : d ≠ 0 := by
    rintro rfl
    simp [cross] at ha
  have hsame : p + t • d - a = p + t' • d - a := by
    rw [(cross_ne_zero_of_hit ha h).2, (cross_ne_zero_of_hit ha h').2]
  rw [sub_left_inj, add_right_inj] at hsame
  exact smul_left_injective K hd hsame

theorem finite_hits (hgeneric : Generic vertices p d) :
    {t : K | 0 < t ∧ p + t • d ∈ onRing vertices}.Finite := by
  have hsubset : {t : K | 0 < t ∧ p + t • d ∈ onRing vertices} ⊆
      ⋃ e ∈ {e | e ∈ edges (closed vertices)}, {t : K | p + t • d ∈ segment K e.1 e.2} := by
    rintro t ⟨-, e, he, ht⟩
    exact Set.mem_biUnion he ht
  refine Set.Finite.subset ((List.finite_toSet _).biUnion fun e he => ?_) hsubset
  exact Set.Subsingleton.finite fun t ht t' ht' =>
    hit_unique (hgeneric _ (mem_of_mem_edges he).1) ht ht'

theorem exists_first_hit (hgeneric : Generic vertices p d)
    (hhit : ∃ t : K, 0 < t ∧ p + t • d ∈ onRing vertices) :
    ∃ t : K, 0 < t ∧ p + t • d ∈ onRing vertices ∧
      ∀ u, 0 < u → u < t → p + u • d ∉ onRing vertices := by
  obtain ⟨t, ⟨hpos, ht⟩, hfirst⟩ := Set.exists_min_image _ id (finite_hits hgeneric) hhit
  exact ⟨t, hpos, ht, fun u hu hlt hmem => (hfirst u ⟨hu, hmem⟩).not_gt hlt⟩

theorem escapes_of_no_hit {k : K} (hp : p ∉ onRing vertices)
    (hnone : ∀ t : K, 0 < t → p + t • ((1, k) : K × K) ∉ onRing vertices) : Escapes vertices p := by
  intro r
  have hfar : 0 < |r| + |p.1| + 1 := by positivity
  refine ⟨p + (|r| + |p.1| + 1) • ((1, k) : K × K), .single (Set.disjoint_left.mpr ?_), .inl ?_⟩
  · rw [segment_eq_image']
    rintro s ⟨u, ⟨hu, -⟩, rfl⟩
    dsimp only
    rw [add_sub_cancel_left, smul_smul]
    rcases hu.eq_or_lt with rfl | hu
    · rwa [zero_mul, zero_smul, add_zero]
    · exact hnone _ (mul_pos hu hfar)
  · refine lt_of_lt_of_le ?_ (le_abs_self _)
    simp only [Prod.fst_add, Prod.smul_fst, smul_eq_mul, mul_one]
    linarith [le_abs_self r, neg_abs_le p.1]

/-! ### The sides of the ring -/

variable [TopologicalSpace K] [OrderTopology K] {σ : K} {x y : K × K}

theorem SimpleRing.eventually_slide (hsimple : SimpleRing vertices)
    (h : a :: b :: c :: path ~r vertices) (hσ : σ ≠ 0) (hs : s ∈ openSegment K a b)
    (hy : 0 < σ * cross (b - a) y) : ∀ᶠ t in 𝓝[>] (0 : K),
      Avoids vertices (s + t • y) (midpoint K a b + t • σ • leftward (b - a)) := by
  have hne := hsimple.ne h
  have hline : cross (b - a) (s - a) = 0 := by
    have hturn := turn_of_mem_segment (openSegment_subset_segment K a b hs)
    rwa [turn_eq_cross] at hturn
  have hleft : 0 < σ * cross (b - a) (σ • leftward (b - a)) := by
    have hpos := cross_leftward_pos (sub_ne_zero.mpr hne.symm)
    rw [cross_smul, ← mul_assoc]
    exact mul_pos (mul_self_pos.mpr hσ) hpos
  have hinner : segment K s (midpoint K a b) ⊆ openSegment K a b :=
    (convex_openSegment a b).segment_subset hs (midpoint_mem_openSegment a b)
  have hother : ∀ e ∈ edges (b :: c :: path ++ [a]), ∀ᶠ t in 𝓝[>] (0 : K),
      Disjoint (segment K (s + t • y) (midpoint K a b + t • σ • leftward (b - a)))
        (segment K e.1 e.2) := by
    intro e he
    refine eventually_disjoint (Set.disjoint_left.mpr fun u hu hmem => ?_) _ _
    have hopen := hinner hu
    rcases hsimple.first_of_mem h he (openSegment_subset_segment K a b hopen) hmem with rfl | rfl
    · exact hne (left_mem_openSegment_iff.mp hopen)
    · exact hne (right_mem_openSegment_iff.mp hopen)
  refine eventually_disjoint_onRing fun e he => ?_
  rw [← (edges_closed_isRotated h).mem_iff, closed_cons, List.cons_append, List.cons_append,
    edges_cons_cons, List.mem_cons] at he
  rcases he with rfl | he
  · filter_upwards [self_mem_nhdsWithin] with t ht
    exact disjoint_beside hline (cross_midpoint a b) ht hy hleft
  · exact hother e he

theorem SimpleRing.beside_of_first_hit (hsimple : SimpleRing vertices)
    (h : a :: b :: c :: path ~r vertices) (hp : p ∉ onRing vertices) {t : K} (hpos : 0 < t)
    (hopen : p + t • d ∈ openSegment K a b)
    (hfirst : ∀ u, 0 < u → u < t → p + u • d ∉ onRing vertices) (hσ : σ ≠ 0)
    (hside : 0 < σ * cross (b - a) (-d)) : Beside vertices σ a b p := by
  have hback : ∀ u, 0 < u → u < t → Avoids vertices p (p + t • d + u • -d) := by
    intro u hu hut
    have hend : p + t • d + u • -d = p + (t - u) • d := by
      rw [smul_neg, sub_smul]
      abel
    rw [hend, Avoids, Set.disjoint_left, segment_eq_image']
    rintro s ⟨w, ⟨hw, hw'⟩, rfl⟩
    dsimp only
    rw [add_sub_cancel_left, smul_smul]
    rcases hw.eq_or_lt with rfl | hw
    · rwa [zero_mul, zero_smul, add_zero]
    · exact hfirst _ (by nlinarith) (by nlinarith)
  filter_upwards [hsimple.eventually_slide h hσ hopen hside, Ioo_mem_nhdsGT hpos] with u hslide hu
  exact .head (hback u hu.1 hu.2) (.single hslide)

theorem SimpleRing.beside_of_hit (hsimple : SimpleRing vertices) (hp : p ∉ onRing vertices)
    (hgeneric : Generic vertices p d) (hhit : ∃ t : K, 0 < t ∧ p + t • d ∈ onRing vertices) :
    ∃ a b path, a :: b :: path ~r vertices ∧
      (Beside vertices 1 a b p ∨ Beside vertices (-1) a b p) := by
  obtain ⟨t, hpos, ⟨e, he, hs⟩, hfirst⟩ := exists_first_hit hgeneric hhit
  obtain ⟨ha, hb⟩ := mem_of_mem_edges he
  have hthree := hsimple.three_le
  obtain ⟨path, hrotated⟩ := (mem_edges_closed_iff (by omega)).mp he
  have hlength := hrotated.perm.length_eq
  cases path with
  | nil =>
    rw [← hlength] at hthree
    simp at hthree
  | cons c path =>
    have hends : ∀ v ∈ vertices, v ≠ p + t • d := by
      rintro v hv rfl
      exact hgeneric _ hv (by rw [add_sub_cancel_left, cross_smul, cross_self, mul_zero])
    have hopen := mem_openSegment_of_ne_left_right (hends _ ha) (hends _ hb) hs
    have hbeside : ∀ σ : K, σ ≠ 0 → 0 < σ * cross (e.2 - e.1) (-d) →
        Beside vertices σ e.1 e.2 p :=
      fun σ => hsimple.beside_of_first_hit hrotated hp hpos hopen hfirst
    refine ⟨e.1, e.2, c :: path, hrotated, ?_⟩
    have hcross := (cross_ne_zero_of_hit (hgeneric _ ha) hs).1
    rw [cross_comm] at hcross
    rcases hcross.lt_or_gt with hside | hside
    · exact .inr (hbeside (-1) (neg_ne_zero.mpr one_ne_zero) (by rw [cross_neg]; linarith))
    · exact .inl (hbeside 1 one_ne_zero (by rw [cross_neg]; linarith))

omit [TopologicalSpace K] [OrderTopology K] in
theorem crossesRay_beside (hne : a ≠ b) {t u : K} (hu : 0 < u) (ht : t ≠ 0) :
    crossesRay (midpoint K a b + t • leftward (b - a)) (u • leftward (b - a)) a b =
      decide (t < 0) := by
  have hpos := cross_leftward_pos (sub_ne_zero.mpr hne.symm)
  have hpoint : midpoint K a b + t • leftward (b - a) - a =
      (2 : K)⁻¹ • (b - a) + t • leftward (b - a) := by
    rw [add_sub_right_comm, midpoint_sub]
  have hturn : turn (midpoint K a b + t • leftward (b - a)) a b =
      t * cross (b - a) (leftward (b - a)) := by
    rw [turn_cycle, turn_eq_cross, hpoint, cross_add, cross_smul, cross_self, mul_zero, zero_add,
      cross_smul]
  have hback : cross (leftward (b - a)) (b - a) = -cross (b - a) (leftward (b - a)) :=
    cross_comm _ _
  have hfirst : cross (u • leftward (b - a)) (a - (midpoint K a b + t • leftward (b - a))) =
      u * (2⁻¹ * cross (b - a) (leftward (b - a))) := by
    have hflip : a - (midpoint K a b + t • leftward (b - a)) =
        -(midpoint K a b + t • leftward (b - a) - a) := (neg_sub _ _).symm
    rw [hflip, hpoint, cross_neg, cross_add, smul_cross, smul_cross, cross_smul, cross_smul,
      cross_self, hback]
    ring
  have hsecond : cross (u • leftward (b - a)) (b - (midpoint K a b + t • leftward (b - a))) =
      -(u * (2⁻¹ * cross (b - a) (leftward (b - a)))) := by
    have hb : b - (midpoint K a b + t • leftward (b - a)) =
        (b - a) + (a - (midpoint K a b + t • leftward (b - a))) := by abel
    rw [hb, cross_add, hfirst, smul_cross, hback]
    ring
  have hhalf : 0 < u * (2⁻¹ * cross (b - a) (leftward (b - a))) := by positivity
  unfold crossesRay
  rw [hfirst, hsecond, hturn]
  rcases ht.lt_or_gt with hneg | hpos'
  · have hright := mul_neg_of_neg_of_pos hneg hpos
    simp [hneg, hright, hhalf.le, hhalf]
  · have hleft := mul_pos hpos' hpos
    simp [hpos'.not_gt, hleft.not_gt, hhalf.not_gt]

theorem SimpleRing.rayParity_beside (hsimple : SimpleRing vertices)
    (h : a :: b :: c :: path ~r vertices) (hd : d ≠ 0) (hp : p ∉ onRing vertices)
    (hq : q ∉ onRing vertices) (hleft : Beside vertices 1 a b p)
    (hright : Beside vertices (-1) a b q) :
    rayParity q d vertices = 1 + rayParity p d vertices := by
  have hne := hsimple.ne h
  have hmiddle := midpoint_mem_openSegment (𝕜 := K) a b
  have hother : ∀ e ∈ edges (b :: c :: path ++ [a]), ∀ᶠ t in 𝓝[>] (0 : K),
      Disjoint (segment K (midpoint K a b + t • (-1 : K) • leftward (b - a))
        (midpoint K a b + t • (1 : K) • leftward (b - a))) (segment K e.1 e.2) := by
    intro e he
    refine eventually_disjoint (Set.disjoint_left.mpr fun u hu hmem => ?_) _ _
    rw [segment_same, Set.mem_singleton_iff] at hu
    subst hu
    rcases hsimple.first_of_mem h he (openSegment_subset_segment K a b hmiddle) hmem with heq | heq
    · rw [heq] at hmiddle
      exact hne (left_mem_openSegment_iff.mp hmiddle)
    · rw [heq] at hmiddle
      exact hne (right_mem_openSegment_iff.mp hmiddle)
  obtain ⟨t, hpt, hqt, hmiss, ht⟩ := (hleft.and (hright.and
    (((eventually_all_finite (List.finite_toSet _)).mpr hother).and self_mem_nhdsWithin))).exists
  have hpl : midpoint K a b + t • (1 : K) • leftward (b - a) =
      midpoint K a b + t • leftward (b - a) := by rw [one_smul]
  have hqr : midpoint K a b + t • (-1 : K) • leftward (b - a) =
      midpoint K a b + (-t) • leftward (b - a) := by rw [neg_one_smul, smul_neg, neg_smul]
  rw [hpl] at hpt
  rw [hqr] at hqt
  rw [hpl, hqr] at hmiss
  have hacross : midpoint K a b + t • leftward (b - a) -
      (midpoint K a b + (-t) • leftward (b - a)) = (2 * t) • leftward (b - a) := by
    rw [add_sub_add_left_eq_sub, ← sub_smul]
    congr 1
    ring
  have hdirection : (2 * t) • leftward (b - a) ≠ 0 := by
    intro hzero
    have hpos := cross_leftward_pos (sub_ne_zero.mpr hne.symm)
    rcases smul_eq_zero.mp hzero with htwo | hleftward
    · linarith
    · rw [hleftward] at hpos
      simp [cross] at hpos
  obtain ⟨hl, hpl⟩ := rayParity_of_joined hd hp hpt
  obtain ⟨hr, hqr⟩ := rayParity_of_joined hd hq hqt
  have hrest : pathSum (fun v w => bit (crossesRay (midpoint K a b + (-t) • leftward (b - a))
        ((2 * t) • leftward (b - a)) v w)) (b :: c :: path ++ [a]) =
      pathSum (fun v w => bit (crossesRay (midpoint K a b + t • leftward (b - a))
        ((2 * t) • leftward (b - a)) v w)) (b :: c :: path ++ [a]) := by
    refine pathSum_congr fun e he => ?_
    have hadd := crossesRay_add (hmiss e he)
    rw [hacross] at hadd
    rw [hadd]
  rw [hpl, hqr, rayParity_direction hd hdirection hl, rayParity_direction hd hdirection hr,
    rayParity, rayParity, ringSum_isRotated h.symm, ringSum_isRotated h.symm, ringSum, ringSum,
    closed_cons, List.cons_append, List.cons_append, pathSum_cons_cons, pathSum_cons_cons,
    ← List.cons_append, hrest, crossesRay_beside hne (by linarith) (neg_ne_zero.mpr ht.ne'),
    crossesRay_beside hne (by linarith) ht.ne']
  simp [ht, ht.not_gt, bit]

omit [TopologicalSpace K] [OrderTopology K] in
theorem SimpleRing.midpoint_notMem (hsimple : SimpleRing vertices)
    (h : a :: b :: c :: path ~r vertices) : midpoint K a b ∉ vertices := by
  intro hmem
  have hne := hsimple.ne h
  have hopen := midpoint_mem_openSegment (𝕜 := K) a b
  obtain ⟨e, he, hfst⟩ := exists_edge_of_mem hmem
  have hon : midpoint K a b ∈ segment K e.1 e.2 := hfst ▸ left_mem_segment K e.1 e.2
  rw [← (edges_closed_isRotated h).mem_iff, closed_cons, List.cons_append, List.cons_append,
    edges_cons_cons, List.mem_cons] at he
  have hend : midpoint K a b = a ∨ midpoint K a b = b := by
    rcases he with rfl | he
    · exact .inl hfst.symm
    · exact hsimple.first_of_mem h he (openSegment_subset_segment K a b hopen) hon
  rcases hend with heq | heq
  · rw [heq] at hopen
    exact hne (left_mem_openSegment_iff.mp hopen)
  · rw [heq] at hopen
    exact hne (right_mem_openSegment_iff.mp hopen)

theorem SimpleRing.exists_far (hsimple : SimpleRing vertices) :
    ∃ z, Escapes vertices z ∧ z ∉ onRing vertices ∧
      (∀ d : K × K, d ≠ 0 → rayParity z d vertices = 0) ∧
      ∃ a b path, a :: b :: path ~r vertices ∧
        (Beside vertices 1 a b z ∨ Beside vertices (-1) a b z) := by
  have hthree := hsimple.three_le
  match hvertices : vertices, hthree with
  | a :: b :: c :: path, _ =>
    rw [← hvertices] at hsimple ⊢
    have hrotated : a :: b :: c :: path ~r vertices := by rw [hvertices]
    obtain ⟨k, hk⟩ := exists_generic (hsimple.midpoint_notMem hrotated)
    obtain ⟨r, hr⟩ := exists_bound vertices
    have hr0 : 0 ≤ r := (abs_nonneg a.1).trans (hr a (by simp [hvertices])).1
    -- far along the generic line through the middle of an edge
    obtain ⟨t, ht⟩ : ∃ t, t = r + |(midpoint K a b).1| + 1 := ⟨_, rfl⟩
    have hpos : 0 < t := by rw [ht]; positivity
    have hfst : (midpoint K a b + t • ((1, k) : K × K)).1 = (midpoint K a b).1 + t := by
      simp
    have hfar : r < (midpoint K a b + t • ((1, k) : K × K)).1 := by
      rw [hfst]
      linarith [neg_abs_le (midpoint K a b).1]
    have hbehind : ∀ v ∈ vertices, v.1 < (midpoint K a b + t • ((1, k) : K × K)).1 :=
      fun v hv => ((le_abs_self _).trans (hr v hv).1).trans_lt hfar
    have hoff : midpoint K a b + t • ((1, k) : K × K) ∉ onRing vertices := by
      refine notMem_onRing_of_behind (d := (0, 1)) fun v hv => ?_
      simp only [cross]
      linarith [hbehind v hv]
    have hgeneric : Generic vertices (midpoint K a b + t • ((1, k) : K × K)) (-(1, k)) := by
      intro v hv hzero
      rw [neg_cross, neg_eq_zero, ← sub_sub, cross_sub, cross_smul, cross_self, mul_zero,
        sub_zero] at hzero
      exact hk v hv hzero
    have hmiddle : midpoint K a b ∈ onRing vertices :=
      ⟨(a, b), (mem_edges_closed_iff (by omega)).mpr ⟨_, hrotated⟩, midpoint_mem_segment a b⟩
    have hback : midpoint K a b + t • ((1, k) : K × K) + t • -((1, k) : K × K) =
        midpoint K a b := by
      rw [smul_neg]
      abel
    refine ⟨_, escapes_of_right hbehind, hoff, fun d hd => ?_,
      hsimple.beside_of_hit hoff hgeneric ⟨t, hpos, hback.symm ▸ hmiddle⟩⟩
    exact rayParity_of_far hr (.inl (hfar.trans_le (le_abs_self _))) hd

/-- Off a simple ring, a point that is crossed an even number of times escapes. -/
theorem SimpleRing.escapes_of_rayParity (hsimple : SimpleRing vertices) (hp : p ∉ onRing vertices)
    (hd : d ≠ 0) (heven : rayParity p d vertices = 0) : Escapes vertices p := by
  obtain ⟨z, hescapes, hz, hzeven, a, b, path, h, hbeside⟩ := hsimple.exists_far
  have hvertex : p ∉ vertices := by
    intro hmem
    obtain ⟨e, he, rfl⟩ := exists_edge_of_mem hmem
    exact hp ⟨e, he, left_mem_segment K e.1 e.2⟩
  obtain ⟨k, hk⟩ := exists_generic hvertex
  by_cases hhit : ∃ t : K, 0 < t ∧ p + t • ((1, k) : K × K) ∈ onRing vertices
  · obtain ⟨a', b', path', h', hbeside'⟩ := hsimple.beside_of_hit hp hk hhit
    have hone : (1 : K) ≠ 0 := one_ne_zero
    have hminus : (-1 : K) ≠ 0 := neg_ne_zero.mpr one_ne_zero
    have hlength := h.perm.length_eq
    have hthree := hsimple.three_le
    match path, h, hbeside, hlength with
    | [], _, _, hlength => simp at hlength; omega
    | c :: path, h, hbeside, _ =>
      -- on the same side as the far point, or on the other one with the other parity
      rcases hbeside with hleft | hright <;> rcases hbeside' with hleft' | hright'
      · exact hescapes.of_joined (hsimple.joined_of_beside hone h' hleft' h hleft)
      · have hother := hsimple.rayParity_beside h hd hz hp hleft
          (hsimple.beside_of_beside hminus h' hright' h)
        rw [heven, hzeven d hd] at hother
        exact absurd hother (by decide)
      · have hother := hsimple.rayParity_beside h hd hp hz
          (hsimple.beside_of_beside hone h' hleft' h) hright
        rw [heven, hzeven d hd] at hother
        exact absurd hother (by decide)
      · exact hescapes.of_joined (hsimple.joined_of_beside hminus h' hright' h hright)
  · exact escapes_of_no_hit hp fun t ht hmem => hhit ⟨t, ht, hmem⟩

/-- Off a simple ring, a point is inside where a ray crosses the ring an odd number of times. -/
theorem SimpleRing.mem_enclosed_iff (hsimple : SimpleRing vertices) (hp : p ∉ onRing vertices)
    (hd : d ≠ 0) : p ∈ enclosed vertices ↔ rayParity p d vertices = 1 := by
  constructor
  · rintro ⟨-, hinside⟩
    have hbit : ∀ x : ZMod 2, x ≠ 0 → x = 1 := by decide
    exact hbit _ fun heven => hinside (hsimple.escapes_of_rayParity hp hd heven)
  · intro hodd
    exact ⟨hp, not_escapes_of_rayParity hd hp hodd⟩

end LandRecords.Rings
