import LandRecords.Base.Cuts
import LandRecords.Base.Enclosed

/-! The area of a simple ring is not zero. At a height without vertices its edges lead up and down
in turn, so the widths enclosed there have the sign of the ring's direction, and the area is the sum
of these widths over slabs between the heights of the vertices. -/
namespace LandRecords.Rings

open Cuts EdgeSums Planar Filter Topology

variable {K : Type*} [Field K] [LinearOrder K] [IsStrictOrderedRing K]
variable {a b c p q s : K × K} {path vertices : List (K × K)} {e f : (K × K) × (K × K)} {y : K}

/-! ### Alternating sums -/

def alternatingSum (xs : Finset K) : K := ∑ x ∈ xs, (-1) ^ (xs.filter (x < ·)).card * x

omit [IsStrictOrderedRing K] in
theorem alternatingSum_insert {x : K} {xs : Finset K} (h : ∀ x' ∈ xs, x' < x) :
    alternatingSum (insert x xs) = x - alternatingSum xs := by
  have hnew : x ∉ xs := fun hmem => lt_irrefl x (h x hmem)
  have hgreatest : (insert x xs).filter (x < ·) = ∅ := by
    rw [Finset.filter_eq_empty_iff]
    intro x' hx'
    rcases Finset.mem_insert.mp hx' with rfl | hmem
    · exact lt_irrefl x'
    · exact (h x' hmem).not_gt
  have hrest : ∀ x' ∈ xs, ((insert x xs).filter (x' < ·)).card = (xs.filter (x' < ·)).card + 1 := by
    intro x' hx'
    rw [Finset.filter_insert, if_pos (h x' hx'), Finset.card_insert_of_notMem]
    exact fun hmem => hnew (Finset.mem_filter.mp hmem).1
  rw [alternatingSum, Finset.sum_insert hnew, hgreatest, Finset.card_empty, pow_zero, one_mul,
    sub_eq_add_neg, alternatingSum, ← Finset.sum_neg_distrib]
  congr 1
  refine Finset.sum_congr rfl fun x' hx' => ?_
  rw [hrest x' hx', pow_succ]
  ring

theorem alternatingSum_bounds (xs : Finset K) : (Even xs.card → 0 ≤ alternatingSum xs) ∧
    (¬ Even xs.card → ∀ x, (∀ x' ∈ xs, x' < x) → alternatingSum xs < x) := by
  induction xs using Finset.induction_on_max with
  | empty => simp [alternatingSum]
  | insert greatest xs hgreatest ih =>
    have hnew : greatest ∉ xs := fun hmem => lt_irrefl _ (hgreatest _ hmem)
    rw [Finset.card_insert_of_notMem hnew, Nat.even_add_one, alternatingSum_insert hgreatest]
    constructor
    · intro hodd
      exact (sub_pos.mpr (ih.2 hodd _ hgreatest)).le
    · intro heven x hx
      have hle := ih.1 (not_not.mp heven)
      have hlt := hx greatest (Finset.mem_insert_self ..)
      linarith

theorem alternatingSum_pos {xs : Finset K} (heven : Even xs.card) (hne : xs.Nonempty) :
    0 < alternatingSum xs := by
  have hgreatest : ∀ x ∈ xs.erase (xs.max' hne), x < xs.max' hne :=
    fun x hx => xs.lt_max'_of_mem_erase_max' hne hx
  have hcard : ¬ Even (xs.erase (xs.max' hne)).card := by
    rw [← Nat.even_add_one, Finset.card_erase_add_one (xs.max'_mem hne)]
    exact heven
  rw [← Finset.insert_erase (xs.max'_mem hne), alternatingSum_insert hgreatest, sub_pos]
  exact (alternatingSum_bounds _).2 hcard _ hgreatest

/-! ### The edges of a simple ring -/

theorem SimpleRing.nodup (hsimple : SimpleRing vertices) : vertices.Nodup := by
  have hfirst : ∀ {a rest}, a :: rest ~r vertices → a ∉ rest := by
    intro a rest hrotated hmem
    have hlength := hrotated.perm.length_eq
    have hthree := hsimple.three_le
    match rest, hlength with
    | [], hlength | [_], hlength => simp at hlength; omega
    | b :: c :: path, _ =>
      rcases List.mem_cons.mp hmem with rfl | hmem
      · exact hsimple.ne hrotated rfl
      · obtain ⟨init, z, hlast⟩ :=
          (List.eq_nil_or_concat (c :: path)).resolve_left (List.cons_ne_nil c path)
        rw [hlast, List.concat_eq_append, List.mem_append, List.mem_singleton] at hmem
        rcases hmem with hinit | rfl
        · rw [← map_fst_edges init z, ← List.concat_eq_append, ← hlast, List.mem_map] at hinit
          obtain ⟨e, he, rfl⟩ := hinit
          exact Set.disjoint_left.mp (hsimple.apart hrotated e he) (left_mem_segment K e.1 b)
            (left_mem_segment K e.1 e.2)
        · rw [hlast, List.concat_eq_append] at hrotated
          have hback : a :: a :: b :: init ~r vertices :=
            (List.isRotated_concat a (a :: b :: init)).symm.trans hrotated
          exact hsimple.ne hback rfl
  refine List.nodup_iff_count_le_one.mpr fun a => ?_
  by_cases hmem : a ∈ vertices
  · obtain ⟨rest, hrotated⟩ := exists_rotated_of_mem hmem
    rw [← hrotated.perm.count_eq, List.count_cons_self, List.count_eq_zero_of_not_mem (hfirst hrotated)]
  · rw [List.count_eq_zero_of_not_mem hmem]
    exact zero_le_one

theorem SimpleRing.nodup_edges (hsimple : SimpleRing vertices) :
    (edges (closed vertices)).Nodup := by
  match vertices, hsimple.nodup with
  | [], _ => exact List.nodup_nil
  | a :: path, hnodup =>
    refine List.Nodup.of_map Prod.fst ?_
    rwa [closed_cons, map_fst_edges]

omit [IsStrictOrderedRing K] in
theorem SimpleRing.edge_eq (hsimple : SimpleRing vertices) (he : e ∈ edges (closed vertices))
    (hf : f ∈ edges (closed vertices)) (hse : s ∈ segment K e.1 e.2) (hsf : s ∈ segment K f.1 f.2)
    (hs : s ∉ vertices) : e = f := by
  have hthree := hsimple.three_le
  obtain ⟨path, hrotated⟩ := (mem_edges_closed_iff (by omega)).mp he
  have hlength := hrotated.perm.length_eq
  cases path with
  | nil => simp at hlength; omega
  | cons c path =>
    rw [← (edges_closed_isRotated hrotated).mem_iff, closed_cons, List.cons_append,
      List.cons_append, edges_cons_cons, List.mem_cons] at hf
    rcases hf with hsame | hother
    · exact hsame.symm
    · obtain ⟨ha, hb⟩ := mem_of_mem_edges he
      rcases hsimple.first_of_mem hrotated hother hse hsf with rfl | rfl
      · exact absurd ha hs
      · exact absurd hb hs

/-! ### The edges at a height -/

def AcrossHeight (y : K) (e : (K × K) × (K × K)) : Prop :=
  (e.1.2 < y ∧ y < e.2.2) ∨ (e.2.2 < y ∧ y < e.1.2)

instance (y : K) (e : (K × K) × (K × K)) : Decidable (AcrossHeight y e) :=
  inferInstanceAs (Decidable (_ ∨ _))

def abscissa (y : K) (a b : K × K) : K := a.1 + (y - a.2) * ((b.1 - a.1) / (b.2 - a.2))

omit [LinearOrder K] [IsStrictOrderedRing K] in
theorem abscissa_comm (hne : a.2 ≠ b.2) : abscissa y a b = abscissa y b a := by
  have hab : b.2 - a.2 ≠ 0 := sub_ne_zero.mpr hne.symm
  have hba : a.2 - b.2 ≠ 0 := sub_ne_zero.mpr hne
  unfold abscissa
  field_simp
  ring

def flow (y : K) (a b : K × K) : K :=
  if a.2 < y ∧ y < b.2 then abscissa y a b else if b.2 < y ∧ y < a.2 then -abscissa y b a else 0

omit [IsStrictOrderedRing K] in
theorem flow_eq_zero (h : ¬ AcrossHeight y e) : flow y e.1 e.2 = 0 := by
  rw [AcrossHeight, not_or] at h
  rw [flow, if_neg h.1, if_neg h.2]

theorem AcrossHeight.mem_openSegment (h : AcrossHeight y e) :
    (abscissa y e.1 e.2, y) ∈ openSegment K e.1 e.2 := by
  have hne : e.2.2 - e.1.2 ≠ 0 := by
    rcases h with h | h
    · exact (sub_pos.mpr (h.1.trans h.2)).ne'
    · exact (sub_neg.mpr (h.1.trans h.2)).ne
  rw [openSegment_eq_image']
  refine ⟨(y - e.1.2) / (e.2.2 - e.1.2), ?_, ?_⟩
  · rcases h with ⟨hlow, hhigh⟩ | ⟨hlow, hhigh⟩
    · exact ⟨div_pos (sub_pos.mpr hlow) (by linarith), (div_lt_one (by linarith)).mpr (by linarith)⟩
    · exact ⟨div_pos_of_neg_of_neg (by linarith) (by linarith),
        (div_lt_one_of_neg (by linarith)).mpr (by linarith)⟩
  · refine Prod.ext ?_ ?_
    · simp only [abscissa, Prod.fst_add, Prod.smul_fst, Prod.fst_sub, smul_eq_mul]
      ring
    · simp only [Prod.snd_add, Prod.smul_snd, Prod.snd_sub, smul_eq_mul]
      field_simp
      ring

theorem acrossHeight_of_mem (hs : s ∈ segment K e.1 e.2) (ha : e.1.2 ≠ s.2) (hb : e.2.2 ≠ s.2) :
    AcrossHeight s.2 e ∧ s.1 = abscissa s.2 e.1 e.2 := by
  rw [segment_eq_image'] at hs
  obtain ⟨t, ⟨ht, ht'⟩, rfl⟩ := hs
  simp only [Prod.snd_add, Prod.smul_snd, Prod.snd_sub, smul_eq_mul] at ha hb
  have hne : e.2.2 - e.1.2 ≠ 0 := by
    intro hzero
    rw [hzero, mul_zero, add_zero] at ha
    exact ha rfl
  have hlow : 0 < t := ht.lt_of_ne fun hzero => by simp [← hzero] at ha
  have hhigh : t < 1 := ht'.lt_of_ne fun hone => by simp [hone] at hb
  constructor
  · rcases lt_or_gt_of_ne hne with hdown | hup
    · right
      constructor <;> simp only [Prod.snd_add, Prod.smul_snd, Prod.snd_sub, smul_eq_mul] <;> nlinarith
    · left
      constructor <;> simp only [Prod.snd_add, Prod.smul_snd, Prod.snd_sub, smul_eq_mul] <;> nlinarith
  · simp only [abscissa, Prod.fst_add, Prod.smul_fst, Prod.fst_sub, Prod.snd_add, Prod.smul_snd,
      Prod.snd_sub, smul_eq_mul]
    field_simp
    ring

omit [LinearOrder K] [IsStrictOrderedRing K] in
theorem turn_eq_abscissa (hne : a.2 ≠ b.2) :
    turn p a b = (b.2 - a.2) * (abscissa p.2 a b - p.1) := by
  have hab : b.2 - a.2 ≠ 0 := sub_ne_zero.mpr hne.symm
  unfold turn abscissa
  field_simp
  ring

theorem crossesRay_height (ha : e.1.2 ≠ p.2) (hb : e.2.2 ≠ p.2) :
    crossesRay p (1, 0) e.1 e.2 =
      decide (AcrossHeight p.2 e ∧ p.1 < abscissa p.2 e.1 e.2) := by
  have hheight : ∀ v : K × K, cross (1, 0) (v - p) = v.2 - p.2 := by
    intro v
    simp [cross]
  unfold crossesRay AcrossHeight
  simp only [hheight, sub_neg, sub_nonneg]
  rcases lt_or_gt_of_ne ha with ha | ha <;> rcases lt_or_gt_of_ne hb with hb | hb
  · simp [ha.not_gt, hb.not_gt, ha.not_ge, hb.not_ge]
  · have hpos : 0 < e.2.2 - e.1.2 := by linarith
    rw [turn_eq_abscissa (ha.trans hb).ne]
    simp [ha, hb, hb.le, ha.not_gt, hb.not_gt, ha.not_ge, hpos]
  · have hneg : e.2.2 - e.1.2 < 0 := by linarith
    rw [turn_eq_abscissa (hb.trans ha).ne']
    simp [ha, hb, ha.le, ha.not_gt, hb.not_gt, hb.not_ge, mul_neg_iff, hneg, hneg.not_gt]
  · simp [ha.le, hb.le, ha.not_gt, hb.not_gt]

variable (vertices y) in
def acrossEdges : Finset ((K × K) × (K × K)) :=
  (edges (closed vertices)).toFinset.filter (AcrossHeight y)

omit [Field K] [IsStrictOrderedRing K] in
theorem mem_acrossEdges :
    e ∈ acrossEdges vertices y ↔ e ∈ edges (closed vertices) ∧ AcrossHeight y e := by
  rw [acrossEdges, Finset.mem_filter, List.mem_toFinset]

theorem SimpleRing.ringSum_across (hsimple : SimpleRing vertices) {G : Type*} [AddCommGroup G]
    {g : K × K → K × K → G}
    (h : ∀ e ∈ edges (closed vertices), ¬ AcrossHeight y e → g e.1 e.2 = 0) :
    ringSum g vertices = ∑ e ∈ acrossEdges vertices y, g e.1 e.2 := by
  rw [ringSum, pathSum_eq_sum, ← List.sum_toFinset _ hsimple.nodup_edges, acrossEdges,
    Finset.sum_filter_of_ne]
  intro e he hne
  by_contra hnot
  exact hne (h e (List.mem_toFinset.mp he) hnot)

section Height

variable (hlevel : ∀ v ∈ vertices, v.2 ≠ y)

include hlevel

theorem SimpleRing.abscissa_injOn (hsimple : SimpleRing vertices) :
    Set.InjOn (fun e : (K × K) × (K × K) => abscissa y e.1 e.2) (acrossEdges vertices y) := by
  intro e he f hf hsame
  dsimp only at hsame
  obtain ⟨he, hacross⟩ := mem_acrossEdges.mp he
  obtain ⟨hf, hacross'⟩ := mem_acrossEdges.mp hf
  have hse := openSegment_subset_segment K _ _ hacross.mem_openSegment
  have hsf := openSegment_subset_segment K _ _ hacross'.mem_openSegment
  rw [← hsame] at hsf
  exact hsimple.edge_eq he hf hse hsf fun hmem => hlevel _ hmem rfl

theorem SimpleRing.rayParity_height (hsimple : SimpleRing vertices) (x : K) :
    rayParity (x, y) (1, 0) vertices =
      ((acrossEdges vertices y).filter fun e => x < abscissa y e.1 e.2).card := by
  have hends : ∀ e ∈ edges (closed vertices), e.1.2 ≠ y ∧ e.2.2 ≠ y := by
    intro e he
    obtain ⟨ha, hb⟩ := mem_of_mem_edges he
    exact ⟨hlevel _ ha, hlevel _ hb⟩
  rw [rayParity, hsimple.ringSum_across (y := y)]
  · rw [Finset.card_filter, Nat.cast_sum]
    refine Finset.sum_congr rfl fun e he => ?_
    obtain ⟨he, hacross⟩ := mem_acrossEdges.mp he
    rw [crossesRay_height (p := (x, y)) (hends e he).1 (hends e he).2]
    by_cases hright : x < abscissa y e.1 e.2 <;> simp [hacross, hright, bit]
  · intro e he hnot
    rw [crossesRay_height (p := (x, y)) (hends e he).1 (hends e he).2]
    simp [hnot, bit]

/-- As many edges lead up across a height as down. -/
theorem SimpleRing.even_card_across (hsimple : SimpleRing vertices) :
    Even (acrossEdges vertices y).card := by
  have hends : ∀ e ∈ edges (closed vertices), e.1.2 ≠ y ∧ e.2.2 ≠ y := by
    intro e he
    obtain ⟨ha, hb⟩ := mem_of_mem_edges he
    exact ⟨hlevel _ ha, hlevel _ hb⟩
  have hsides : ∀ e ∈ edges (closed vertices),
      bit (decide (e.2.2 < y)) - bit (decide (e.1.2 < y)) = bit (decide (AcrossHeight y e)) := by
    intro e he
    obtain ⟨ha, hb⟩ := hends e he
    rcases lt_or_gt_of_ne ha with ha | ha <;> rcases lt_or_gt_of_ne hb with hb | hb <;>
      simp [AcrossHeight, ha, hb, ha.not_gt, hb.not_gt, bit]
  have hsum : ((acrossEdges vertices y).card : ZMod 2) =
      ringSum (fun a b => bit (decide (b.2 < y)) - bit (decide (a.2 < y))) vertices := by
    rw [hsimple.ringSum_across (y := y), Finset.card_eq_sum_ones, Nat.cast_sum]
    · refine Finset.sum_congr rfl fun e he => ?_
      obtain ⟨he, hacross⟩ := mem_acrossEdges.mp he
      rw [hsides e he]
      simp [hacross, bit]
    · intro e he hnot
      rw [hsides e he]
      simp [hnot, bit]
  rw [ringSum_sub fun v : K × K => bit (decide (v.2 < y)), ZMod.natCast_eq_zero_iff] at hsum
  exact even_iff_two_dvd.mpr hsum

end Height

/-! ### Up and down in turn -/

variable [TopologicalSpace K] [OrderTopology K]

def SideParity (vertices : List (K × K)) (left : ZMod 2) : Prop :=
  ∀ a b path p, a :: b :: path ~r vertices → p ∉ onRing vertices →
    (Beside vertices 1 a b p → rayParity p (1, 0) vertices = left) ∧
      (Beside vertices (-1) a b p → rayParity p (1, 0) vertices = 1 + left)

theorem SimpleRing.exists_sideParity (hsimple : SimpleRing vertices) :
    ∃ left, SideParity vertices left := by
  obtain ⟨z, -, hz, hzeven, a, b, path, h, hbeside⟩ := hsimple.exists_far
  have hright : ((1, 0) : K × K) ≠ 0 := by simp
  have hone : (1 : K) ≠ 0 := one_ne_zero
  have hminus : (-1 : K) ≠ 0 := neg_ne_zero.mpr one_ne_zero
  have hlength := h.perm.length_eq
  have hthree := hsimple.three_le
  match path, h, hbeside, hlength with
  | [], _, _, hlength => simp at hlength; omega
  | c :: path, h, .inl hfar, _ =>
    refine ⟨0, fun a' b' path' p h' hp => ⟨fun hleft => ?_, fun hother => ?_⟩⟩
    · rw [(rayParity_of_joined hright hp (hsimple.joined_of_beside hone h' hleft h hfar)).2,
        hzeven _ hright]
    · rw [hsimple.rayParity_beside h hright hz hp hfar (hsimple.beside_of_beside hminus h' hother h),
        hzeven _ hright]
  | c :: path, h, .inr hfar, _ =>
    refine ⟨1, fun a' b' path' p h' hp => ⟨fun hleft => ?_, fun hother => ?_⟩⟩
    · have hparity := hsimple.rayParity_beside h hright hp hz
        (hsimple.beside_of_beside hone h' hleft h) hfar
      rw [hzeven _ hright] at hparity
      have hbit : ∀ parity : ZMod 2, 0 = 1 + parity → parity = 1 := by decide
      exact hbit _ hparity
    · rw [(rayParity_of_joined hright hp (hsimple.joined_of_beside hminus h' hother h hfar)).2,
        hzeven _ hright]
      decide

variable (vertices y) in
theorem exists_gap (x : K) : ∃ t : K, 0 < t ∧ ∀ f ∈ acrossEdges vertices y,
    x < abscissa y f.1 f.2 → x + t < abscissa y f.1 f.2 := by
  have hgap : ∀ᶠ t in 𝓝[>] (0 : K), ∀ f ∈ acrossEdges vertices y,
      x < abscissa y f.1 f.2 → x + t < abscissa y f.1 f.2 := by
    refine (Filter.eventually_all_finset _).mpr fun f _ => ?_
    by_cases hlt : x < abscissa y f.1 f.2
    · filter_upwards [Ioo_mem_nhdsGT (sub_pos.mpr hlt)] with t ht _
      linarith [ht.2]
    · exact Filter.Eventually.of_forall fun t h => absurd h hlt
  obtain ⟨t, hfree, hpos⟩ := (hgap.and self_mem_nhdsWithin).exists
  exact ⟨t, hpos, hfree⟩

omit [TopologicalSpace K] [OrderTopology K] in
theorem notMem_onRing_of_gap (hlevel : ∀ v ∈ vertices, v.2 ≠ y) {x t u : K}
    (hfree : ∀ f ∈ acrossEdges vertices y, x < abscissa y f.1 f.2 → x + t < abscissa y f.1 f.2)
    (hu : 0 < u) (hut : u ≤ t) : (x + u, y) ∉ onRing vertices := by
  rintro ⟨f, hf, hmem⟩
  obtain ⟨ha, hb⟩ := mem_of_mem_edges hf
  obtain ⟨hacross, hx⟩ := acrossHeight_of_mem hmem (hlevel _ ha) (hlevel _ hb)
  dsimp only at hacross hx
  have hlt := hfree f (mem_acrossEdges.mpr ⟨hf, hacross⟩) (by linarith)
  linarith

/-- Right of an edge that leads across the height is its right side where it leads up, and its left
side where it leads down. -/
theorem SimpleRing.card_right (hsimple : SimpleRing vertices) {left : ZMod 2}
    (hside : SideParity vertices left) (hlevel : ∀ v ∈ vertices, v.2 ≠ y)
    (he : e ∈ acrossEdges vertices y) :
    (((acrossEdges vertices y).filter
        fun f => abscissa y e.1 e.2 < abscissa y f.1 f.2).card : ZMod 2) =
      if e.1.2 < e.2.2 then 1 + left else left := by
  obtain ⟨hedge, hacross⟩ := mem_acrossEdges.mp he
  -- a point to the right of the edge, with no other edge between
  obtain ⟨t, hpos, hfree⟩ := exists_gap vertices y (abscissa y e.1 e.2)
  have hoff : ∀ u, 0 < u → u ≤ t → (abscissa y e.1 e.2 + u, y) ∉ onRing vertices :=
    fun u hu hut => notMem_onRing_of_gap hlevel hfree hu hut
  have hthree := hsimple.three_le
  obtain ⟨path, hrotated⟩ := (mem_edges_closed_iff (by omega)).mp hedge
  have hlength := hrotated.perm.length_eq
  have hparity := hsimple.rayParity_height hlevel (abscissa y e.1 e.2 + t)
  have hsame : (acrossEdges vertices y).filter (fun f => abscissa y e.1 e.2 + t < abscissa y f.1 f.2) =
      (acrossEdges vertices y).filter fun f => abscissa y e.1 e.2 < abscissa y f.1 f.2 :=
    Finset.filter_congr fun f hf => ⟨fun h => (lt_add_of_pos_right _ hpos).trans h, hfree f hf⟩
  rw [hsame] at hparity
  rw [← hparity]
  match path, hrotated, hlength with
  | [], _, hlength => simp at hlength; omega
  | c :: path, hrotated, _ =>
    have hopen : (abscissa y e.1 e.2 + t, y) + t • ((-1, 0) : K × K) ∈ openSegment K e.1 e.2 := by
      have hend : (abscissa y e.1 e.2 + t, y) + t • ((-1, 0) : K × K) = (abscissa y e.1 e.2, y) := by
        simp
      rw [hend]
      exact hacross.mem_openSegment
    have hfirst : ∀ u, 0 < u → u < t →
        (abscissa y e.1 e.2 + t, y) + u • ((-1, 0) : K × K) ∉ onRing vertices := by
      intro u hu hut
      have hbetween : (abscissa y e.1 e.2 + t, y) + u • ((-1, 0) : K × K) =
          (abscissa y e.1 e.2 + (t - u), y) := by
        simp [Prod.ext_iff]
        ring
      rw [hbetween]
      exact hoff _ (by linarith) (by linarith)
    have hcross : cross (e.2 - e.1) (-((-1, 0) : K × K)) = e.1.2 - e.2.2 := by
      simp [cross]
    have hbeside : ∀ σ : K, σ ≠ 0 → 0 < σ * (e.1.2 - e.2.2) →
        Beside vertices σ e.1 e.2 (abscissa y e.1 e.2 + t, y) := fun σ hσ hpositive =>
      hsimple.beside_of_first_hit hrotated (hoff t hpos le_rfl) hpos hopen hfirst hσ
        (by rwa [hcross])
    obtain ⟨hleft, hright⟩ := hside _ _ _ _ hrotated (hoff t hpos le_rfl)
    split
    · rename_i hup
      exact hright (hbeside (-1) (neg_ne_zero.mpr one_ne_zero) (by linarith))
    · rename_i hdown
      have hlt : e.2.2 < e.1.2 := by
        rcases hacross with h | h
        · exact absurd (h.1.trans h.2) hdown
        · exact h.1.trans h.2
      exact hleft (hbeside 1 one_ne_zero (by linarith))

variable (K) in
def turning (left : ZMod 2) : K := if left = 1 then 1 else -1

theorem SimpleRing.flow_across (hsimple : SimpleRing vertices) {left : ZMod 2}
    (hside : SideParity vertices left) (hlevel : ∀ v ∈ vertices, v.2 ≠ y)
    (he : e ∈ acrossEdges vertices y) :
    turning K left * flow y e.1 e.2 =
      (-1) ^ ((acrossEdges vertices y).filter
        fun f => abscissa y e.1 e.2 < abscissa y f.1 f.2).card * abscissa y e.1 e.2 := by
  have hcard := hsimple.card_right hside hlevel he
  have hacross := (mem_acrossEdges.mp he).2
  generalize ((acrossEdges vertices y).filter
    fun f => abscissa y e.1 e.2 < abscissa y f.1 f.2).card = n at hcard ⊢
  have hbit : ∀ x : ZMod 2, x = 0 ∨ x = 1 := by decide
  have heven : (n : ZMod 2) = 0 → (-1 : K) ^ n = 1 :=
    fun h => (ZMod.natCast_eq_zero_iff_even.mp h).neg_one_pow
  have hodd : (n : ZMod 2) = 1 → (-1 : K) ^ n = -1 :=
    fun h => (ZMod.natCast_eq_one_iff_odd.mp h).neg_one_pow
  have htwo : (1 : ZMod 2) + 1 = 0 := by decide
  rcases hacross with hup | hdown
  · rw [if_pos (hup.1.trans hup.2)] at hcard
    rw [flow, if_pos hup]
    rcases hbit left with rfl | rfl
    · rw [hodd (by rw [hcard, add_zero]), turning, if_neg zero_ne_one]
    · rw [heven (by rw [hcard, htwo]), turning, if_pos rfl]
  · have hlow := hdown.1.trans hdown.2
    rw [if_neg hlow.not_gt] at hcard
    rw [flow, if_neg fun h => (h.1.trans h.2).not_gt hlow, if_pos hdown, abscissa_comm hlow.ne]
    rcases hbit left with rfl | rfl
    · rw [heven hcard, turning, if_neg zero_ne_one, neg_mul_neg]
    · rw [hodd hcard, turning, if_pos rfl, one_mul, neg_one_mul]

/-- What a ring encloses at a height without vertices. -/
theorem SimpleRing.width_eq (hsimple : SimpleRing vertices) {left : ZMod 2}
    (hside : SideParity vertices left) (hlevel : ∀ v ∈ vertices, v.2 ≠ y) :
    turning K left * ringSum (flow y) vertices =
      alternatingSum ((acrossEdges vertices y).image fun e => abscissa y e.1 e.2) := by
  have hinj := hsimple.abscissa_injOn hlevel
  rw [hsimple.ringSum_across (y := y) fun e _ h => flow_eq_zero h, Finset.mul_sum, alternatingSum,
    Finset.sum_image hinj]
  refine Finset.sum_congr rfl fun e he => ?_
  rw [hsimple.flow_across hside hlevel he, Finset.filter_image, Finset.card_image_of_injOn]
  exact hinj.mono (Finset.coe_subset.mpr (Finset.filter_subset _ _))

theorem SimpleRing.width_pos (hsimple : SimpleRing vertices) {left : ZMod 2}
    (hside : SideParity vertices left) (hlevel : ∀ v ∈ vertices, v.2 ≠ y) :
    0 ≤ turning K left * ringSum (flow y) vertices ∧
      ((acrossEdges vertices y).Nonempty → 0 < turning K left * ringSum (flow y) vertices) := by
  have heven : Even ((acrossEdges vertices y).image fun e => abscissa y e.1 e.2).card := by
    rw [Finset.card_image_of_injOn (hsimple.abscissa_injOn hlevel)]
    exact hsimple.even_card_across hlevel
  rw [hsimple.width_eq hside hlevel]
  exact ⟨(alternatingSum_bounds _).1 heven, fun hne => alternatingSum_pos heven (hne.image _)⟩

/-! ### Slabs between heights -/

section Slabs

omit [TopologicalSpace K] [OrderTopology K]

variable {lo hi u v : K} {heights : List K}

def areaBelow (a b : K × K) (y : K) : K :=
  (max a.2 (min b.2 y) - a.2) *
    (a.1 + a.1 + (max a.2 (min b.2 y) - a.2) * ((b.1 - a.1) / (b.2 - a.2)))

theorem areaBelow_slab (hup : a.2 ≤ b.2) (huv : u < v) (ha : a.2 ≤ u ∨ v ≤ a.2)
    (hb : b.2 ≤ u ∨ v ≤ b.2) :
    areaBelow a b v - areaBelow a b u = 2 * (v - u) * flow ((u + v) / 2) a b := by
  have hmiddle : u < (u + v) / 2 ∧ (u + v) / 2 < v := ⟨by linarith, by linarith⟩
  have hnone : ¬ (b.2 < (u + v) / 2 ∧ (u + v) / 2 < a.2) := fun h => by linarith [h.1, h.2]
  rcases ha with ha | ha
  · rcases hb with hb | hb
    · -- above the edge
      have hout : ¬ (a.2 < (u + v) / 2 ∧ (u + v) / 2 < b.2) := fun h => by linarith [h.2]
      rw [flow, if_neg hout, if_neg hnone, mul_zero, areaBelow, areaBelow, min_eq_left hb,
        min_eq_left (hb.trans huv.le), sub_self]
    · have hin : a.2 < (u + v) / 2 ∧ (u + v) / 2 < b.2 := ⟨by linarith, by linarith⟩
      rw [flow, if_pos hin, areaBelow, areaBelow, min_eq_right hb, min_eq_right (huv.le.trans hb),
        max_eq_right ha, max_eq_right (ha.trans huv.le), abscissa]
      ring
  · -- below the edge
    have hout : ¬ (a.2 < (u + v) / 2 ∧ (u + v) / 2 < b.2) := fun h => by linarith [h.1]
    have hbelow : ∀ y, y ≤ a.2 → max a.2 (min b.2 y) = a.2 :=
      fun y hy => max_eq_left ((min_le_right _ _).trans hy)
    rw [flow, if_neg hout, if_neg hnone, mul_zero, areaBelow, areaBelow, hbelow v ha,
      hbelow u (huv.le.trans ha), sub_self]

theorem flow_swap (a b : K × K) : flow y b a = -flow y a b := by
  unfold flow
  by_cases hup : a.2 < y ∧ y < b.2
  · have hdown : ¬ (b.2 < y ∧ y < a.2) := fun h => by linarith [h.1, hup.2]
    rw [if_neg hdown, if_pos hup, if_pos hup]
  · by_cases hdown : b.2 < y ∧ y < a.2
    · rw [if_pos hdown, if_neg hup, if_pos hdown, neg_neg]
    · rw [if_neg hdown, if_neg hup, if_neg hup, if_neg hdown, neg_zero]

structure Slabs (vertices : List (K × K)) (lo hi : K) (heights : List K) : Prop where
  low : ∀ v ∈ vertices, lo ≤ v.2
  high : ∀ v ∈ vertices, v.2 ≤ hi
  lt : ∀ e ∈ edges (lo :: heights ++ [hi]), e.1 < e.2
  apart : ∀ e ∈ edges (lo :: heights ++ [hi]), ∀ v ∈ vertices, v.2 ≤ e.1 ∨ e.2 ≤ v.2

theorem Slabs.upward (hslabs : Slabs vertices lo hi heights) (ha : a ∈ vertices)
    (hb : b ∈ vertices) (hup : a.2 ≤ b.2) :
    pathSum (fun u v => 2 * (v - u) * flow ((u + v) / 2) a b) (lo :: heights ++ [hi]) =
      (a.1 + b.1) * (b.2 - a.2) := by
  have hsteps : pathSum (fun u v => 2 * (v - u) * flow ((u + v) / 2) a b) (lo :: heights ++ [hi]) =
      pathSum (fun u v => areaBelow a b v - areaBelow a b u) (lo :: heights ++ [hi]) :=
    pathSum_congr fun e he => (areaBelow_slab hup (hslabs.lt e he) (hslabs.apart e he a ha)
      (hslabs.apart e he b hb)).symm
  rw [hsteps, pathSum_sub, areaBelow, areaBelow, min_eq_left (hslabs.high b hb), max_eq_right hup,
    min_eq_right (hslabs.low b hb), max_eq_left (hslabs.low a ha), sub_self, zero_mul, sub_zero]
  rcases hup.eq_or_lt with heq | hlt
  · rw [heq, sub_self, zero_mul, mul_zero]
  · have hne : b.2 - a.2 ≠ 0 := (sub_pos.mpr hlt).ne'
    field_simp
    ring

theorem Slabs.edge (hslabs : Slabs vertices lo hi heights) (ha : a ∈ vertices)
    (hb : b ∈ vertices) :
    pathSum (fun u v => 2 * (v - u) * flow ((u + v) / 2) a b) (lo :: heights ++ [hi]) =
      (a.1 + b.1) * (b.2 - a.2) := by
  rcases le_total a.2 b.2 with hup | hdown
  · exact hslabs.upward ha hb hup
  · have hback := hslabs.upward hb ha hdown
    have hopposite : pathSum (fun u v => 2 * (v - u) * flow ((u + v) / 2) a b)
          (lo :: heights ++ [hi]) +
        pathSum (fun u v => 2 * (v - u) * flow ((u + v) / 2) b a) (lo :: heights ++ [hi]) = 0 := by
      rw [← pathSum_add, pathSum_eq_sum]
      simp [flow_swap a b]
    rw [hback] at hopposite
    linear_combination hopposite

omit [Field K] [IsStrictOrderedRing K] in
theorem consecutive_of_increasing {e : K × K} (h : heights.Pairwise (· < ·))
    (he : e ∈ edges heights) : e.1 < e.2 ∧ ∀ w ∈ heights, w ≤ e.1 ∨ e.2 ≤ w := by
  obtain ⟨before, after, rfl⟩ := mem_edges_iff.mp he
  obtain ⟨-, hrest, hacross⟩ := List.pairwise_append.mp h
  rw [List.pairwise_cons, List.pairwise_cons] at hrest
  refine ⟨hrest.1 _ List.mem_cons_self, fun w hw => ?_⟩
  rcases List.mem_append.mp hw with hw | hw
  · exact .inl (hacross w hw _ List.mem_cons_self).le
  · rcases List.mem_cons.mp hw with rfl | hw
    · exact .inl le_rfl
    · rcases List.mem_cons.mp hw with rfl | hw
      · exact .inr le_rfl
      · exact .inr (hrest.2.1 w hw).le

theorem exists_slabs (vertices : List (K × K)) : ∃ lo hi heights,
    Slabs vertices lo hi heights ∧ ∀ v ∈ vertices, v.2 ∈ heights := by
  obtain ⟨r, hr⟩ := exists_bound vertices
  have hmem : ∀ v ∈ vertices, v.2 ∈ sortedSet (vertices.map Prod.snd) :=
    fun v hv => mem_sortedSet.mpr (List.mem_map_of_mem hv)
  have hbetween : ∀ w ∈ sortedSet (vertices.map Prod.snd), -(|r| + 1) < w ∧ w < |r| + 1 := by
    intro w hw
    obtain ⟨v, hv, rfl⟩ := List.mem_map.mp (mem_sortedSet.mp hw)
    obtain ⟨hlow, hhigh⟩ := abs_le.mp ((hr v hv).2.trans (le_abs_self r))
    constructor <;> linarith
  have hends : -(|r| + 1) < |r| + 1 := by linarith [abs_nonneg r]
  have hincreasing : (-(|r| + 1) :: sortedSet (vertices.map Prod.snd) ++ [|r| + 1]).Pairwise
      (· < ·) := by
    rw [List.cons_append, List.pairwise_cons, List.pairwise_append]
    refine ⟨fun w hw => ?_, sortedSet_increasing _, List.pairwise_singleton _ _, fun w hw top htop => ?_⟩
    · rcases List.mem_append.mp hw with hw | hw
      · exact (hbetween w hw).1
      · rwa [List.mem_singleton.mp hw]
    · rw [List.mem_singleton.mp htop]
      exact (hbetween w hw).2
  refine ⟨_, _, _, ⟨fun v hv => (hbetween _ (hmem v hv)).1.le,
    fun v hv => (hbetween _ (hmem v hv)).2.le,
    fun e he => (consecutive_of_increasing hincreasing he).1, fun e he v hv => ?_⟩, hmem⟩
  exact (consecutive_of_increasing hincreasing he).2 _
    (List.mem_append_left _ (List.mem_cons_of_mem _ (hmem v hv)))

/-- Twice the signed area of a ring: the widths at the middles of the slabs, times their heights. -/
theorem Slabs.area (hslabs : Slabs vertices lo hi heights) :
    ringSum (fun a b : K × K => a.1 * b.2 - b.1 * a.2) vertices =
      pathSum (fun u v => 2 * (v - u) * ringSum (flow ((u + v) / 2)) vertices)
        (lo :: heights ++ [hi]) := by
  have hsplit : ringSum (fun a b : K × K => a.1 * b.2 - b.1 * a.2) vertices =
      ringSum (fun a b : K × K => (a.1 + b.1) * (b.2 - a.2) + (-(b.1 * b.2) - -(a.1 * a.2)))
        vertices := ringSum_congr fun e _ => by ring
  have hedges : ringSum (fun a b : K × K => (a.1 + b.1) * (b.2 - a.2)) vertices =
      ringSum (fun a b => pathSum (fun u v => 2 * (v - u) * flow ((u + v) / 2) a b)
        (lo :: heights ++ [hi])) vertices := by
    refine ringSum_congr fun e he => ?_
    obtain ⟨ha, hb⟩ := mem_of_mem_edges he
    exact (hslabs.edge ha hb).symm
  rw [hsplit, ringSum_add, ringSum_sub fun v : K × K => -(v.1 * v.2), add_zero, hedges,
    ringSum_pathSum fun u v a b => 2 * (v - u) * flow ((u + v) / 2) a b]
  simp only [ringSum_mul]

end Slabs

/-! ### The area -/

omit [TopologicalSpace K] [OrderTopology K] in
theorem SimpleRing.exists_upright (hsimple : SimpleRing vertices) :
    ∃ e ∈ edges (closed vertices), e.1.2 ≠ e.2.2 := by
  by_contra hnone
  have hlevel : ∀ {a b path}, a :: b :: path ~r vertices → a.2 = b.2 := by
    intro a b path hrotated
    have hthree := hsimple.three_le
    by_contra hne
    exact hnone ⟨(a, b), (mem_edges_closed_iff (by omega)).mpr ⟨path, hrotated⟩, hne⟩
  -- at a rightmost vertex a level ring would have to turn back
  have hne : vertices.toFinset.Nonempty := by
    rw [List.toFinset_nonempty_iff, ← List.length_pos_iff]
    exact hsimple.three_le.trans' (by omega)
  obtain ⟨b, hb, hright⟩ := Finset.exists_max_image vertices.toFinset Prod.fst hne
  obtain ⟨rest, hrotated⟩ := exists_rotated_of_mem (List.mem_toFinset.mp hb)
  have hlength := hrotated.perm.length_eq
  have hthree := hsimple.three_le
  cases rest using List.reverseRecOn with
  | nil => simp at hlength; omega
  | append_singleton rest a =>
    cases rest with
    | nil => simp at hlength; omega
    | cons c path =>
      have hback : a :: b :: c :: path ~r vertices :=
        (List.isRotated_concat a (b :: c :: path)).symm.trans hrotated
      have hnext : b :: c :: (path ++ [a]) ~r vertices := hrotated
      have hab := hlevel hback
      have hbc := hlevel hnext
      have hforward := hsimple.forward hback (by simp [cross, hab, hbc])
      have hside : ∀ v ∈ [a, c], v.1 ≤ b.1 := fun v hv =>
        hright v (List.mem_toFinset.mpr (hback.mem_iff.mp (by
          rcases List.mem_pair.mp hv with rfl | rfl <;> simp)))
      have ha := hside a (by simp)
      have hc := hside c (by simp)
      simp only [cross, leftward, Prod.fst_sub, Prod.snd_sub, hab, hbc, sub_self, mul_zero,
        neg_zero, sub_zero] at hforward
      nlinarith

theorem SimpleRing.area_ne_zero (hsimple : SimpleRing vertices) :
    ringSum (fun a b : K × K => a.1 * b.2 - b.1 * a.2) vertices ≠ 0 := by
  obtain ⟨left, hside⟩ := hsimple.exists_sideParity
  obtain ⟨lo, hi, heights, hslabs, hmem⟩ := exists_slabs vertices
  have hlevel : ∀ e ∈ edges (lo :: heights ++ [hi]), ∀ v ∈ vertices, v.2 ≠ (e.1 + e.2) / 2 := by
    intro e he v hv hmiddle
    have hlt := hslabs.lt e he
    rcases hslabs.apart e he v hv with h | h <;> linarith
  have hturned : turning K left * ringSum (fun a b : K × K => a.1 * b.2 - b.1 * a.2) vertices =
      ((edges (lo :: heights ++ [hi])).map fun e =>
        2 * (e.2 - e.1) * (turning K left * ringSum (flow ((e.1 + e.2) / 2)) vertices)).sum := by
    rw [hslabs.area, pathSum_eq_sum, ← List.sum_map_mul_left]
    congr 1
    refine List.map_congr_left fun e _ => ?_
    ring
  -- the slab above the lower end of an edge that is not level
  obtain ⟨f, hf, hupright⟩ := hsimple.exists_upright
  obtain ⟨ha, hb⟩ := mem_of_mem_edges hf
  have hslab : ∃ e ∈ edges (lo :: heights ++ [hi]), AcrossHeight ((e.1 + e.2) / 2) f := by
    have hstart : ∀ v ∈ vertices, ∃ e ∈ edges (lo :: heights ++ [hi]), e.1 = v.2 := by
      intro v hv
      rw [← List.mem_map (f := Prod.fst), map_fst_edges]
      exact List.mem_cons_of_mem _ (hmem v hv)
    rcases lt_or_gt_of_ne hupright with hlt | hlt
    · obtain ⟨e, he, hlow⟩ := hstart _ ha
      have hhigh := (hslabs.apart e he _ hb).resolve_left (by rw [hlow]; exact hlt.not_ge)
      have hpos := hslabs.lt e he
      exact ⟨e, he, .inl ⟨by linarith, by linarith⟩⟩
    · obtain ⟨e, he, hlow⟩ := hstart _ hb
      have hhigh := (hslabs.apart e he _ ha).resolve_left (by rw [hlow]; exact hlt.not_ge)
      have hpos := hslabs.lt e he
      exact ⟨e, he, .inr ⟨by linarith, by linarith⟩⟩
  obtain ⟨e, he, hacross⟩ := hslab
  have hwidth : ∀ e ∈ edges (lo :: heights ++ [hi]), 0 < 2 * (e.2 - e.1) := fun e he => by
    linarith [hslabs.lt e he]
  have hpos : 0 < turning K left *
      ringSum (fun a b : K × K => a.1 * b.2 - b.1 * a.2) vertices := by
    rw [hturned]
    refine lt_of_lt_of_le ?_ (List.single_le_sum ?_ _ (List.mem_map_of_mem he))
    · exact mul_pos (hwidth e he) ((hsimple.width_pos hside (hlevel e he)).2
        ⟨f, mem_acrossEdges.mpr ⟨hf, hacross⟩⟩)
    · intro x hx
      obtain ⟨e', he', rfl⟩ := List.mem_map.mp hx
      exact mul_nonneg (hwidth e' he').le (hsimple.width_pos hside (hlevel e' he')).1
  intro hzero
  rw [hzero, mul_zero] at hpos
  exact lt_irrefl 0 hpos

end LandRecords.Rings
