import LandRecords.Base.RayCrossings
import Mathlib

/-! Segments of the plane kept apart by a line. Two disjoint segments have one, and it still
separates them when one of the segments moves a little. -/
namespace LandRecords.Rings

open Planar Filter Topology

variable {K : Type*} [Field K] [LinearOrder K] [IsStrictOrderedRing K]

variable {a b c d n s : K × K} {k : K}

theorem cross_of_mem_segment (h : s ∈ segment K a b) :
    ∃ t, 0 ≤ t ∧ t ≤ 1 ∧ ∀ n, cross n s = (1 - t) * cross n a + t * cross n b := by
  obtain ⟨t, hlow, hhigh, rfl⟩ := mem_segment_iff.mp h
  refine ⟨t, hlow, hhigh, fun n => ?_⟩
  unfold cross
  ring

theorem cross_le_of_mem_segment (ha : cross n a ≤ k) (hb : cross n b ≤ k)
    (h : s ∈ segment K a b) : cross n s ≤ k := by
  obtain ⟨t, hlow, hhigh, hs⟩ := cross_of_mem_segment h
  rw [hs]
  nlinarith

theorem lt_cross_of_mem_segment (ha : k < cross n a) (hb : k < cross n b)
    (h : s ∈ segment K a b) : k < cross n s := by
  obtain ⟨t, hlow, hhigh, hs⟩ := cross_of_mem_segment h
  rw [hs]
  rcases hlow.eq_or_lt with rfl | hpos
  · linarith
  · nlinarith

theorem disjoint_of_line (n : K × K) (k : K) (ha : k < cross n a) (hb : k < cross n b)
    (hc : cross n c ≤ k) (hd : cross n d ≤ k) : Disjoint (segment K a b) (segment K c d) :=
  Set.disjoint_left.mpr fun _ hab hcd =>
    (cross_le_of_mem_segment hc hd hcd).not_gt (lt_cross_of_mem_segment ha hb hab)

/-- Some line has `c` and `d` on or to its right and `a` and `b` to its left. -/
def Separated (a b c d : K × K) : Prop :=
  ∃ n k, k < cross n a ∧ k < cross n b ∧ cross n c ≤ k ∧ cross n d ≤ k

theorem eq_zero_of_cross {v : K × K} (hn : n ≠ 0) (hparallel : cross n v = 0)
    (horthogonal : cross (leftward n) v = 0) : v = 0 := by
  have hsum := cross_smul_eq n (leftward n) v
  rw [cross_comm (leftward n) v, horthogonal, hparallel, neg_zero, zero_smul, zero_smul, add_zero]
    at hsum
  exact (smul_eq_zero.mp hsum).resolve_left (cross_leftward_pos hn).ne'

theorem weight_of_between {x y : K} (hne : x - y ≠ 0) (hlow : min x y ≤ 0) (hhigh : 0 ≤ max x y) :
    0 ≤ x / (x - y) ∧ x / (x - y) ≤ 1 := by
  rcases hne.lt_or_gt with hneg | hpos
  · rw [min_eq_left (by linarith)] at hlow
    rw [max_eq_right (by linarith)] at hhigh
    exact ⟨div_nonneg_of_nonpos hlow hneg.le, (div_le_one_of_neg hneg).mpr (by linarith)⟩
  · rw [min_eq_right (by linarith)] at hlow
    rw [max_eq_left (by linarith)] at hhigh
    exact ⟨div_nonneg hhigh hpos.le, (div_le_one hpos).mpr (by linarith)⟩

theorem mem_segment_of_between (hn : n ≠ 0) (hb : cross n (b - a) = 0) (hs : cross n (s - a) = 0)
    (hlow : min (cross (leftward n) a) (cross (leftward n) b) ≤ cross (leftward n) s)
    (hhigh : cross (leftward n) s ≤ max (cross (leftward n) a) (cross (leftward n) b)) :
    s ∈ segment K a b := by
  have hpoint : ∀ t, t * (cross (leftward n) b - cross (leftward n) a) =
      cross (leftward n) s - cross (leftward n) a → a + t • (b - a) = s := by
    intro t ht
    have hzero : s - a - t • (b - a) = 0 := by
      apply eq_zero_of_cross hn
      · rw [cross_sub, cross_smul, hb, hs, mul_zero, sub_zero]
      · rw [cross_sub, cross_smul, cross_sub, cross_sub, ht, sub_self]
    rw [sub_sub, sub_eq_zero] at hzero
    exact hzero.symm
  rw [segment_eq_image']
  generalize cross (leftward n) a = x at *
  generalize cross (leftward n) b = y at *
  generalize cross (leftward n) s = z at *
  by_cases hne : x = y
  · rw [hne, min_self] at hlow
    rw [hne, max_self] at hhigh
    exact ⟨0, by simp, hpoint 0 (by rw [hne, le_antisymm hlow hhigh]; ring)⟩
  · have hxy : x - z - (y - z) ≠ 0 := by
      rw [sub_sub_sub_cancel_right]
      exact sub_ne_zero.mpr hne
    refine ⟨_, weight_of_between hxy ?_ ?_, hpoint _ ?_⟩
    · rw [min_sub_sub_right]
      linarith
    · rw [max_sub_sub_right]
      linarith
    · field_simp
      ring

theorem min_le_max_of_not_separated (h : ¬ Separated a b c d) (n : K × K) :
    min (cross n a) (cross n b) ≤ max (cross n c) (cross n d) ∧
      min (cross n c) (cross n d) ≤ max (cross n a) (cross n b) := by
  constructor
  · by_contra hlt
    rw [not_le, lt_min_iff] at hlt
    exact h ⟨n, _, hlt.1, hlt.2, le_max_left _ _, le_max_right _ _⟩
  · by_contra hlt
    rw [not_le, lt_min_iff, max_lt_iff, max_lt_iff] at hlt
    obtain ⟨⟨hca, hcb⟩, hda, hdb⟩ := hlt
    refine h ⟨-n, max (-cross n c) (-cross n d), ?_, ?_, ?_, ?_⟩
    · rw [neg_cross, max_lt_iff]
      exact ⟨neg_lt_neg hca, neg_lt_neg hda⟩
    · rw [neg_cross, max_lt_iff]
      exact ⟨neg_lt_neg hcb, neg_lt_neg hdb⟩
    · rw [neg_cross]
      exact le_max_left _ _
    · rw [neg_cross]
      exact le_max_right _ _

theorem not_disjoint_of_collinear (hn : n ≠ 0) (hb : cross n (b - a) = 0) (hc : cross n (c - a) = 0)
    (hd : cross n (d - a) = 0) (h : ¬ Separated a b c d) :
    ¬ Disjoint (segment K a b) (segment K c d) := by
  obtain ⟨habove, hbelow⟩ := min_le_max_of_not_separated h (leftward n)
  have hline : ∀ u v : K × K, cross n (u - a) = 0 → cross n (v - a) = 0 → cross n (u - v) = 0 := by
    intro u v hu hv
    rw [cross_sub] at hu hv ⊢
    rw [sub_eq_zero] at hu hv
    rw [hu, hv, sub_self]
  have ha : cross n (a - a) = 0 := by rw [cross_sub, sub_self]
  rw [Set.not_disjoint_iff]
  rcases le_total (min (cross (leftward n) a) (cross (leftward n) b))
    (min (cross (leftward n) c) (cross (leftward n) d)) with hle | hle
  · -- the lower end of the second one
    rcases min_choice (cross (leftward n) c) (cross (leftward n) d) with hmin | hmin
    · rw [hmin] at hle hbelow
      exact ⟨c, mem_segment_of_between hn hb hc hle hbelow, left_mem_segment K c d⟩
    · rw [hmin] at hle hbelow
      exact ⟨d, mem_segment_of_between hn hb hd hle hbelow, right_mem_segment K c d⟩
  · rcases min_choice (cross (leftward n) a) (cross (leftward n) b) with hmin | hmin
    · rw [hmin] at hle habove
      exact ⟨a, left_mem_segment K a b,
        mem_segment_of_between hn (hline d c hd hc) (hline a c ha hc) hle habove⟩
    · rw [hmin] at hle habove
      exact ⟨b, right_mem_segment K a b,
        mem_segment_of_between hn (hline d c hd hc) (hline b c hb hc) hle habove⟩

theorem not_disjoint_of_cross_ne (hne : cross (b - a) (d - c) ≠ 0) (h : ¬ Separated a b c d) :
    ¬ Disjoint (segment K a b) (segment K c d) := by
  have hfirst : cross (d - c) (a - c) - cross (d - c) (b - c) = cross (b - a) (d - c) := by
    simp only [cross, Prod.fst_sub, Prod.snd_sub]
    ring
  have hsecond : cross (b - a) (c - a) - cross (b - a) (d - a) = -cross (b - a) (d - c) := by
    simp only [cross, Prod.fst_sub, Prod.snd_sub]
    ring
  obtain ⟨hlow, hhigh⟩ := min_le_max_of_not_separated h (d - c)
  obtain ⟨hlow', hhigh'⟩ := min_le_max_of_not_separated h (b - a)
  have hcd : cross (d - c) d = cross (d - c) c := by
    rw [← sub_eq_zero, ← cross_sub, cross_self]
  have hab : cross (b - a) b = cross (b - a) a := by
    rw [← sub_eq_zero, ← cross_sub, cross_self]
  rw [hcd, max_self] at hlow
  rw [hcd, min_self] at hhigh
  rw [hab, min_self] at hlow'
  rw [hab, max_self] at hhigh'
  obtain ⟨ht, ht'⟩ := weight_of_between (x := cross (d - c) (a - c)) (y := cross (d - c) (b - c))
    (hfirst ▸ hne) (by rw [cross_sub, cross_sub, min_sub_sub_right]; linarith)
    (by rw [cross_sub, cross_sub, max_sub_sub_right]; linarith)
  obtain ⟨hs, hs'⟩ := weight_of_between (x := cross (b - a) (c - a)) (y := cross (b - a) (d - a))
    (hsecond ▸ neg_ne_zero.mpr hne) (by rw [cross_sub, cross_sub, min_sub_sub_right]; linarith)
    (by rw [cross_sub, cross_sub, max_sub_sub_right]; linarith)
  rw [hfirst] at ht ht'
  rw [hsecond] at hs hs'
  rw [Set.not_disjoint_iff]
  refine ⟨_, mem_segment_iff.mpr ⟨_, ht, ht', rfl⟩, mem_segment_iff.mpr ⟨_, hs, hs', ?_⟩⟩
  rw [div_neg]
  refine Prod.ext ?_ ?_
  · dsimp only
    field_simp
    simp only [cross, Prod.fst_sub, Prod.snd_sub]
    ring
  · dsimp only
    field_simp
    simp only [cross, Prod.fst_sub, Prod.snd_sub]
    ring

theorem cross_eq_zero_of_not_separated (hcross : cross (b - a) (d - c) = 0)
    (h : ¬ Separated a b c d) : cross (b - a) (c - a) = 0 ∧ cross (d - c) (c - a) = 0 := by
  obtain ⟨hlow, hhigh⟩ := min_le_max_of_not_separated h (d - c)
  obtain ⟨hlow', hhigh'⟩ := min_le_max_of_not_separated h (b - a)
  have hcd : cross (d - c) d = cross (d - c) c := by
    rw [← sub_eq_zero, ← cross_sub, cross_self]
  have hab : cross (b - a) b = cross (b - a) a := by
    rw [← sub_eq_zero, ← cross_sub, cross_self]
  have hcd' : cross (b - a) d = cross (b - a) c := by
    rw [← sub_eq_zero, ← cross_sub, hcross]
  have hab' : cross (d - c) b = cross (d - c) a := by
    rw [← sub_eq_zero, ← cross_sub, cross_comm, hcross, neg_zero]
  rw [hcd, hab', min_self, max_self] at hlow
  rw [hcd, hab', min_self, max_self] at hhigh
  rw [hcd', hab, min_self, max_self] at hlow' hhigh'
  rw [cross_sub, cross_sub, le_antisymm hlow hhigh, le_antisymm hlow' hhigh']
  exact ⟨sub_self _, sub_self _⟩

theorem separated_of_disjoint (h : Disjoint (segment K a b) (segment K c d)) :
    Separated a b c d := by
  by_contra hnot
  by_cases hcross : cross (b - a) (d - c) = 0
  · obtain ⟨hab, hcd⟩ := cross_eq_zero_of_not_separated hcross hnot
    have hda : d - a = d - c + (c - a) := by abel
    by_cases hb : b - a = 0
    · by_cases hd : d - c = 0
      · by_cases hc : c - a = 0
        · -- all four ends are one point
          obtain rfl := sub_eq_zero.mp hc
          exact Set.disjoint_left.mp h (left_mem_segment K c b) (left_mem_segment K c d)
        · refine not_disjoint_of_collinear hc ?_ (cross_self _) ?_ hnot h
          · rw [hb, ← sub_self (0 : K × K), cross_sub, sub_self]
          · rw [hda, hd, zero_add, cross_self]
      · refine not_disjoint_of_collinear hd ?_ hcd ?_ hnot h
        · rw [hb, ← sub_self (0 : K × K), cross_sub, sub_self]
        · rw [hda, cross_add, cross_self, hcd, add_zero]
    · refine not_disjoint_of_collinear hb (cross_self _) hab ?_ hnot h
      rw [hda, cross_add, hcross, hab, add_zero]
  · exact not_disjoint_of_cross_ne hcross hnot h

/-! ### Small moves -/

variable [TopologicalSpace K] [OrderTopology K]

theorem eventually_lt_add {x : K} (h : k < x) (y : K) : ∀ᶠ t in 𝓝[>] (0 : K), k < x + t * y := by
  have hcontinuous : Continuous fun t : K => x + t * y := by fun_prop
  have hzero : Tendsto (fun t : K => x + t * y) (𝓝[>] 0) (𝓝 x) := by
    have hat := (hcontinuous.tendsto 0).mono_left (nhdsWithin_le_nhds (s := Set.Ioi 0))
    rwa [zero_mul, add_zero] at hat
  exact hzero.eventually (lt_mem_nhds h)

theorem eventually_lt_cross (h : k < cross n a) (y : K × K) :
    ∀ᶠ t in 𝓝[>] (0 : K), k < cross n (a + t • y) := by
  filter_upwards [eventually_lt_add h (cross n y)] with t ht
  rwa [cross_add, cross_smul]

theorem eventually_disjoint (h : Disjoint (segment K a b) (segment K c d)) (x y : K × K) :
    ∀ᶠ t in 𝓝[>] (0 : K), Disjoint (segment K (a + t • x) (b + t • y)) (segment K c d) := by
  obtain ⟨n, k, ha, hb, hc, hd⟩ := separated_of_disjoint h
  filter_upwards [eventually_lt_cross ha x, eventually_lt_cross hb y] with t hx hy
  exact disjoint_of_line n k hx hy hc hd

end LandRecords.Rings
