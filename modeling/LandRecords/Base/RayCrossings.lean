import LandRecords.Base.EdgeSums
import LandRecords.Base.Planar

/-! The parity of the crossings of a ray with a ring. Each edge is half open, so the ray may run
through vertices and along edges. Off the ring the parity is the same in every direction, and it
does not change along a segment that avoids the ring. -/
namespace LandRecords.Rings

open EdgeSums Planar

section Products

variable {K : Type*} [CommRing K]

/-- Positive when `w` lies to the left of `u`. -/
def cross (u w : K × K) : K := u.1 * w.2 - u.2 * w.1

theorem turn_eq_cross (a b c : K × K) : turn a b c = cross (b - a) (c - a) := rfl

theorem cross_comm (u w : K × K) : cross w u = -cross u w := by
  unfold cross
  ring

@[simp] theorem cross_self (u : K × K) : cross u u = 0 := by
  unfold cross
  ring

theorem cross_sub (d u w : K × K) : cross d (w - u) = cross d w - cross d u := by
  simp only [cross, Prod.fst_sub, Prod.snd_sub]
  ring

theorem cross_add (d u w : K × K) : cross d (u + w) = cross d u + cross d w := by
  simp only [cross, Prod.fst_add, Prod.snd_add]
  ring

theorem cross_smul (d u : K × K) (t : K) : cross d (t • u) = t * cross d u := by
  simp only [cross, Prod.smul_fst, Prod.smul_snd, smul_eq_mul]
  ring

theorem smul_cross (t : K) (u w : K × K) : cross (t • u) w = t * cross u w := by
  simp only [cross, Prod.smul_fst, Prod.smul_snd, smul_eq_mul]
  ring

@[simp] theorem cross_neg (u w : K × K) : cross u (-w) = -cross u w := by
  simp only [cross, Prod.fst_neg, Prod.snd_neg]
  ring

@[simp] theorem neg_cross (u w : K × K) : cross (-u) w = -cross u w := by
  simp only [cross, Prod.fst_neg, Prod.snd_neg]
  ring

theorem cross_self_left (a b : K × K) : cross (b - a) (a - a) = 0 := by
  rw [cross_sub, sub_self]

theorem cross_right_eq (t : K) (a b : K × K) :
    cross (t • (b - a)) b = cross (t • (b - a)) a := by
  rw [smul_cross, smul_cross, ← sub_eq_zero, ← mul_sub, ← cross_sub, cross_self, mul_zero]

theorem cross_mul_cross (d e u w : K × K) :
    cross d e * cross u w = cross d u * cross e w - cross d w * cross e u := by
  unfold cross
  ring

theorem cross_smul_eq (d e u : K × K) : cross d e • u = cross u e • d + cross d u • e := by
  refine Prod.ext ?_ ?_
  · simp only [cross, Prod.smul_fst, Prod.fst_add, smul_eq_mul]
    ring
  · simp only [cross, Prod.smul_snd, Prod.snd_add, smul_eq_mul]
    ring

end Products

variable {K : Type*} [Field K] [LinearOrder K] [IsStrictOrderedRing K]

/-- The edge from `a` to `b` crosses the ray from `p` in the direction `d`. A vertex on the ray
counts to its left. -/
def crossesRay (p d a b : K × K) : Bool :=
  (decide (cross d (a - p) < 0) && decide (0 ≤ cross d (b - p)) && decide (0 < turn p a b)) ||
    (decide (0 ≤ cross d (a - p)) && decide (cross d (b - p) < 0) && decide (turn p a b < 0))

def rayParity (p d : K × K) (vertices : List (K × K)) : ZMod 2 :=
  ringSum (fun a b => bit (crossesRay p d a b)) vertices

def onRing (vertices : List (K × K)) : Set (K × K) :=
  {s | ∃ e ∈ edges (closed vertices), s ∈ segment K e.1 e.2}

def Straddles (p d a b : K × K) : Prop :=
  cross d (a - p) < 0 ∧ 0 ≤ cross d (b - p) ∨ 0 ≤ cross d (a - p) ∧ cross d (b - p) < 0

variable {p q d e a b : K × K} {vertices : List (K × K)}

theorem mem_segment_of_straddles (h : Straddles p d a b) :
    cross d (b - a) ≠ 0 ∧ p + (turn p a b / cross d (b - a)) • d ∈ segment K a b := by
  have hdiff : cross d (b - a) = cross d (b - p) - cross d (a - p) := by
    rw [← cross_sub]
    congr 1
    abel
  have hne : cross d (b - p) - cross d (a - p) ≠ 0 := by
    rcases h with ⟨ha, hb⟩ | ⟨ha, hb⟩
    · exact (by linarith : 0 < cross d (b - p) - cross d (a - p)).ne'
    · exact (by linarith : cross d (b - p) - cross d (a - p) < 0).ne
  have hlow : 0 ≤ -cross d (a - p) / (cross d (b - p) - cross d (a - p)) := by
    rcases h with ⟨ha, hb⟩ | ⟨ha, hb⟩
    · exact div_nonneg (by linarith) (by linarith)
    · exact div_nonneg_of_nonpos (by linarith) (by linarith)
  have hhigh : -cross d (a - p) / (cross d (b - p) - cross d (a - p)) ≤ 1 := by
    rcases h with ⟨ha, hb⟩ | ⟨ha, hb⟩
    · exact (div_le_one (by linarith)).mpr (by linarith)
    · exact (div_le_one_of_neg (by linarith)).mpr (by linarith)
  refine ⟨hdiff ▸ hne, mem_segment_iff.mpr ⟨_, hlow, hhigh, ?_⟩⟩
  rw [hdiff]
  refine Prod.ext ?_ ?_
  · simp only [Prod.fst_add, Prod.smul_fst, smul_eq_mul]
    field_simp
    simp only [turn, cross, Prod.fst_sub, Prod.snd_sub]
    ring
  · simp only [Prod.snd_add, Prod.smul_snd, smul_eq_mul]
    field_simp
    simp only [turn, cross, Prod.fst_sub, Prod.snd_sub]
    ring

theorem turn_ne_zero (hoff : p ∉ segment K a b) (h : Straddles p d a b) : turn p a b ≠ 0 := by
  intro hzero
  apply hoff
  have hmem := (mem_segment_of_straddles h).2
  rwa [hzero, zero_div, zero_smul, add_zero] at hmem

omit [IsStrictOrderedRing K] in
theorem notMem_segment (hoff : p ∉ onRing vertices) {edge : (K × K) × (K × K)}
    (hedge : edge ∈ edges (closed vertices)) : p ∉ segment K edge.1 edge.2 :=
  fun hmem => hoff ⟨edge, hedge, hmem⟩

/-! ### The direction of the ray -/

def between (p d e v : K × K) : Bool :=
  decide (0 ≤ cross d (v - p)) && decide (cross e (v - p) < 0)

theorem sign_of_straddles {D X A B A' B' : K} (hpos : 0 < D) (hprod : D * X = A * B' - B * A') :
    (A < 0 → 0 ≤ B → A' < 0 → B' < 0 → 0 < X) ∧ (A < 0 → 0 ≤ B → 0 ≤ A' → 0 ≤ B' → X ≤ 0) ∧
    (0 ≤ A → B < 0 → A' < 0 → B' < 0 → X < 0) ∧ (0 ≤ A → B < 0 → 0 ≤ A' → 0 ≤ B' → 0 ≤ X) := by
  refine ⟨fun hA hB hA' hB' => ?_, fun hA hB hA' hB' => ?_, fun hA hB hA' hB' => ?_,
    fun hA hB hA' hB' => ?_⟩
  · exact pos_of_mul_pos_right (hprod ▸ by nlinarith : 0 < D * X) hpos.le
  · exact nonpos_of_mul_nonpos_right (hprod ▸ by nlinarith : D * X ≤ 0) hpos
  · exact (pos_iff_neg_of_mul_neg (hprod ▸ by nlinarith : D * X < 0)).mp hpos
  · exact nonneg_of_mul_nonneg_right (hprod ▸ by nlinarith : 0 ≤ D * X) hpos

theorem crossesRay_xor (hpos : 0 < cross d e) (hoff : p ∉ segment K a b) :
    (crossesRay p d a b ^^ crossesRay p e a b) = (between p d e b ^^ between p d e a) := by
  have hturn : cross d e * turn p a b =
      cross d (a - p) * cross e (b - p) - cross d (b - p) * cross e (a - p) :=
    cross_mul_cross d e (a - p) (b - p)
  have hd : Straddles p d a b → turn p a b ≠ 0 := turn_ne_zero hoff
  have he : Straddles p e a b → turn p a b ≠ 0 := turn_ne_zero hoff
  have hsigns := sign_of_straddles hpos hturn
  have hsigns' := sign_of_straddles (X := -turn p a b) hpos
    (by linear_combination -hturn : cross d e * -turn p a b =
      cross e (a - p) * cross d (b - p) - cross e (b - p) * cross d (a - p))
  unfold Straddles at hd he
  unfold crossesRay between
  generalize turn p a b = X at *
  generalize cross d (a - p) = A at *
  generalize cross d (b - p) = B at *
  generalize cross e (a - p) = A' at *
  generalize cross e (b - p) = B' at *
  -- the sixteen sign patterns of the ends
  grind

theorem rayParity_eq_of_cross_pos (hpos : 0 < cross d e) (hoff : p ∉ onRing vertices) :
    rayParity p d vertices = rayParity p e vertices := by
  have hedge : ∀ edge ∈ edges (closed vertices), bit (crossesRay p d edge.1 edge.2) =
      bit (crossesRay p e edge.1 edge.2) +
        (bit (between p d e edge.2) - bit (between p d e edge.1)) := by
    intro edge hmem
    have hxor := congrArg bit (crossesRay_xor hpos (notMem_segment hoff hmem))
    rw [bit_xor, bit_xor] at hxor
    rw [sub_eq_add_neg, neg_bit, ← hxor, add_comm, add_assoc, bit_add_self, add_zero]
  have hsum : rayParity p d vertices = ringSum (fun a b => bit (crossesRay p e a b) +
      (bit (between p d e b) - bit (between p d e a))) vertices := ringSum_congr hedge
  rw [hsum, ringSum_add, ringSum_sub, add_zero, rayParity]

def leftward (d : K × K) : K × K := (-d.2, d.1)

theorem cross_leftward_pos (hd : d ≠ 0) : 0 < cross d (leftward d) := by
  have hne : d.1 ≠ 0 ∨ d.2 ≠ 0 := by
    by_contra hboth
    simp only [not_or, not_not] at hboth
    exact hd (Prod.ext hboth.1 hboth.2)
  have hsum : cross d (leftward d) = d.1 ^ 2 + d.2 ^ 2 := by
    unfold cross leftward
    ring
  rw [hsum]
  rcases hne with hne | hne <;> positivity

theorem rayParity_eq_of_cross_ne (hne : cross d e ≠ 0) (hoff : p ∉ onRing vertices) :
    rayParity p d vertices = rayParity p e vertices := by
  rcases hne.lt_or_gt with hneg | hpos
  · rw [cross_comm, neg_lt_zero] at hneg
    exact (rayParity_eq_of_cross_pos hneg hoff).symm
  · exact rayParity_eq_of_cross_pos hpos hoff

/-- Off the ring the parity does not depend on the direction. -/
theorem rayParity_direction (hd : d ≠ 0) (he : e ≠ 0) (hoff : p ∉ onRing vertices) :
    rayParity p d vertices = rayParity p e vertices := by
  by_cases hcross : cross d e = 0
  · -- both are parallel, so a third direction is between them
    have hthird : cross e (leftward d) ≠ 0 := by
      intro hzero
      have hprod := cross_mul_cross d (leftward d) e (leftward e)
      have hzero' : cross d (leftward e) = cross e (leftward d) := by
        unfold cross leftward
        ring
      rw [hcross, hzero', hzero, zero_mul, zero_mul, sub_zero] at hprod
      exact (mul_pos (cross_leftward_pos hd) (cross_leftward_pos he)).ne' hprod
    rw [rayParity_eq_of_cross_ne (cross_leftward_pos hd).ne' hoff,
      rayParity_eq_of_cross_ne hthird hoff]
  · exact rayParity_eq_of_cross_ne hcross hoff

/-! ### The start of the ray -/

theorem crossesRay_add (hmiss : Disjoint (segment K p q) (segment K a b)) :
    crossesRay p (q - p) a b = crossesRay q (q - p) a b := by
  have hside : ∀ v, cross (q - p) (v - q) = cross (q - p) (v - p) := by
    intro v
    have hv : v - q = v - p - (q - p) := by abel
    rw [hv, cross_sub, cross_self, sub_zero]
  have hturn : turn q a b = turn p a b - cross (q - p) (b - a) := by
    simp only [turn, cross, Prod.fst_sub, Prod.snd_sub]
    ring
  have hdiff : cross (q - p) (b - a) = cross (q - p) (b - p) - cross (q - p) (a - p) := by
    rw [← cross_sub]
    congr 1
    abel
  -- a straddling edge meets the line before or after the segment
  have hbeyond : Straddles p (q - p) a b → 0 ≤ turn p a b / cross (q - p) (b - a) →
      ¬ turn p a b / cross (q - p) (b - a) ≤ 1 := by
    intro hstraddles hlow hhigh
    have hmem : p + (turn p a b / cross (q - p) (b - a)) • (q - p) ∈ segment K p q := by
      rw [segment_eq_image']
      exact ⟨_, ⟨hlow, hhigh⟩, rfl⟩
    exact Set.disjoint_left.mp hmiss hmem (mem_segment_of_straddles hstraddles).2
  have hup : cross (q - p) (a - p) < 0 → 0 ≤ cross (q - p) (b - p) →
      (0 < turn p a b ↔ 0 < turn q a b) := by
    intro ha hb
    have hpos : 0 < cross (q - p) (b - a) := by linarith
    constructor
    · intro hp
      have hfar := hbeyond (.inl ⟨ha, hb⟩) (by positivity)
      rw [div_le_one hpos] at hfar
      linarith
    · intro hq
      linarith
  have hdown : 0 ≤ cross (q - p) (a - p) → cross (q - p) (b - p) < 0 →
      (turn p a b < 0 ↔ turn q a b < 0) := by
    intro ha hb
    have hneg : cross (q - p) (b - a) < 0 := by linarith
    constructor
    · intro hp
      have hfar := hbeyond (.inr ⟨ha, hb⟩) (div_nonneg_of_nonpos hp.le hneg.le)
      rw [div_le_one_of_neg hneg] at hfar
      linarith
    · intro hq
      linarith
  unfold crossesRay
  rw [hside, hside]
  grind

/-- Along a segment that avoids the ring the parity does not change. -/
theorem rayParity_of_avoids (hmiss : Disjoint (segment K p q) (onRing vertices)) :
    rayParity p (q - p) vertices = rayParity q (q - p) vertices := by
  refine ringSum_congr fun edge hedge => ?_
  have hsubset : segment K edge.1 edge.2 ⊆ onRing vertices := fun s hs => ⟨edge, hedge, hs⟩
  rw [crossesRay_add (hmiss.mono_right hsubset)]

theorem rayParity_of_behind
    (hbehind : ∀ v ∈ vertices, cross (leftward d) p < cross (leftward d) v) :
    rayParity p d vertices = 0 := by
  have hnone : ∀ a ∈ vertices, ∀ b ∈ vertices, cross d (a - p) < 0 → 0 ≤ cross d (b - p) →
      turn p a b ≤ 0 := by
    intro a ha b hb hright hleft
    have hne : d ≠ 0 := by
      rintro rfl
      simp [cross] at hright
    have hprod : cross d (leftward d) * turn p a b =
        cross d (a - p) * cross (leftward d) (b - p) -
          cross d (b - p) * cross (leftward d) (a - p) :=
      cross_mul_cross d (leftward d) (a - p) (b - p)
    have ha' : 0 < cross (leftward d) (a - p) := by
      rw [cross_sub]
      exact sub_pos.mpr (hbehind a ha)
    have hb' : 0 < cross (leftward d) (b - p) := by
      rw [cross_sub]
      exact sub_pos.mpr (hbehind b hb)
    have hneg : cross d (leftward d) * turn p a b < 0 := by
      rw [hprod]
      nlinarith
    exact (neg_of_mul_neg_right hneg (cross_leftward_pos hne).le).le
  refine ringSum_eq_zero fun edge hedge => ?_
  obtain ⟨ha, hb⟩ := mem_of_mem_edges hedge
  have hfalse : crossesRay p d edge.1 edge.2 = false := by
    have hup := hnone _ ha _ hb
    have hdown := hnone _ hb _ ha
    have hturn : turn p edge.2 edge.1 = -turn p edge.1 edge.2 := by
      rw [turn_eq_cross, turn_eq_cross, cross_comm]
    unfold crossesRay
    grind
  rw [hfalse, bit_false]

end LandRecords.Rings
