import Mathlib

/-! Segments and closed axis-aligned rectangles of the plane over an ordered field: on which
side of a line a point lies, and where two segments meet. -/
namespace LandRecords.Planar

section Turns

variable {K : Type*} [CommRing K]

/-- Positive when `c` lies to the left of the line from `a` to `b`, zero on the line. -/
def turn (a b c : K × K) : K := (b.1 - a.1) * (c.2 - a.2) - (b.2 - a.2) * (c.1 - a.1)

theorem turn_cycle (a b c : K × K) : turn a b c = turn b c a := by
  unfold turn
  ring

def corners (low high : K × K) : List (K × K) :=
  [low, (high.1, low.2), high, (low.1, high.2)]

def rotate (p : K × K) : K × K := (p.2, -p.1)

@[simp] theorem turn_rotate (a b c : K × K) : turn (rotate a) (rotate b) (rotate c) = turn a b c := by
  unfold turn rotate
  ring

end Turns

variable {K : Type*} [Field K] [LinearOrder K] [IsStrictOrderedRing K] {p q s low high : K × K}

theorem mem_segment_iff : s ∈ segment K p q ↔ ∃ t, 0 ≤ t ∧ t ≤ 1 ∧
    s = (p.1 + t * (q.1 - p.1), p.2 + t * (q.2 - p.2)) := by
  rw [segment_eq_image']
  constructor
  · rintro ⟨t, ht, rfl⟩
    exact ⟨t, ht.1, ht.2, rfl⟩
  · rintro ⟨t, hlow, hhigh, rfl⟩
    exact ⟨t, ⟨hlow, hhigh⟩, rfl⟩

theorem turn_of_mem_segment (h : s ∈ segment K p q) : turn p q s = 0 := by
  obtain ⟨t, -, -, rfl⟩ := mem_segment_iff.mp h
  unfold turn
  ring

theorem weight_of_straddle {a b : K} (h : decide (0 < a) ≠ decide (0 < b)) :
    a - b ≠ 0 ∧ 0 ≤ a / (a - b) ∧ a / (a - b) ≤ 1 := by
  by_cases ha : 0 < a
  · have hb : b ≤ 0 := by
      by_contra hb
      exact h (by simp [ha, not_le.mp hb])
    have hpos : 0 < a - b := by linarith
    exact ⟨hpos.ne', by positivity, (div_le_one hpos).mpr (by linarith)⟩
  · have hb : 0 < b := by
      by_contra hb
      exact h (by simp [ha, hb])
    have hneg : a - b < 0 := by linarith
    exact ⟨hneg.ne, div_nonneg_of_nonpos (not_lt.mp ha) hneg.le,
      (div_le_one_of_neg hneg).mpr (by linarith)⟩

/-- Two segments, each with its ends on different sides of the other's line, meet. -/
theorem segments_meet {p₁ p₂ q₁ q₂ : K × K}
    (hp : decide (0 < turn q₁ q₂ p₁) ≠ decide (0 < turn q₁ q₂ p₂))
    (hq : decide (0 < turn p₁ p₂ q₁) ≠ decide (0 < turn p₁ p₂ q₂)) :
    (segment K p₁ p₂ ∩ segment K q₁ q₂).Nonempty := by
  obtain ⟨hpne, hplow, hphigh⟩ := weight_of_straddle hp
  obtain ⟨hqne, hqlow, hqhigh⟩ := weight_of_straddle hq
  -- both differences are the cross product of the directions
  have hcross : turn p₁ p₂ q₁ - turn p₁ p₂ q₂ = -(turn q₁ q₂ p₁ - turn q₁ q₂ p₂) := by
    unfold turn
    ring
  refine ⟨_, mem_segment_iff.mpr ⟨_, hplow, hphigh, rfl⟩,
    mem_segment_iff.mpr ⟨_, hqlow, hqhigh, ?_⟩⟩
  rw [hcross, div_neg]
  refine Prod.ext ?_ ?_
  · dsimp only
    field_simp
    unfold turn
    ring
  · dsimp only
    field_simp
    unfold turn
    ring

theorem exists_corner_le (hbox : s ∈ Set.Icc low high) :
    ∃ c ∈ corners low high, turn p q c ≤ turn p q s := by
  obtain ⟨⟨hleft, hbelow⟩, hright, habove⟩ := hbox
  unfold turn
  rcases le_total 0 (q.1 - p.1) with hdx | hdx
  · rcases le_total 0 (q.2 - p.2) with hdy | hdy
    · exact ⟨(high.1, low.2), by simp [corners], by nlinarith⟩
    · exact ⟨low, by simp [corners], by nlinarith⟩
  · rcases le_total 0 (q.2 - p.2) with hdy | hdy
    · exact ⟨high, by simp [corners], by nlinarith⟩
    · exact ⟨(low.1, high.2), by simp [corners], by nlinarith⟩

/-- A line through a point strictly inside a rectangle has a corner to its left. -/
theorem exists_corner_left (hlow : low.1 < s.1 ∧ low.2 < s.2) (hhigh : s.1 < high.1 ∧ s.2 < high.2)
    (hne : p ≠ q) (hzero : turn p q s = 0) : ∃ c ∈ corners low high, 0 < turn p q c := by
  obtain ⟨hx, hy⟩ := hlow
  obtain ⟨hx', hy'⟩ := hhigh
  have hturn : ∀ c : K × K,
      turn p q c = (q.1 - p.1) * (c.2 - s.2) - (q.2 - p.2) * (c.1 - s.1) := by
    intro c
    calc turn p q c = turn p q c - turn p q s := by rw [hzero, sub_zero]
      _ = (q.1 - p.1) * (c.2 - s.2) - (q.2 - p.2) * (c.1 - s.1) := by
        unfold turn
        ring
  have hdirection : q.1 - p.1 ≠ 0 ∨ q.2 - p.2 ≠ 0 := by
    by_contra hboth
    simp only [not_or, not_not, sub_eq_zero] at hboth
    exact hne (Prod.ext hboth.1.symm hboth.2.symm)
  rcases lt_trichotomy (q.1 - p.1) 0 with hdx | hdx | hdx
  · rcases le_total 0 (q.2 - p.2) with hdy | hdy
    · refine ⟨low, by simp [corners], ?_⟩
      rw [hturn]
      nlinarith
    · refine ⟨(high.1, low.2), by simp [corners], ?_⟩
      rw [hturn]
      nlinarith
  · rcases (hdirection.resolve_left (not_not.mpr hdx)).lt_or_gt with hdy | hdy
    · refine ⟨high, by simp [corners], ?_⟩
      rw [hturn, hdx]
      nlinarith
    · refine ⟨low, by simp [corners], ?_⟩
      rw [hturn, hdx]
      nlinarith
  · rcases le_total 0 (q.2 - p.2) with hdy | hdy
    · refine ⟨(low.1, high.2), by simp [corners], ?_⟩
      rw [hturn]
      nlinarith
    · refine ⟨high, by simp [corners], ?_⟩
      rw [hturn]
      nlinarith

end LandRecords.Planar
