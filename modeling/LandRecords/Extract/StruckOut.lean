import LandRecords.Base.Planar
import LandRecords.Extract.Strikethrough
import Mathlib

/-! The intersection test against the plane: what it finds is there, and what it misses is a
rectangle that the line only touches with its right side. -/
namespace LandRecords.Extract

open Planar

section Exactness

variable {K : Type*} [Field K] [LinearOrder K] [IsStrictOrderedRing K] {p q low high : K × K}

theorem ccw_eq (a b c : K × K) : ccw a b c = decide (0 < turn a b c) := by
  unfold ccw turn
  refine decide_eq_decide.mpr ?_
  rw [gt_iff_lt, ← sub_pos, mul_comm (c.2 - a.2)]

theorem segmentsCross_eq (p1 p2 q1 q2 : K × K) : segmentsCross p1 p2 q1 q2 = true ↔
    decide (0 < turn q1 q2 p1) ≠ decide (0 < turn q1 q2 p2) ∧
      decide (0 < turn p1 p2 q1) ≠ decide (0 < turn p1 p2 q2) := by
  simp only [segmentsCross, ccw_eq, Bool.and_eq_true, bne_iff_ne, turn_cycle p1 q1 q2,
    turn_cycle p2 q1 q2]

/-- The segment shares a point with the closed rectangle. -/
def Meets (p q low high : K × K) : Prop := (segment K p q ∩ Set.Icc low high).Nonempty

def intersects (p q low high : K × K) : Bool :=
  lineIntersectsRect p.1 p.2 q.1 q.2 low.1 low.2 high.1 high.2

def CrossesEdge (p q low high : K × K) : Prop :=
  ∃ edge ∈ rectEdges low.1 low.2 high.1 high.2, segmentsCross p q edge.1 edge.2 = true

structure Overlap (p q low high : K × K) : Prop where
  left : low.1 ≤ max p.1 q.1
  right : min p.1 q.1 ≤ high.1
  below : low.2 ≤ max p.2 q.2
  above : min p.2 q.2 ≤ high.2

omit [IsStrictOrderedRing K] in
theorem intersects_iff : intersects p q low high = true ↔ Overlap p q low high ∧
    (p ∈ Set.Icc low high ∨ q ∈ Set.Icc low high ∨ CrossesEdge p q low high) := by
  have hmem : ∀ r : K × K, r ∈ Set.Icc low high ↔
      (low.1 ≤ r.1 ∧ r.1 ≤ high.1) ∧ low.2 ≤ r.2 ∧ r.2 ≤ high.2 := by
    intro r
    rw [Set.mem_Icc, Prod.le_def, Prod.le_def]
    tauto
  have hoverlap : Overlap p q low high ↔ ¬ (max p.1 q.1 < low.1 ∨ min p.1 q.1 > high.1) ∧
      ¬ (max p.2 q.2 < low.2 ∨ min p.2 q.2 > high.2) := by
    rw [not_or, not_or, not_lt, not_lt, not_lt, not_lt]
    exact ⟨fun h => ⟨⟨h.left, h.right⟩, h.below, h.above⟩, fun h => ⟨h.1.1, h.1.2, h.2.1, h.2.2⟩⟩
  unfold intersects lineIntersectsRect CrossesEdge
  rw [hmem, hmem, hoverlap]
  split_ifs with hx hy hp hq
  · exact iff_of_false id fun h => h.1.1 hx
  · exact iff_of_false id fun h => h.1.2 hy
  · exact iff_of_true rfl ⟨⟨hx, hy⟩, .inl hp⟩
  · exact iff_of_true rfl ⟨⟨hx, hy⟩, .inr (.inl hq)⟩
  · rw [List.any_eq_true]
    exact ⟨fun h => ⟨⟨hx, hy⟩, .inr (.inr h)⟩,
      fun h => (h.2.resolve_left hp).resolve_left hq⟩

theorem overlap_of_mem {s : K × K} (hs : s ∈ segment K p q) (hbox : s ∈ Set.Icc low high) :
    Overlap p q low high := by
  obtain ⟨t, ht, ht', rfl⟩ := mem_segment_iff.mp hs
  obtain ⟨⟨hleft, hbelow⟩, hright, habove⟩ := hbox
  have hmax : ∀ a b : K, a + t * (b - a) ≤ max a b := by
    intro a b
    rcases le_total a b with h | h
    · exact le_max_of_le_right (by nlinarith)
    · exact le_max_of_le_left (by nlinarith)
  have hmin : ∀ a b : K, min a b ≤ a + t * (b - a) := by
    intro a b
    rcases le_total a b with h | h
    · exact min_le_of_left_le (by nlinarith)
    · exact min_le_of_right_le (by nlinarith)
  exact ⟨hleft.trans (hmax _ _), (hmin _ _).trans hright, hbelow.trans (hmax _ _),
    (hmin _ _).trans habove⟩

theorem meets_of_intersects (hx : low.1 ≤ high.1) (hy : low.2 ≤ high.2)
    (h : intersects p q low high = true) : Meets p q low high := by
  obtain ⟨-, hp | hq | ⟨edge, hedge, hcross⟩⟩ := intersects_iff.mp h
  · exact ⟨p, left_mem_segment K p q, hp⟩
  · exact ⟨q, right_mem_segment K p q, hq⟩
  · obtain ⟨hsides, hsides'⟩ := (segmentsCross_eq ..).mp hcross
    obtain ⟨s, hs, hedgePoint⟩ := segments_meet hsides hsides'
    have hends : edge.1 ∈ Set.Icc low high ∧ edge.2 ∈ Set.Icc low high := by
      simp only [rectEdges, List.mem_cons, List.not_mem_nil, or_false] at hedge
      rcases hedge with rfl | rfl | rfl | rfl <;>
        simp [Prod.le_def, hx, hy]
    have hconvex : Convex K (Set.Icc low high) := by
      rw [Set.Icc_prod_eq]
      exact (convex_Icc low.1 high.1).prod (convex_Icc low.2 high.2)
    exact ⟨s, hs, hconvex.segment_subset hends.1 hends.2 hedgePoint⟩

def rotatedLow (low high : K × K) : K × K := (low.2, -high.1)
def rotatedHigh (low high : K × K) : K × K := (high.2, -low.1)

theorem segmentsCross_rotate (p1 p2 q1 q2 : K × K) :
    segmentsCross (rotate p1) (rotate p2) (rotate q1) (rotate q2) = segmentsCross p1 p2 q1 q2 := by
  simp only [segmentsCross, ccw_eq, turn_rotate]

theorem CrossesEdge.of_rotate (h : CrossesEdge (rotate p) (rotate q) (rotatedLow low high)
    (rotatedHigh low high)) : CrossesEdge p q low high := by
  obtain ⟨edge, hedge, hcross⟩ := h
  have hunturned : ∃ before ∈ rectEdges low.1 low.2 high.1 high.2,
      edge = (rotate before.1, rotate before.2) := by
    simp only [rectEdges, rotatedLow, rotatedHigh, List.mem_cons, List.not_mem_nil, or_false]
      at hedge
    rcases hedge with rfl | rfl | rfl | rfl
    · exact ⟨((high.1, low.2), high), by simp [rectEdges], rfl⟩
    · exact ⟨(high, (low.1, high.2)), by simp [rectEdges], rfl⟩
    · exact ⟨((low.1, high.2), low), by simp [rectEdges], rfl⟩
    · exact ⟨(low, (high.1, low.2)), by simp [rectEdges], rfl⟩
  obtain ⟨before, hbefore, rfl⟩ := hunturned
  exact ⟨before, hbefore, (segmentsCross_rotate ..).symm.trans hcross⟩

structure Parts (p q low high : K × K) : Prop where
  overlap : Overlap p q low high
  fstOutside : p ∉ Set.Icc low high
  sndOutside : q ∉ Set.Icc low high
  left : ∃ c ∈ corners low high, 0 < turn p q c
  notLeft : ∃ c ∈ corners low high, turn p q c ≤ 0

theorem Parts.rotate (h : Parts p q low high) :
    Parts (rotate p) (rotate q) (rotatedLow low high) (rotatedHigh low high) := by
  have hmem : ∀ r : K × K, Planar.rotate r ∈ Set.Icc (rotatedLow low high) (rotatedHigh low high) ↔
      r ∈ Set.Icc low high := by
    intro r
    simp only [Planar.rotate, rotatedLow, rotatedHigh, Set.mem_Icc, Prod.le_def, neg_le_neg_iff]
    tauto
  have hcorners : ∀ c ∈ corners low high,
      Planar.rotate c ∈ corners (rotatedLow low high) (rotatedHigh low high) := by
    intro c hc
    simp only [corners, List.mem_cons, List.not_mem_nil, or_false] at hc
    rcases hc with rfl | rfl | rfl | rfl <;>
      simp [corners, Planar.rotate, rotatedLow, rotatedHigh]
  obtain ⟨c, hc, hleft⟩ := h.left
  obtain ⟨d, hd, hnotLeft⟩ := h.notLeft
  refine ⟨⟨h.overlap.below, h.overlap.above, ?_, ?_⟩, (hmem p).not.mpr h.fstOutside,
    (hmem q).not.mpr h.sndOutside, ⟨_, hcorners c hc, (turn_rotate p q c).symm ▸ hleft⟩,
    ⟨_, hcorners d hd, (turn_rotate p q d).symm ▸ hnotLeft⟩⟩
  · simp only [Planar.rotate, rotatedLow, max_neg_neg, neg_le_neg_iff]
    exact h.overlap.right
  · simp only [Planar.rotate, rotatedHigh, min_neg_neg, neg_le_neg_iff]
    exact h.overlap.left

theorem turn_corner (hx : low.1 ≤ high.1) (hy : low.2 ≤ high.2) (hdx : p.1 ≤ q.1)
    (hdy : p.2 ≤ q.2) {c : K × K} (hc : c ∈ corners low high) :
    turn p q (high.1, low.2) ≤ turn p q c ∧ turn p q c ≤ turn p q (low.1, high.2) := by
  have hwide := mul_nonneg (sub_nonneg.mpr hdy) (sub_nonneg.mpr hx)
  have htall := mul_nonneg (sub_nonneg.mpr hdx) (sub_nonneg.mpr hy)
  simp only [corners, List.mem_cons, List.not_mem_nil, or_false] at hc
  unfold turn
  rcases hc with rfl | rfl | rfl | rfl <;> constructor <;> linarith

/-- A rising segment with the lower left corner on its left enters through the lower edge. -/
theorem crosses_lower_edge (hy : low.2 ≤ high.2) (hdx : p.1 < q.1) (hdy : p.2 ≤ q.2)
    (hp : ¬ (low.1 ≤ p.1 ∧ low.2 ≤ p.2)) (hq : ¬ (q.1 ≤ high.1 ∧ q.2 ≤ high.2))
    (hq2 : low.2 ≤ q.2) (hlow : 0 < turn p q low) (hleast : turn p q (high.1, low.2) ≤ 0) :
    CrossesEdge p q low high := by
  refine ⟨(low, (high.1, low.2)), by simp [rectEdges], (segmentsCross_eq ..).mpr ⟨?_, ?_⟩⟩
  · have hdx' : 0 < q.1 - p.1 := sub_pos.mpr hdx
    have hdy' : 0 ≤ q.2 - p.2 := sub_nonneg.mpr hdy
    unfold turn at hleast hlow
    dsimp only at hleast
    have hbelow : p.2 ≤ low.2 := by
      by_contra hnot
      refine hp ⟨?_, (not_le.mp hnot).le⟩
      by_contra hleft
      nlinarith [not_le.mp hnot, not_le.mp hleft]
    have habove : low.2 < q.2 := by
      refine lt_of_le_of_ne hq2 fun heq => hq ⟨?_, heq ▸ hy⟩
      rw [heq] at hleast hlow
      have hsteep : 0 < q.2 - p.2 := by
        refine lt_of_le_of_ne hdy' fun hflat => ?_
        rw [← hflat] at hlow
        simp at hlow
      by_contra hnot
      linarith [mul_pos hsteep (sub_pos.mpr (not_le.mp hnot))]
    have hwide : low.1 < high.1 := by
      by_contra hnot
      nlinarith
    have hpSide : ¬ 0 < turn low (high.1, low.2) p := by
      unfold turn
      dsimp only
      nlinarith
    have hqSide : 0 < turn low (high.1, low.2) q := by
      unfold turn
      dsimp only
      nlinarith
    simp [hpSide, hqSide]
  · simp [hlow, not_lt.mpr hleast]

/-- One with the lower left corner on its right, or on its line, enters through the left edge. -/
theorem crosses_left_edge (hx : low.1 ≤ high.1) (hdx : p.1 < q.1) (hdy : p.2 ≤ q.2)
    (hp : ¬ (low.1 ≤ p.1 ∧ low.2 ≤ p.2)) (hq : ¬ (q.1 ≤ high.1 ∧ q.2 ≤ high.2))
    (hq1 : low.1 ≤ q.1) (hlow : ¬ 0 < turn p q low) (hmost : 0 < turn p q (low.1, high.2)) :
    CrossesEdge p q low high := by
  refine ⟨((low.1, high.2), low), by simp [rectEdges], (segmentsCross_eq ..).mpr ⟨?_, ?_⟩⟩
  · have hdx' : 0 < q.1 - p.1 := sub_pos.mpr hdx
    have hdy' : 0 ≤ q.2 - p.2 := sub_nonneg.mpr hdy
    unfold turn at hmost hlow
    dsimp only at hmost
    have hleft : p.1 ≤ low.1 := by
      by_contra hnot
      refine hp ⟨(not_le.mp hnot).le, ?_⟩
      by_contra hbelow
      nlinarith [not_le.mp hnot, not_le.mp hbelow]
    have hright : low.1 < q.1 := by
      refine lt_of_le_of_ne hq1 fun heq => hq ⟨heq ▸ hx, ?_⟩
      rw [heq] at hmost hlow
      nlinarith
    have htall : low.2 < high.2 := by
      by_contra hnot
      nlinarith
    have hpSide : ¬ 0 < turn (low.1, high.2) low p := by
      unfold turn
      dsimp only
      nlinarith
    have hqSide : 0 < turn (low.1, high.2) low q := by
      unfold turn
      dsimp only
      nlinarith
    simp [hpSide, hqSide]
  · simp [hlow, hmost]

/-- One quadrant of directions: the segment enters through the lower or the left edge. -/
theorem Parts.crosses_of_rising (h : Parts p q low high) (hx : low.1 ≤ high.1) (hy : low.2 ≤ high.2)
    (hdx : p.1 < q.1) (hdy : p.2 ≤ q.2) : CrossesEdge p q low high := by
  have hq1 : low.1 ≤ q.1 := by simpa [max_eq_right hdx.le] using h.overlap.left
  have hp1 : p.1 ≤ high.1 := by simpa [min_eq_left hdx.le] using h.overlap.right
  have hq2 : low.2 ≤ q.2 := by simpa [max_eq_right hdy] using h.overlap.below
  have hp2 : p.2 ≤ high.2 := by simpa [min_eq_left hdy] using h.overlap.above
  have hp : ¬ (low.1 ≤ p.1 ∧ low.2 ≤ p.2) := fun hin => h.fstOutside ⟨hin, hp1, hp2⟩
  have hq : ¬ (q.1 ≤ high.1 ∧ q.2 ≤ high.2) := fun hin => h.sndOutside ⟨⟨hq1, hq2⟩, hin⟩
  have hmost : 0 < turn p q (low.1, high.2) := by
    obtain ⟨c, hc, hleft⟩ := h.left
    exact hleft.trans_le (turn_corner hx hy hdx.le hdy hc).2
  have hleast : turn p q (high.1, low.2) ≤ 0 := by
    obtain ⟨c, hc, hnotLeft⟩ := h.notLeft
    exact (turn_corner hx hy hdx.le hdy hc).1.trans hnotLeft
  by_cases hlow : 0 < turn p q low
  · exact crosses_lower_edge hy hdx hdy hp hq hq2 hlow hleast
  · exact crosses_left_edge hx hdx hdy hp hq hq1 hlow hmost

theorem Parts.crosses_of_falling (h : Parts p q low high) (hx : low.1 ≤ high.1)
    (hy : low.2 ≤ high.2) (hdx : p.1 ≤ q.1) (hdy : q.2 < p.2) : CrossesEdge p q low high :=
  (h.rotate.rotate.rotate.crosses_of_rising (by simpa [rotatedLow, rotatedHigh] using hy)
    (by simpa [rotatedLow, rotatedHigh] using hx) (by simpa [Planar.rotate] using hdy)
    (by simpa [Planar.rotate] using hdx)).of_rotate.of_rotate.of_rotate

theorem Parts.crosses (h : Parts p q low high) (hx : low.1 ≤ high.1) (hy : low.2 ≤ high.2) :
    CrossesEdge p q low high := by
  have hne : p ≠ q := by
    rintro rfl
    obtain ⟨c, -, hleft⟩ := h.left
    exact absurd hleft (by simp [turn])
  rcases le_or_gt p.2 q.2 with hdy | hdy
  · rcases lt_or_ge p.1 q.1 with hdx | hdx
    · exact h.crosses_of_rising hx hy hdx hdy
    · rcases hdy.lt_or_eq with hlt | heq
      · exact (h.rotate.crosses_of_rising (by simpa [rotatedLow, rotatedHigh] using hy)
          (by simpa [rotatedLow, rotatedHigh] using hx) (by simpa [Planar.rotate] using hlt)
          (by simpa [Planar.rotate] using hdx)).of_rotate
      · have hlt : q.1 < p.1 := lt_of_le_of_ne hdx fun hsame => hne (Prod.ext hsame.symm heq)
        exact (h.rotate.rotate.crosses_of_rising (by simpa [rotatedLow, rotatedHigh] using hx)
          (by simpa [rotatedLow, rotatedHigh] using hy) (by simpa [Planar.rotate] using hlt)
          (by simpa [Planar.rotate] using heq.ge)).of_rotate.of_rotate
  · rcases le_or_gt p.1 q.1 with hdx | hdx
    · exact h.crosses_of_falling hx hy hdx hdy
    · exact (h.rotate.rotate.crosses_of_rising (by simpa [rotatedLow, rotatedHigh] using hx)
        (by simpa [rotatedLow, rotatedHigh] using hy) (by simpa [Planar.rotate] using hdx)
        (by simpa [Planar.rotate] using hdy.le)).of_rotate.of_rotate

/-- An end of the segment lies in the rectangle. -/
def EndInside (p q low high : K × K) : Prop := p ∈ Set.Icc low high ∨ q ∈ Set.Icc low high

/-- Some corner of the rectangle lies strictly to the left of the line from `p` to `q`. -/
def CornerLeft (p q low high : K × K) : Prop := ∃ c ∈ corners low high, 0 < turn p q c

omit [Field K] [LinearOrder K] [IsStrictOrderedRing K] in
theorem edge_ends {edge : (K × K) × (K × K)}
    (h : edge ∈ rectEdges low.1 low.2 high.1 high.2) :
    edge.1 ∈ corners low high ∧ edge.2 ∈ corners low high := by
  simp only [rectEdges, List.mem_cons, List.not_mem_nil, or_false] at h
  rcases h with rfl | rfl | rfl | rfl <;> simp [corners]

/-- The test finds a shared point exactly when an end is inside or a corner lies to the left. -/
theorem intersects_iff_meets (hx : low.1 ≤ high.1) (hy : low.2 ≤ high.2) :
    intersects p q low high = true ↔
      Meets p q low high ∧ (EndInside p q low high ∨ CornerLeft p q low high) := by
  constructor
  · intro h
    refine ⟨meets_of_intersects hx hy h, ?_⟩
    obtain ⟨-, hp | hq | ⟨edge, hedge, hcross⟩⟩ := intersects_iff.mp h
    · exact .inl (.inl hp)
    · exact .inl (.inr hq)
    · -- one end of a crossed edge lies to the left of the line
      obtain ⟨-, hsides⟩ := (segmentsCross_eq ..).mp hcross
      obtain ⟨hfst, hsnd⟩ := edge_ends hedge
      by_cases hleft : 0 < turn p q edge.1
      · exact .inr ⟨_, hfst, hleft⟩
      · exact .inr ⟨_, hsnd, by simpa [hleft] using hsides⟩
  · rintro ⟨⟨s, hs, hbox⟩, hparts⟩
    refine intersects_iff.mpr ⟨overlap_of_mem hs hbox, ?_⟩
    by_cases hp : p ∈ Set.Icc low high
    · exact .inl hp
    by_cases hq : q ∈ Set.Icc low high
    · exact .inr (.inl hq)
    obtain ⟨c, hc, hnotLeft⟩ := exists_corner_le (p := p) (q := q) hbox
    rw [turn_of_mem_segment hs] at hnotLeft
    have hleft := hparts.resolve_left fun hend => hend.elim hp hq
    exact .inr (.inr (Parts.crosses ⟨overlap_of_mem hs hbox, hp, hq, hleft, c, hc, hnotLeft⟩ hx hy))

/-- The test is exact, and does not depend on the order of the segment's ends. -/
structure ExactTest (p q low high : K × K) : Prop where
  exact : intersects p q low high = true ↔ Meets p q low high
  symmetric : intersects p q low high = intersects q p low high

omit [IsStrictOrderedRing K] in
theorem meets_comm : Meets p q low high ↔ Meets q p low high := by
  unfold Meets
  rw [segment_symm]

/-- The test is exact where the segment and the rectangle share no point, where an end lies
in the rectangle, and where the line has corners on both sides. -/
theorem exactTest_iff (hx : low.1 ≤ high.1) (hy : low.2 ≤ high.2) :
    ExactTest p q low high ↔ ¬ Meets p q low high ∨ EndInside p q low high ∨
      (CornerLeft p q low high ∧ CornerLeft q p low high) := by
  have hforth := intersects_iff_meets (p := p) (q := q) hx hy
  have hback := intersects_iff_meets (p := q) (q := p) hx hy
  have hends : EndInside q p low high ↔ EndInside p q low high := or_comm
  rw [meets_comm (p := q), hends] at hback
  have hsame : ExactTest p q low high ↔ (intersects p q low high = true ↔ Meets p q low high) ∧
      (intersects p q low high = true ↔ intersects q p low high = true) :=
    ⟨fun h => ⟨h.exact, by rw [h.symmetric]⟩, fun h => ⟨h.1, Bool.eq_iff_iff.mpr h.2⟩⟩
  rw [hsame, hforth, hback]
  by_cases hmeets : Meets p q low high
  · by_cases hend : EndInside p q low high
    · simp [hmeets, hend]
    · simp only [hmeets, hend, true_and, false_or, iff_true, not_true_eq_false]
      exact ⟨fun h => ⟨h.1, h.2.mp h.1⟩, fun h => ⟨h.1, iff_of_true h.1 h.2⟩⟩
  · simp [hmeets]

theorem exactTest_unitSquare : ExactTest ((0, 0) : ℚ × ℚ) (2, 2) (0, 0) (1, 1) ↔
    ¬ Meets ((0, 0) : ℚ × ℚ) (2, 2) (0, 0) (1, 1) ∨ EndInside ((0, 0) : ℚ × ℚ) (2, 2) (0, 0) (1, 1) ∨
      (CornerLeft ((0, 0) : ℚ × ℚ) (2, 2) (0, 0) (1, 1) ∧
        CornerLeft ((2, 2) : ℚ × ℚ) (0, 0) (0, 0) (1, 1)) :=
  exactTest_iff (by decide) (by decide)

/-- A segment that touches a corner of the square: it is missed from one end, found from the
other. -/
theorem touchedCorner_missed : Meets ((0, 2) : ℚ × ℚ) (2, 0) (0, 0) (1, 1) ∧
    intersects ((0, 2) : ℚ × ℚ) (2, 0) (0, 0) (1, 1) = false ∧
    intersects ((2, 0) : ℚ × ℚ) (0, 2) (0, 0) (1, 1) = true := by
  refine ⟨⟨(1, 1), mem_segment_iff.mpr ⟨1 / 2, by norm_num, by norm_num, by norm_num⟩, ?_⟩, ?_, ?_⟩
  · simp [Prod.le_def]
  · decide +kernel
  · decide +kernel

end Exactness

section Classification

/-- A stroke shares a point with the closed box, grown by the buffer on each side. -/
def Touches (box : Box) (buffer : ℚ) (stroke : StrokeSegment) : Prop :=
  Meets (stroke.x1, stroke.y1) (stroke.x2, stroke.y2) (box.x - buffer, box.y - buffer)
    (box.x + box.w + buffer, box.y + box.h + buffer)

variable {conversions : Conversions ℚ} {box : Box} {buffer : ℚ} {stroke : StrokeSegment}
  {strokes : List StrokeSegment} {currentStatus : Text}

theorem touches_of_hits (hw : 0 ≤ box.w) (hh : 0 ≤ box.h) (hbuffer : 0 ≤ buffer)
    (h : hits box buffer stroke = true) : Touches box buffer stroke := by
  refine meets_of_intersects ?_ ?_ h
  · dsimp only
    linarith
  · dsimp only
    linarith

theorem hits_of_touches (hw : 0 ≤ box.w) (hh : 0 ≤ box.h) (hbuffer : 0 < buffer)
    (h : Touches box 0 stroke) : hits box buffer stroke = true := by
  obtain ⟨s, hs, hlow, hhigh⟩ := h
  rw [Prod.le_def] at hlow hhigh
  dsimp only at hlow hhigh
  have hinside : s ∈ Set.Icc (box.x - buffer, box.y - buffer)
      (box.x + box.w + buffer, box.y + box.h + buffer) :=
    ⟨⟨by dsimp only; linarith, by dsimp only; linarith⟩,
      ⟨by dsimp only; linarith, by dsimp only; linarith⟩⟩
  have hsides : EndInside (stroke.x1, stroke.y1) (stroke.x2, stroke.y2)
        (box.x - buffer, box.y - buffer) (box.x + box.w + buffer, box.y + box.h + buffer) ∨
      CornerLeft (stroke.x1, stroke.y1) (stroke.x2, stroke.y2) (box.x - buffer, box.y - buffer)
        (box.x + box.w + buffer, box.y + box.h + buffer) := by
    by_cases hpoint : (stroke.x1, stroke.y1) = (stroke.x2, stroke.y2)
    · rw [hpoint, segment_same, Set.mem_singleton_iff] at hs
      rw [hpoint, ← hs]
      exact .inl (.inl hinside)
    · refine .inr (exists_corner_left (s := s) ⟨?_, ?_⟩ ⟨?_, ?_⟩ hpoint (turn_of_mem_segment hs))
      all_goals
        dsimp only
        linarith
  refine (intersects_iff_meets ?_ ?_).mpr ⟨⟨s, hs, hinside⟩, hsides⟩
  all_goals
    dsimp only
    linarith

/-- What a result says about the strokes it was made from. -/
structure Judged (box : Box) (buffer : ℚ) (strokes : List StrokeSegment) (currentStatus : Text)
    (result : CancellationResult) : Prop where
  unmissed : (∃ stroke ∈ strokes, Touches box 0 stroke) →
    result.isCancelled = true ∨ result.isAmbiguous = true
  cancelled : result.isCancelled = true → ∃ stroke ∈ strokes, Touches box 0 stroke
  detected : result.isCancelled = true ∨ result.isAmbiguous = true →
    ∃ stroke ∈ strokes, Touches box buffer stroke
  live : result.entryStatus = "live".toList →
    currentStatus = "live".toList ∧ result.isCancelled = false ∧ result.isAmbiguous = false

theorem touches_grown (hbuffer : 0 ≤ buffer) (h : Touches box 0 stroke) :
    Touches box buffer stroke := by
  obtain ⟨s, hs, hlow, hhigh⟩ := h
  rw [Prod.le_def] at hlow hhigh
  dsimp only at hlow hhigh
  exact ⟨s, hs, ⟨by dsimp only; linarith, by dsimp only; linarith⟩,
    ⟨by dsimp only; linarith, by dsimp only; linarith⟩⟩

theorem knownStatus_eq_live (h : knownStatus currentStatus = "live".toList) :
    currentStatus = "live".toList := by
  unfold knownStatus at h
  split at h
  · exact h
  · exact absurd h (by decide)

/-- By the two kinds of strokes: one of the first cancels, one of the second is ambiguous. -/
theorem judged_classified (hw : 0 ≤ box.w) (hh : 0 ≤ box.h) (hbuffer : 0 < buffer)
    (strokes : List StrokeSegment) (currentStatus : Text) :
    Judged box buffer strokes currentStatus (classified conversions (knownStatus currentStatus)
      buffer (strokes.filter (hits box 0))
      (strokes.filter fun stroke => !hits box 0 stroke && hits box buffer stroke)) := by
  have hdirect : ∀ stroke ∈ strokes.filter (hits box 0), stroke ∈ strokes ∧ Touches box 0 stroke :=
    fun stroke hmem => ⟨(List.mem_filter.mp hmem).1,
      touches_of_hits hw hh le_rfl (List.mem_filter.mp hmem).2⟩
  unfold classified
  split
  · rename_i hne
    obtain ⟨stroke, hstroke⟩ := List.exists_mem_of_ne_nil _ hne
    obtain ⟨hmem, htouches⟩ := hdirect stroke hstroke
    exact {
      unmissed := fun _ => .inl rfl
      cancelled := fun _ => ⟨stroke, hmem, htouches⟩
      detected := fun _ => ⟨stroke, hmem, touches_grown hbuffer.le htouches⟩
      live := fun h => by
        dsimp only at h
        split at h
        · exact absurd h (by decide)
        · exact absurd h (by decide) }
  · rename_i hnone
    rw [not_not, List.filter_eq_nil_iff] at hnone
    split
    · rename_i hne
      obtain ⟨stroke, hstroke⟩ := List.exists_mem_of_ne_nil _ hne
      obtain ⟨hmem, hnear⟩ := List.mem_filter.mp hstroke
      rw [Bool.and_eq_true] at hnear
      exact {
        unmissed := fun _ => .inr rfl
        cancelled := fun h => nomatch h
        detected := fun _ => ⟨stroke, hmem, touches_of_hits hw hh hbuffer.le hnear.2⟩
        live := fun h => absurd (show "unknown".toList = "live".toList from h) (by decide) }
    · rename_i hnear
      rw [not_not, List.filter_eq_nil_iff] at hnear
      exact {
        unmissed := fun ⟨stroke, hmem, htouches⟩ => by
          have hhits := hits_of_touches hw hh hbuffer htouches
          have hmissed := hnear stroke hmem
          simp [hhits, hnone stroke hmem] at hmissed
        cancelled := fun h => nomatch h
        detected := fun h => by simp at h
        live := fun h => ⟨knownStatus_eq_live h, rfl, rfl⟩ }

theorem judged_untouched (box : Box) (buffer : ℚ) (currentStatus rationale : Text) :
    Judged box buffer [] currentStatus ⟨false, false, knownStatus currentStatus, [], rationale⟩ where
  unmissed := fun ⟨_, hmem, _⟩ => nomatch hmem
  cancelled := fun h => nomatch h
  detected := fun h => by simp at h
  live := fun h => ⟨knownStatus_eq_live h, rfl, rfl⟩

theorem classify_judged {bbox : Value ℚ} {pageStrokes : List PageStroke}
    (hbbox : bbox.truthy = true) (hbox : readBox conversions bbox = .ok box)
    (hstrokes : readStrokes conversions pageStrokes = .ok strokes)
    (hw : 0 ≤ box.w) (hh : 0 ≤ box.h) (hbuffer : 0 < buffer) (currentStatus : Text) :
    ∃ result, classifyEntryCancellation conversions bbox pageStrokes currentStatus buffer =
      .ok result ∧ Judged box buffer strokes currentStatus result := by
  unfold classifyEntryCancellation
  dsimp only
  split
  · rename_i hskipped
    obtain rfl : pageStrokes = [] := hskipped.resolve_left (by simp [hbbox])
    cases hstrokes
    exact ⟨_, rfl, judged_untouched box buffer currentStatus _⟩
  · rw [hbox, hstrokes]
    exact ⟨_, rfl, judged_classified hw hh hbuffer strokes currentStatus⟩

/-- A stroke that touches the box is never missed, and what is reported is there. -/
theorem strikethrough_unmissed (conversions : Conversions ℚ) {bbox : Value ℚ} {box : Box}
    {pageStrokes : List PageStroke} {strokes : List StrokeSegment} {bufferPx : ℚ}
    (hbbox : bbox.truthy = true) (hbox : readBox conversions bbox = .ok box)
    (hstrokes : readStrokes conversions pageStrokes = .ok strokes)
    (hw : 0 ≤ box.w) (hh : 0 ≤ box.h) (hbuffer : 0 < bufferPx) (currentStatus : Text) :
    (∃ result, classifyEntryCancellation conversions bbox pageStrokes currentStatus bufferPx =
        .ok result ∧ Judged box bufferPx strokes currentStatus result) ∧
      ((∃ stroke ∈ strokes, Touches box 0 stroke) →
        detectStrikethrough conversions bbox pageStrokes = .ok true) := by
  refine ⟨classify_judged hbbox hbox hstrokes hw hh hbuffer currentStatus, fun htouched => ?_⟩
  obtain ⟨result, hresult, hjudged⟩ := classify_judged hbbox hbox hstrokes hw hh
    (show 0 < defaultBufferPx by norm_num [defaultBufferPx]) "unknown".toList
  unfold detectStrikethrough
  rw [hresult, Raised.ok_bind, Raised.pure_eq]
  exact congrArg Except.ok ((Bool.or_eq_true ..).mpr (hjudged.unmissed htouched))

def sampleConversions : Conversions ℚ where
  repr _ := "value".toList
  parse text := .error (.valueError ("could not convert string to float: ".toList ++ text))

def sampleBbox : Value ℚ :=
  .dict [("x".toList, .number 0), ("y".toList, .number 0), ("w".toList, .number 10),
    ("h".toList, .number 4)]

def throughStroke : StrokeSegment where
  x1 := -1
  y1 := 2
  x2 := 11
  y2 := 2

theorem strikethrough_unmissed_through :
    (∃ result, classifyEntryCancellation sampleConversions sampleBbox [.segment throughStroke]
        "live".toList 4 = .ok result ∧
        Judged ⟨0, 0, 10, 4⟩ 4 [throughStroke] "live".toList result) ∧
      ((∃ stroke ∈ [throughStroke], Touches ⟨0, 0, 10, 4⟩ 0 stroke) →
        detectStrikethrough sampleConversions sampleBbox [.segment throughStroke] = .ok true) :=
  strikethrough_unmissed sampleConversions rfl rfl rfl (by decide) (by decide) (by decide)
    "live".toList

end Classification

end LandRecords.Extract
