import Mathlib

/-! Turns of the plane that take one centre to another. What a turn takes a box to reaches as far
in each direction as one of the corners does. -/
namespace LandRecords.Plane

section Turns

variable {K : Type*} [CommRing K] {c s : K} {source target p q : K × K}

def squaredDistance (p q : K × K) : K := (p.1 - q.1) ^ 2 + (p.2 - q.2) ^ 2

def turn (c s : K) (source target p : K × K) : K × K :=
  (c * (p.1 - source.1) - s * (p.2 - source.2) + target.1,
    s * (p.1 - source.1) + c * (p.2 - source.2) + target.2)

theorem turn_back (h : c * c + s * s = 1) :
    turn c (-s) target source (turn c s source target p) = p := by
  ext
  · simp only [turn]
    linear_combination (p.1 - source.1) * h
  · simp only [turn]
    linear_combination (p.2 - source.2) * h

theorem turn_forth (h : c * c + s * s = 1) :
    turn c s source target (turn c (-s) target source p) = p := by
  have hback := @turn_back K _ c (-s) target source p (by rw [neg_mul_neg, h])
  rwa [neg_neg] at hback

theorem turn_bijective (h : c * c + s * s = 1) : (turn c s source target).Bijective :=
  Function.bijective_iff_has_inverse.mpr
    ⟨turn c (-s) target source, fun _ => turn_back h, fun _ => turn_forth h⟩

theorem squaredDistance_turn (h : c * c + s * s = 1) :
    squaredDistance (turn c s source target p) (turn c s source target q) =
      squaredDistance p q := by
  simp only [squaredDistance, turn]
  linear_combination ((p.1 - q.1) ^ 2 + (p.2 - q.2) ^ 2) * h

theorem turn_fst :
    (turn c s source target p).1 =
      c * p.1 + -s * p.2 + (s * source.2 - c * source.1 + target.1) := by
  simp only [turn]
  ring

theorem turn_snd :
    (turn c s source target p).2 =
      s * p.1 + c * p.2 + (target.2 - s * source.1 - c * source.2) := by
  simp only [turn]
  ring

end Turns

section Corners

variable {K : Type*} [Field K] [LinearOrder K] [IsStrictOrderedRing K] {p q r : K × K}

def box (q r : K × K) : Set (K × K) := Set.uIcc q.1 r.1 ×ˢ Set.uIcc q.2 r.2

def corners (q r : K × K) : List (K × K) := [q, (r.1, q.2), (q.1, r.2), r]

omit [Field K] [IsStrictOrderedRing K] in
theorem corners_subset_box : ∀ corner ∈ corners q r, corner ∈ box q r := by
  simp [corners, box, -Set.uIcc_prod_uIcc]

theorem exists_end_le {u u₀ u₁ : K} (a : K) (hu : u ∈ Set.uIcc u₀ u₁) :
    a * u ≤ a * u₀ ∨ a * u ≤ a * u₁ := by
  have hau : a * u ∈ Set.uIcc (a * u₀) (a * u₁) := by
    rw [← Set.image_const_mul_uIcc]
    exact Set.mem_image_of_mem _ hu
  cases Set.mem_uIcc.mp hau with
  | inl h => exact .inr h.2
  | inr h => exact .inl h.2

theorem exists_corner_ge (a b d : K) (hp : p ∈ box q r) :
    ∃ corner ∈ corners q r, a * p.1 + b * p.2 + d ≤ a * corner.1 + b * corner.2 + d := by
  cases exists_end_le a hp.1 with
  | inl h₁ =>
    cases exists_end_le b hp.2 with
    | inl h₂ => exact ⟨q, by simp [corners], by gcongr⟩
    | inr h₂ => exact ⟨(q.1, r.2), by simp [corners], by gcongr⟩
  | inr h₁ =>
    cases exists_end_le b hp.2 with
    | inl h₂ => exact ⟨(r.1, q.2), by simp [corners], by gcongr⟩
    | inr h₂ => exact ⟨r, by simp [corners], by gcongr⟩

theorem exists_corner_le (a b d : K) (hp : p ∈ box q r) :
    ∃ corner ∈ corners q r, a * corner.1 + b * corner.2 + d ≤ a * p.1 + b * p.2 + d := by
  have ⟨corner, hcorner, hle⟩ := exists_corner_ge (-a) (-b) (-d) hp
  exact ⟨corner, hcorner, by linarith⟩

variable {c s : K} {source target : K × K}

theorem turn_mem_box {low high : K × K}
    (h₁ : ∀ corner ∈ corners q r, (turn c s source target corner).1 ∈ Set.Icc low.1 high.1)
    (h₂ : ∀ corner ∈ corners q r, (turn c s source target corner).2 ∈ Set.Icc low.2 high.2)
    (hp : p ∈ box q r) : turn c s source target p ∈ box low high := by
  constructor
  · have ⟨least, hleast, hle⟩ := exists_corner_le c (-s)
      (s * source.2 - c * source.1 + target.1) hp
    have ⟨greatest, hgreatest, hge⟩ := exists_corner_ge c (-s)
      (s * source.2 - c * source.1 + target.1) hp
    simp only [← turn_fst] at hle hge
    exact Set.mem_uIcc_of_le ((h₁ least hleast).1.trans hle) (hge.trans (h₁ greatest hgreatest).2)
  · have ⟨least, hleast, hle⟩ := exists_corner_le s c
      (target.2 - s * source.1 - c * source.2) hp
    have ⟨greatest, hgreatest, hge⟩ := exists_corner_ge s c
      (target.2 - s * source.1 - c * source.2) hp
    simp only [← turn_snd] at hle hge
    exact Set.mem_uIcc_of_le ((h₂ least hleast).1.trans hle) (hge.trans (h₂ greatest hgreatest).2)

end Corners

end LandRecords.Plane
