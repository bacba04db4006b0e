import LandRecords.Base.EdgeSums
import LandRecords.Parcels.Labels

/-! The ray test as a parity: a point is inside when an odd number of edges meets its ray. In exact
arithmetic the parity of a closed ring does not depend on its start or direction, and a chord
splits it. -/
namespace LandRecords.Parcels

open EdgeSums

theorem castRay_xinters (operations : FloatOperations) (p p1 : Point) (xinters xinters' : ℚ)
    (inside : Bool) (rest : List Point) :
    castRay operations p p1 xinters inside rest = castRay operations p p1 xinters' inside rest := by
  induction rest generalizing p1 xinters xinters' inside with
  | nil => rfl
  | cons p2 rest ih =>
    rw [castRay, castRay]
    split
    · rename_i hmeets
      have hne : p1.2 ≠ p2.2 := by
        intro heq
        rw [heq, min_self, max_self] at hmeets
        exact hmeets.1.not_ge hmeets.2.1
      rw [dif_pos hne, dif_pos hne]
    · exact ih ..

/-- The ray from `p` to the right meets the edge, its lower end left out. -/
def meetsRay (p a b : Point) : Bool :=
  (decide (min a.2 b.2 < p.2) && decide (p.2 ≤ max a.2 b.2) && decide (p.1 ≤ max a.1 b.1)) &&
    (decide (a.1 = b.1) ||
      decide (p.1 ≤ (p.2 - a.2) * (b.1 - a.1) / (b.2 - a.2) + a.1))

theorem castRay_cons (p p1 p2 : Point) (xinters : ℚ) (inside : Bool) (rest : List Point) :
    castRay .exact p p1 xinters inside (p2 :: rest) =
      castRay .exact p p2 xinters (inside ^^ meetsRay p p1 p2) rest := by
  have hflip : ∀ (c : Prop) [Decidable c], (if c then !inside else inside) = (inside ^^ decide c) := by
    intro c _
    by_cases hc : c <;> simp [hc]
  rw [castRay]
  by_cases hguard : min p1.2 p2.2 < p.2 ∧ p.2 ≤ max p1.2 p2.2 ∧ p.1 ≤ max p1.1 p2.1
  · have hne : p1.2 ≠ p2.2 := by
      intro heq
      rw [heq, min_self, max_self] at hguard
      exact hguard.1.not_ge hguard.2.1
    rw [if_pos hguard, dif_pos hne, castRay_xinters .exact p p2 _ xinters]
    congr 1
    simp only [meetsRay, hguard, FloatOperations.exact, decide_true, Bool.true_and,
      ← Bool.decide_or]
    exact hflip _
  · rw [if_neg hguard]
    congr 1
    simp only [not_and_or] at hguard
    simp only [meetsRay]
    rcases hguard with h | h | h <;> simp [h]

theorem bit_castRay (p p1 : Point) (xinters : ℚ) (inside : Bool) (rest : List Point) :
    bit (castRay .exact p p1 xinters inside rest) =
      bit inside + pathSum (fun a b => bit (meetsRay p a b)) (p1 :: rest) := by
  induction rest generalizing p1 inside with
  | nil => rw [castRay, pathSum_singleton, add_zero]
  | cons p2 rest ih => rw [castRay_cons, ih, pathSum_cons_cons, ← add_assoc, ← bit_xor]

theorem meetsRay_self (p a : Point) : meetsRay p a a = false := by
  have hnone : ¬ (a.2 < p.2 ∧ p.2 ≤ a.2) := fun h => h.1.not_ge h.2
  by_cases hlow : a.2 < p.2
  · simp [meetsRay, not_le.mpr hlow]
  · simp [meetsRay, hlow]

theorem meetsRay_comm (p a b : Point) : meetsRay p a b = meetsRay p b a := by
  by_cases hlevel : a.2 = b.2
  · by_cases hlow : a.2 < p.2
    · simp [meetsRay, ← hlevel, not_le.mpr hlow]
    · simp [meetsRay, ← hlevel, hlow]
  · have hab : b.2 - a.2 ≠ 0 := sub_ne_zero.mpr (Ne.symm hlevel)
    have hba : a.2 - b.2 ≠ 0 := sub_ne_zero.mpr hlevel
    have hmeet : (p.2 - a.2) * (b.1 - a.1) / (b.2 - a.2) + a.1 =
        (p.2 - b.2) * (a.1 - b.1) / (a.2 - b.2) + b.1 := by
      field_simp
      ring
    have hupright : (a.1 = b.1) = (b.1 = a.1) := propext eq_comm
    rw [meetsRay, meetsRay, min_comm, max_comm, max_comm a.1, hmeet]
    simp only [hupright]

/-- A closed ring contains the points from which an odd number of its edges is met. -/
theorem bit_pointInPolygonRing (p : Point) (vertices : List Point) :
    bit (pointInPolygonRing .exact p (closed vertices)) =
      ringSum (fun a b => bit (meetsRay p a b)) vertices := by
  cases vertices with
  | nil => rfl
  | cons a path =>
    have hcoords : a :: (path ++ [a]) ++ [a] = a :: path ++ a :: [a] := by simp
    rw [ringSum, closed_cons, List.cons_append, pointInPolygonRing, bit_castRay, bit_false,
      zero_add, hcoords, List.cons_append, pathSum_cons_cons, meetsRay_self, bit_false, zero_add,
      ← List.cons_append, pathSum_append, pathSum_cons_cons, meetsRay_self, bit_false,
      pathSum_singleton, add_zero, add_zero]
    rfl

theorem bit_meetsRay_comm (p a b : Point) : bit (meetsRay p b a) = -bit (meetsRay p a b) := by
  rw [neg_bit, meetsRay_comm]

theorem eq_closed {coords : List Point} (hclosed : coords.head? = coords.getLast?)
    (hlength : coords.length ≠ 1) : coords = closed coords.dropLast := by
  cases coords using List.reverseRecOn with
  | nil => rfl
  | append_singleton path last =>
    rw [List.dropLast_concat]
    cases path with
    | nil => simp at hlength
    | cons a path =>
      rw [List.getLast?_concat] at hclosed
      obtain rfl := Option.some.inj hclosed
      rfl

/-- A chord splits a ring into two of which exactly one contains each point of the ring and none
or both any other, and a ring contains the same points from any start and in either direction. -/
theorem pointInPolygonRing_split (p : Point) :
    (∀ coords : List Point, coords.head? = coords.getLast? → coords.length ≠ 1 →
      coords = closed coords.dropLast) ∧
    (∀ (before between after : List Point) (a b : Point),
      pointInPolygonRing .exact p (closed (before ++ a :: between ++ b :: after)) = true ↔
        Xor (pointInPolygonRing .exact p (closed (a :: between ++ [b])) = true)
          (pointInPolygonRing .exact p (closed (b :: after ++ before ++ [a])) = true)) ∧
    (∀ path path' : List Point,
      pointInPolygonRing .exact p (closed (path ++ path')) =
        pointInPolygonRing .exact p (closed (path' ++ path))) ∧
    ∀ vertices : List Point,
      pointInPolygonRing .exact p (closed vertices).reverse = pointInPolygonRing .exact p (closed vertices) := by
  refine ⟨fun coords => eq_closed, fun before between after a b => ?_, fun path path' => ?_,
    fun vertices => ?_⟩
  · have hsplit : pointInPolygonRing .exact p (closed (before ++ a :: between ++ b :: after)) =
        (pointInPolygonRing .exact p (closed (a :: between ++ [b])) ^^
          pointInPolygonRing .exact p (closed (b :: after ++ before ++ [a]))) := by
      apply bit_injective
      rw [bit_xor, bit_pointInPolygonRing, bit_pointInPolygonRing, bit_pointInPolygonRing,
        ringSum_chord (bit_meetsRay_comm p)]
    rw [hsplit]
    cases pointInPolygonRing .exact p (closed (a :: between ++ [b])) <;>
      cases pointInPolygonRing .exact p (closed (b :: after ++ before ++ [a])) <;> simp [Xor]
  · apply bit_injective
    rw [bit_pointInPolygonRing, bit_pointInPolygonRing, ringSum_append]
  · cases vertices with
    | nil => rfl
    | cons a path =>
      have hreverse : (closed (a :: path)).reverse = closed (a :: path.reverse) := by simp
      have hsame : ringSum (fun a b => bit (meetsRay p a b)) (a :: path.reverse) =
          ringSum (fun a b => bit (meetsRay p a b)) (a :: path).reverse := by
        rw [List.reverse_cons, ringSum_append]
        rfl
      apply bit_injective
      rw [hreverse, bit_pointInPolygonRing, bit_pointInPolygonRing, hsame,
        ringSum_reverse (bit_meetsRay_comm p), ← bit_pointInPolygonRing, neg_bit]

end LandRecords.Parcels
