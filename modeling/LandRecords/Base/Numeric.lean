import LandRecords.Base.Raised
import Mathlib

/-! Numbers as a dynamically typed program sees them. A comparison with NaN is
false, so the order is not total, and an operation may raise instead of
returning. The laws speak about comparisons only: arithmetic may round. -/
namespace LandRecords

class Numeric (ν : Type) where
  zero : ν
  half : ν
  one : ν
  ofNat : Nat → ν
  lt : ν → ν → Bool
  le : ν → ν → Bool
  eq : ν → ν → Bool
  isFinite : ν → Except Raised Bool
  float : ν → Except Raised ν
  sub : ν → ν → Except Raised ν
  square : ν → Except Raised ν
  /-- The builtin `sum`, which is free to compensate its rounding. -/
  sum : List ν → Except Raised ν
  sqrt : ν → Except Raised ν
  div : ν → ν → Except Raised ν
  render : ν → Text
  le_of_lt : ∀ a b, lt a b = true → le a b = true
  not_lt_of_le : ∀ a b, le a b = true → lt b a = false
  zero_le_zero : le zero zero = true
  zero_le_half : le zero half = true
  half_le_one : le half one = true
  zero_lt_one : lt zero one = true
  one_le_one : le one one = true
  isFinite_zero : isFinite zero = .ok true
  isFinite_half : isFinite half = .ok true
  isFinite_one : isFinite one = .ok true
  isFinite_between : ∀ a, lt zero a = true → lt a one = true → isFinite a = .ok true

namespace Numeric

variable {ν : Type} [Numeric ν]

/-- `max(a, b)`: the first argument unless the second is greater. -/
def max (a b : ν) : ν := if lt a b then b else a

/-- `min(a, b)`: the first argument unless the second is smaller. -/
def min (a b : ν) : ν := if lt b a then b else a

theorem zero_le_one : le (zero : ν) one = true := le_of_lt _ _ zero_lt_one

theorem lt_irrefl_zero : lt (zero : ν) zero = false := not_lt_of_le _ _ zero_le_zero

theorem zero_ne_one : (zero : ν) ≠ one := by
  intro h
  have hlt := zero_lt_one (ν := ν)
  rw [← h, lt_irrefl_zero] at hlt
  exact Bool.noConfusion hlt

/-- `min(1.0, max(0.0, a))`. -/
def clamp (a : ν) : ν := min one (max zero a)

/-- Whatever is clamped, NaN and infinities included, lands at an end of the unit
interval or strictly between them. -/
theorem clamp_cases (a : ν) :
    clamp a = zero ∨ clamp a = one ∨ lt zero (clamp a) = true ∧ lt (clamp a) one = true := by
  unfold clamp max
  by_cases hpos : lt zero a = true
  · simp only [hpos, if_true]
    by_cases hsmall : lt a one = true
    · simp only [min, hsmall, if_true]
      exact .inr (.inr ⟨hpos, trivial⟩)
    · simp only [min, hsmall]
      exact .inr (.inl rfl)
  · simp only [hpos, min]
    exact .inl (if_pos zero_lt_one)

theorem zero_le_clamp (a : ν) : le zero (clamp a) = true := by
  rcases clamp_cases a with h | h | h
  · rw [h, zero_le_zero]
  · rw [h, zero_le_one]
  · exact le_of_lt _ _ h.1

theorem clamp_le_one (a : ν) : le (clamp a) one = true := by
  rcases clamp_cases a with h | h | h
  · rw [h, zero_le_one]
  · rw [h, one_le_one]
  · exact le_of_lt _ _ h.2

theorem isFinite_clamp (a : ν) : isFinite (clamp a) = .ok true := by
  rcases clamp_cases a with h | h | h
  · rw [h, isFinite_zero]
  · rw [h, isFinite_one]
  · exact isFinite_between _ h.1 h.2

end Numeric

/-! The binary64 format has these laws: its comparisons go by the sign, the
exponent and the mantissa, and answer nothing about NaN. -/
namespace Binary64

open Float.Model

private theorem magnitude_swap (m₁ m₂ : Nat) (e₁ e₂ : Int) :
    (compare e₂ e₁).then (compare m₂ m₁) = ((compare e₁ e₂).then (compare m₁ m₂)).swap := by
  rw [Ordering.swap_then, ← Std.OrientedCmp.eq_swap, ← Std.OrientedCmp.eq_swap]

theorem compare_swap (a b : UnpackedFloat) : b.compare a = (a.compare b).map Ordering.swap := by
  rcases a with (_ | _) | _ | (_ | _) | ⟨_ | _, _, _, _⟩ <;>
    rcases b with (_ | _) | _ | (_ | _) | ⟨_ | _, _, _, _⟩ <;>
    -- two finite numbers of one sign are told apart by their magnitudes
    first
      | rfl
      | exact congrArg some (magnitude_swap _ _ _ _)
      | exact congrArg (fun o => some (Ordering.swap o)) (magnitude_swap _ _ _ _)

theorem le_of_lt (a b : UnpackedFloat) (h : a.lt b = true) : a.le b = true := by
  have hcompare : a.compare b = some .lt := by simpa [UnpackedFloat.lt] using h
  rw [UnpackedFloat.le, hcompare]
  rfl

theorem not_lt_of_le (a b : UnpackedFloat) (h : a.le b = true) : b.lt a = false := by
  unfold UnpackedFloat.le at h
  unfold UnpackedFloat.lt
  rw [compare_swap a b]
  cases hcompare : a.compare b with
  | none =>
    rw [hcompare] at h
    exact Bool.noConfusion h
  | some order =>
    cases order with
    | lt => rfl
    | eq => rfl
    | gt =>
      rw [hcompare] at h
      exact Bool.noConfusion h

theorem isFinite_between {sign sign' : UnpackedFloat.Sign} {m : Nat} {e : Int} {hm : 0 < m}
    (a : UnpackedFloat) (hpos : (UnpackedFloat.zero sign).lt a = true)
    (hone : a.lt (.finite sign' m e hm) = true) : a.isFinite = true := by
  cases a with
  | zero _ => rfl
  | finite _ _ _ _ => rfl
  | notANumber => simp [UnpackedFloat.lt, UnpackedFloat.compare] at hpos
  | infinity sign =>
    cases sign with
    | negative => simp [UnpackedFloat.lt, UnpackedFloat.compare] at hpos
    | positive => simp [UnpackedFloat.lt, UnpackedFloat.compare] at hone

theorem lt_eq (a b : Float) : a.lt b = a.toModel.unpack.lt b.toModel.unpack :=
  Bool.decide_coe _

theorem le_eq (a b : Float) : a.le b = a.toModel.unpack.le b.toModel.unpack :=
  Bool.decide_coe _

/-- `x ** 2`, where a finite operand with an infinite power raises. -/
def square (a : Float) : Except Raised Float :=
  if a.isFinite && !(a * a).isFinite then .error .overflowError else .ok (a * a)

def sqrt (a : Float) : Except Raised Float :=
  if a.lt 0.0 then .error (.valueError "math domain error".toList) else .ok a.sqrt

def div (a b : Float) : Except Raised Float :=
  if b.beq 0.0 then .error .zeroDivisionError else .ok (a / b)

instance : Numeric Float where
  zero := 0.0
  half := 0.5
  one := 1.0
  ofNat n := Float.ofNat n
  lt := Float.lt
  le := Float.le
  eq := Float.beq
  isFinite a := .ok a.isFinite
  float a := .ok a
  sub a b := .ok (a - b)
  square := square
  sum values := .ok (values.foldl (· + ·) 0.0)
  sqrt := sqrt
  div := div
  render a := a.toString.toList
  le_of_lt a b h := by
    rw [lt_eq] at h
    rw [le_eq, le_of_lt _ _ h]
  not_lt_of_le a b h := by
    rw [le_eq] at h
    rw [lt_eq, not_lt_of_le _ _ h]
  zero_le_zero := by decide +kernel
  zero_le_half := by decide +kernel
  half_le_one := by decide +kernel
  zero_lt_one := by decide +kernel
  one_le_one := by decide +kernel
  isFinite_zero := by decide +kernel
  isFinite_half := by decide +kernel
  isFinite_one := by decide +kernel
  isFinite_between a hpos hone := by
    have hzero : (Float.toModel 0.0).unpack = .zero .positive := rfl
    have hunit : (Float.toModel 1.0).unpack = .finite .positive (2 ^ 52) (-52) (by decide) := rfl
    rw [lt_eq, hzero] at hpos
    rw [lt_eq, hunit] at hone
    exact congrArg Except.ok (isFinite_between a.toModel.unpack hpos hone)

end Binary64

end LandRecords
