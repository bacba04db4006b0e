import LandRecords.Base.Numeric
import Mathlib

/-! Rounding of exact numbers to decimals, half to even. A root need not be rational: it
is rounded in one step with its radicand. -/
namespace LandRecords.Rounding

/-- The integer below or the one above, by what is left of `q` and by the parity. -/
def halfEven (q : ℚ) : ℤ :=
  let below := ⌊q⌋
  if q < below + 1 / 2 ∨ (q = below + 1 / 2 ∧ below % 2 = 0) then below else below + 1

/-- `round(q, digits)`. -/
def roundTo (digits : ℕ) (q : ℚ) : ℚ := halfEven (q * 10 ^ digits) / 10 ^ digits

/-- The root of `q` as an integer, rounded half to even. -/
def halfEvenRoot (q : ℚ) : ℕ :=
  let below := Nat.sqrt ⌊q⌋₊
  if q < (below + 1 / 2) ^ 2 ∨ (q = (below + 1 / 2) ^ 2 ∧ below % 2 = 0) then below else below + 1

/-- `round(math.sqrt(q), digits)`. -/
def rootTo (digits : ℕ) (q : ℚ) : ℚ := halfEvenRoot (q * 100 ^ digits) / 10 ^ digits

variable {q : ℚ}

/-! ## Halves to even -/

def IsNearest (q : ℚ) (n : ℤ) : Prop := |q - n| < 1 / 2 ∨ |q - n| = 1 / 2 ∧ n % 2 = 0

theorem IsNearest.le {n : ℤ} (h : IsNearest q n) : |q - n| ≤ 1 / 2 :=
  h.elim le_of_lt fun htie => htie.1.le

theorem halfEven_isNearest (q : ℚ) : IsNearest q (halfEven q) := by
  have hlow := Int.floor_le q
  have hhigh := Int.lt_floor_add_one q
  unfold IsNearest halfEven
  dsimp only
  generalize ⌊q⌋ = below at hlow hhigh ⊢
  split
  · rename_i hdown
    have hle : 0 ≤ q - below := sub_nonneg.mpr hlow
    rw [abs_of_nonneg hle]
    rcases hdown with hless | ⟨htie, heven⟩
    · exact .inl (by linarith)
    · exact .inr ⟨by linarith, heven⟩
  · rename_i hup
    rw [not_or, not_lt, not_and] at hup
    have hle : q - ((below + 1 : ℤ) : ℚ) ≤ 0 := by
      push_cast
      linarith
    rw [abs_of_nonpos hle]
    push_cast
    rcases hup.1.lt_or_eq with hless | htie
    · exact .inl (by linarith)
    · have hodd := hup.2 htie.symm
      exact .inr ⟨by linarith, by omega⟩

/-- The nearest integers are in order: two neighbours are not both even. -/
theorem IsNearest.mono {a b : ℚ} {m n : ℤ} (hle : a ≤ b) (ha : IsNearest a m)
    (hb : IsNearest b n) : m ≤ n := by
  by_contra hlt
  have hstep : (n : ℚ) + 1 ≤ m := by exact_mod_cast not_le.mp hlt
  have haLow := (abs_le.mp ha.le).1
  have hbHigh := (abs_le.mp hb.le).2
  rcases ha with ha | ⟨-, hmEven⟩
  · linarith [(abs_lt.mp ha).1]
  · rcases hb with hb | ⟨-, hnEven⟩
    · linarith [(abs_lt.mp hb).2]
    · have hneighbour : (m : ℚ) = n + 1 := by linarith
      have hneighbour : m = n + 1 := by exact_mod_cast hneighbour
      omega

theorem halfEven_mono : Monotone halfEven := fun a b hle =>
  (halfEven_isNearest a).mono hle (halfEven_isNearest b)

theorem halfEven_eq {n : ℤ} (h : IsNearest q n) : halfEven q = n :=
  le_antisymm ((halfEven_isNearest q).mono le_rfl h) (h.mono le_rfl (halfEven_isNearest q))

@[simp] theorem halfEven_intCast (n : ℤ) : halfEven n = n :=
  halfEven_eq (.inl (by norm_num))

theorem halfEven_neg (q : ℚ) : halfEven (-q) = -halfEven q := by
  have hsame : |-q - ((-halfEven q : ℤ) : ℚ)| = |q - halfEven q| := by
    rw [← abs_neg]
    push_cast
    ring_nf
  apply halfEven_eq
  rw [IsNearest, hsame]
  refine (halfEven_isNearest q).imp_right fun htie => ⟨htie.1, ?_⟩
  have heven := htie.2
  omega

/-! ## Roots -/

theorem sqrt_floor_le (h : 0 ≤ q) : ((Nat.sqrt ⌊q⌋₊ : ℕ) : ℚ) ^ 2 ≤ q := by
  have hroot : Nat.sqrt ⌊q⌋₊ ^ 2 ≤ ⌊q⌋₊ := Nat.sqrt_le' _
  calc ((Nat.sqrt ⌊q⌋₊ : ℕ) : ℚ) ^ 2 ≤ (⌊q⌋₊ : ℚ) := by exact_mod_cast hroot
    _ ≤ q := Nat.floor_le h

theorem lt_sqrt_floor_succ (q : ℚ) : q < ((Nat.sqrt ⌊q⌋₊ : ℕ) + 1 : ℚ) ^ 2 := by
  have hroot : ⌊q⌋₊ + 1 ≤ (Nat.sqrt ⌊q⌋₊ + 1) ^ 2 := Nat.lt_succ_sqrt' _
  calc q < (⌊q⌋₊ : ℚ) + 1 := Nat.lt_floor_add_one q
    _ ≤ ((Nat.sqrt ⌊q⌋₊ : ℕ) + 1 : ℚ) ^ 2 := by exact_mod_cast hroot

/-- A root rounds to an even number or below it up to the middle of the next step. -/
theorem halfEvenRoot_le_iff (h : 0 ≤ q) {n : ℕ} (heven : n % 2 = 0) :
    halfEvenRoot q ≤ n ↔ q ≤ (n + 1 / 2) ^ 2 := by
  have hlow := sqrt_floor_le h
  have hhigh := lt_sqrt_floor_succ q
  unfold halfEvenRoot
  dsimp only
  generalize Nat.sqrt ⌊q⌋₊ = below at hlow hhigh ⊢
  have hbelow : (0 : ℚ) ≤ below := Nat.cast_nonneg below
  have hn : (0 : ℚ) ≤ n := Nat.cast_nonneg n
  split
  · rename_i hdown
    have hmiddle : q ≤ (below + 1 / 2) ^ 2 := hdown.elim le_of_lt fun htie => htie.1.le
    constructor
    · intro hle
      have hle : (below : ℚ) ≤ n := by exact_mod_cast hle
      exact hmiddle.trans (pow_le_pow_left₀ (by positivity) (by linarith) 2)
    · intro hq
      by_contra hlt
      have hlt : (n : ℚ) + 1 ≤ below := by exact_mod_cast not_le.mp hlt
      nlinarith
  · rename_i hup
    rw [not_or, not_lt, not_and] at hup
    constructor
    · intro hle
      have hle : (below : ℚ) + 1 ≤ n := by exact_mod_cast hle
      nlinarith
    · intro hq
      by_contra hlt
      rcases (Nat.lt_succ_iff.mp (not_le.mp hlt)).lt_or_eq with hless | rfl
      · have hless : (n : ℚ) + 1 ≤ below := by exact_mod_cast hless
        nlinarith
      · -- the tie goes to the even number
        exact hup.2 (le_antisymm hq hup.1) heven

theorem rootTo_le_iff {digits : ℕ} (h : 0 ≤ q) {n : ℕ} (heven : n % 2 = 0) :
    rootTo digits q ≤ n / 10 ^ digits ↔ q ≤ ((n + 1 / 2) / 10 ^ digits) ^ 2 := by
  have hscale : (100 : ℚ) ^ digits = (10 ^ digits) ^ 2 := by
    rw [← pow_mul, mul_comm, pow_mul]
    norm_num
  have hpos : (0 : ℚ) < 10 ^ digits := by positivity
  calc rootTo digits q ≤ n / 10 ^ digits ↔ (halfEvenRoot (q * 100 ^ digits) : ℚ) ≤ n :=
        div_le_div_iff_of_pos_right hpos
    _ ↔ halfEvenRoot (q * 100 ^ digits) ≤ n := Nat.cast_le
    _ ↔ q * 100 ^ digits ≤ (n + 1 / 2) ^ 2 := halfEvenRoot_le_iff (by positivity) heven
    _ ↔ q ≤ ((n + 1 / 2) / 10 ^ digits) ^ 2 := by
        rw [hscale, div_pow, le_div_iff₀ (by positivity)]

example : rootTo 4 2 = 14142 / 10000 := by decide +kernel

end LandRecords.Rounding

namespace LandRecords

/-- Exact numbers. A root is the only operation that rounds. -/
instance : Numeric ℚ where
  zero := 0
  half := 1 / 2
  one := 1
  ofNat n := n
  lt a b := decide (a < b)
  le a b := decide (a ≤ b)
  eq a b := decide (a = b)
  isFinite _ := .ok true
  float a := .ok a
  sub a b := .ok (a - b)
  square a := .ok (a ^ 2)
  sum values := .ok values.sum
  sqrt a :=
    if a < 0 then .error (.valueError "math domain error".toList) else .ok (Rounding.rootTo 17 a)
  div a b := if b = 0 then .error .zeroDivisionError else .ok (a / b)
  render a := (toString a).toList
  le_of_lt a b h := by simpa using (of_decide_eq_true h).le
  not_lt_of_le a b h := by simpa using of_decide_eq_true h
  zero_le_zero := by decide +kernel
  zero_le_half := by decide +kernel
  half_le_one := by decide +kernel
  zero_lt_one := by decide +kernel
  one_le_one := by decide +kernel
  isFinite_zero := rfl
  isFinite_half := rfl
  isFinite_one := rfl
  isFinite_between _ _ _ := rfl

end LandRecords
