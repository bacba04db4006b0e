import LandRecords.Base.Rounding

/-! Floating-point numbers as rationals. Each operation is the exact one, rounded to a number of
the format; where the format has an infinity, a number stands for it. The operations that would
not return a number are left at their first argument: a comparison is all that reads them. -/
namespace LandRecords

structure FloatFormat where
  fl : ℚ → ℚ
  inf : Option ℚ
  /-- The builtin `sum`, which is free to compensate its rounding. -/
  sum : List ℚ → ℚ
  fl_mono : Monotone fl
  fl_fl : ∀ x, fl (fl x) = fl x
  fl_int : ∀ n : ℤ, |n| ≤ 2 ^ 53 → fl n = n
  abs_fl_le : ∀ i ∈ inf, ∀ x, |fl x| ≤ i
  inf_large : ∀ i ∈ inf, 2 ^ 53 < i

namespace FloatFormat

variable (floats : FloatFormat)

def isInf (x : ℚ) : Bool := floats.inf.any fun i => i ≤ |x|

/-- `x < float("inf")`. -/
def belowInf (x : ℚ) : Bool := floats.inf.all fun i => x < i

/-- `a + b`: an infinite argument is the result. -/
def add (a b : ℚ) : ℚ :=
  if floats.isInf a then a else if floats.isInf b then b else floats.fl (a + b)

/-- `a - b`. -/
def sub (a b : ℚ) : ℚ := floats.add a (-b)

/-- `a / b` by a finite number. -/
def div (a b : ℚ) : ℚ := if floats.isInf a then a else floats.fl (a / b)

/-- `sum(values) / len(values)`. -/
def mean (values : List ℚ) : ℚ := floats.fl (floats.sum values / values.length)

/-- `round(x, digits)`. -/
def roundTo (digits : ℕ) (x : ℚ) : ℚ := floats.fl (Rounding.roundTo digits x)

/-- The rationals themselves: nothing is rounded, and nothing infinite. -/
def rational : FloatFormat where
  fl x := x
  inf := none
  sum := List.sum
  fl_mono := monotone_id
  fl_fl _ := rfl
  fl_int _ _ := rfl
  abs_fl_le _ h := nomatch h
  inf_large _ h := nomatch h

@[simp] theorem add_rational (a b : ℚ) : rational.add a b = a + b := rfl

@[simp] theorem div_rational (a b : ℚ) : rational.div a b = a / b := rfl

@[simp] theorem sub_rational (a b : ℚ) : rational.sub a b = a - b := (sub_eq_add_neg a b).symm

/-! ## Numbers of the format -/

def IsFloat (x : ℚ) : Prop := floats.fl x = x

variable {floats} {a b c x y : ℚ}

theorem isFloat_fl : floats.IsFloat (floats.fl x) := floats.fl_fl x

theorem isFloat_int {n : ℤ} (h : |n| ≤ 2 ^ 53) : floats.IsFloat n := floats.fl_int n h

theorem isFloat_zero : floats.IsFloat 0 := by
  have hzero : floats.IsFloat (0 : ℤ) := isFloat_int (by norm_num)
  simpa using hzero

theorem IsFloat.abs_le (h : floats.IsFloat x) {i : ℚ} (hi : i ∈ floats.inf) : |x| ≤ i := by
  rw [← h]
  exact floats.abs_fl_le i hi x

theorem IsFloat.belowInf_of_lt (h : floats.IsFloat x) (hlt : y < x) : floats.belowInf y = true := by
  rw [belowInf, Option.all_eq_true]
  intro i hi
  exact decide_eq_true (hlt.trans_le ((le_abs_self x).trans (h.abs_le hi)))

theorem isFloat_add (ha : floats.IsFloat a) (hb : floats.IsFloat b) :
    floats.IsFloat (floats.add a b) := by
  unfold add
  split
  · exact ha
  · split
    · exact hb
    · exact isFloat_fl

theorem isFloat_div (ha : floats.IsFloat a) : floats.IsFloat (floats.div a b) := by
  unfold div
  split
  · exact ha
  · exact isFloat_fl

theorem isInf_iff : floats.isInf x = true ↔ ∃ i ∈ floats.inf, i ≤ |x| := by
  simp [isInf, Option.any_eq_true]

theorem not_isInf_small (h : |x| ≤ 2 ^ 53) : floats.isInf x = false := by
  rw [Bool.eq_false_iff]
  intro hinf
  obtain ⟨i, hi, hle⟩ := isInf_iff.mp hinf
  exact absurd (hle.trans h) (floats.inf_large i hi).not_ge

/-! ## A small number taken off -/

section Small

variable (hc : 0 ≤ c) (hsmall : c ≤ 2 ^ 53)

include hc hsmall

theorem sub_eq : floats.sub a c = if floats.isInf a then a else floats.fl (a - c) := by
  have hnot : floats.isInf (-c) = false := not_isInf_small (by rwa [abs_neg, abs_of_nonneg hc])
  simp [sub, add, hnot, sub_eq_add_neg]

theorem IsFloat.sub_le (ha : floats.IsFloat a) : floats.sub a c ≤ a := by
  rw [sub_eq hc hsmall]
  split
  · exact le_rfl
  · calc floats.fl (a - c) ≤ floats.fl a := floats.fl_mono (sub_le_self a hc)
      _ = a := ha

theorem IsFloat.sub_mono (ha : floats.IsFloat a) (hle : a ≤ b) :
    floats.sub a c ≤ floats.sub b c := by
  have hdown := ha.sub_le hc hsmall
  rw [sub_eq hc hsmall (a := b)]
  split
  · exact hdown.trans hle
  · rename_i hbFinite
    rw [sub_eq hc hsmall]
    split
    · rename_i haInf
      -- an infinite number below a finite one is below every number
      obtain ⟨i, hi, hlarge⟩ := isInf_iff.mp haInf
      have hless : |b| < i := not_le.mp fun h => hbFinite (isInf_iff.mpr ⟨i, hi, h⟩)
      rcases le_abs.mp hlarge with hpos | hneg
      · exact absurd (hpos.trans (hle.trans (le_abs_self b))) hless.not_ge
      · exact (le_neg_of_le_neg hneg).trans (neg_le_of_abs_le (isFloat_fl.abs_le hi))
    · exact floats.fl_mono (sub_le_sub_right hle c)

end Small

end FloatFormat

/-! ## The binary64 format -/

namespace Binary64

open Rounding

def lastPlace (q : ℚ) : ℤ := max (Int.log 2 |q| - 52) (-1074)

def nearest (q : ℚ) : ℚ := halfEven (q / 2 ^ lastPlace q) * 2 ^ lastPlace q

variable {q M : ℚ} {n e : ℤ}

theorem two_zpow_pos (e : ℤ) : (0 : ℚ) < 2 ^ e := by positivity

theorem multiple_div (h : e ≤ n) (m : ℤ) :
    (m * 2 ^ n / 2 ^ e : ℚ) = ((m * 2 ^ (n - e).toNat : ℤ) : ℚ) := by
  obtain ⟨k, rfl⟩ := Int.le.dest h
  have hk : (e + (k : ℤ) - e).toNat = k := by omega
  rw [hk, zpow_add₀ two_ne_zero]
  push_cast
  field_simp
  simp

theorem nearest_le (hle : q ≤ M) (hM : M = n * 2 ^ lastPlace q) : nearest q ≤ M := by
  have hpos := two_zpow_pos (lastPlace q)
  have hround : halfEven (q / 2 ^ lastPlace q) ≤ n := by
    rw [← halfEven_intCast n]
    refine halfEven_mono ?_
    rwa [div_le_iff₀ hpos, ← hM]
  rw [hM, nearest]
  exact mul_le_mul_of_nonneg_right (by exact_mod_cast hround) hpos.le

theorem le_nearest (hle : M ≤ q) (hM : M = n * 2 ^ lastPlace q) : M ≤ nearest q := by
  have hpos := two_zpow_pos (lastPlace q)
  have hround : n ≤ halfEven (q / 2 ^ lastPlace q) := by
    rw [← halfEven_intCast n]
    refine halfEven_mono ?_
    rwa [le_div_iff₀ hpos, ← hM]
  rw [hM, nearest]
  exact mul_le_mul_of_nonneg_right (by exact_mod_cast hround) hpos.le

theorem nearest_eq (hq : q = n * 2 ^ lastPlace q) : nearest q = q :=
  le_antisymm (nearest_le le_rfl hq) (le_nearest le_rfl hq)

@[simp] theorem nearest_zero : nearest 0 = 0 := nearest_eq (n := 0) (by simp)

theorem nearest_neg (q : ℚ) : nearest (-q) = -nearest q := by
  have hplace : lastPlace (-q) = lastPlace q := by rw [lastPlace, lastPlace, abs_neg]
  rw [nearest, nearest, hplace, neg_div, halfEven_neg]
  push_cast
  ring

/-! What has at most 53 digits is a number of the format. -/

theorem lastPlace_le (hq : q ≠ 0) (h : |q| < 2 ^ (e + 53)) (he : -1074 ≤ e) :
    lastPlace q ≤ e := by
  have hlog : Int.log 2 |q| < e + 53 :=
    (Int.lt_zpow_iff_log_lt Nat.one_lt_two (abs_pos.mpr hq)).mp (by exact_mod_cast h)
  unfold lastPlace
  omega

theorem nearest_of_digits (hn : |n| < 2 ^ 53) (he : -1074 ≤ e) :
    nearest (n * 2 ^ e) = n * 2 ^ e := by
  rcases eq_or_ne n 0 with rfl | hne
  · simp
  have hn' : |(n : ℚ)| < 2 ^ 53 := by exact_mod_cast hn
  have hplace : lastPlace ((n : ℚ) * 2 ^ e) ≤ e := by
    refine lastPlace_le (mul_ne_zero (by exact_mod_cast hne) (two_zpow_pos e).ne') ?_ he
    rw [abs_mul, abs_of_pos (two_zpow_pos e), zpow_add₀ two_ne_zero, mul_comm (2 ^ e : ℚ)]
    exact mul_lt_mul_of_pos_right (by exact_mod_cast hn') (two_zpow_pos e)
  refine nearest_eq (n := n * 2 ^ (e - lastPlace ((n : ℚ) * 2 ^ e)).toNat) ?_
  rw [← multiple_div hplace, div_mul_cancel₀ _ (two_zpow_pos _).ne']

theorem nearest_of_multiple (hn : |n| ≤ 2 ^ 53) (he : -1074 ≤ e) :
    nearest (n * 2 ^ e) = n * 2 ^ e := by
  rcases hn.lt_or_eq with hless | hall
  · exact nearest_of_digits hless he
  · -- a power of two has one digit only
    have hpower : nearest (2 ^ 53 * 2 ^ e) = 2 ^ 53 * 2 ^ e := by
      have h := nearest_of_digits (n := 2 ^ 52) (e := e + 1) (by norm_num) (by omega)
      have hsame : ((2 ^ 52 : ℤ) : ℚ) * 2 ^ (e + 1) = 2 ^ 53 * 2 ^ e := by
        rw [zpow_add₀ two_ne_zero]
        push_cast
        ring
      rwa [hsame] at h
    rcases eq_or_eq_neg_of_abs_eq hall with rfl | rfl
    · exact_mod_cast hpower
    · have hneg := nearest_neg (2 ^ 53 * 2 ^ e)
      rw [hpower] at hneg
      push_cast
      rwa [neg_mul]

theorem abs_digits_le (q : ℚ) : |halfEven (q / 2 ^ lastPlace q)| ≤ 2 ^ 53 := by
  have hsmall : |q / 2 ^ lastPlace q| ≤ ((2 ^ 53 : ℤ) : ℚ) := by
    rw [abs_div, abs_of_pos (two_zpow_pos _), div_le_iff₀ (two_zpow_pos _)]
    have hlog : |q| < 2 ^ (Int.log 2 |q| + 1) := by
      exact_mod_cast Int.lt_zpow_succ_log_self Nat.one_lt_two |q|
    have hplace : Int.log 2 |q| + 1 ≤ 53 + lastPlace q := by
      unfold lastPlace
      omega
    calc |q| ≤ 2 ^ (Int.log 2 |q| + 1) := hlog.le
      _ ≤ 2 ^ (53 + lastPlace q) := zpow_le_zpow_right₀ one_le_two hplace
      _ = ((2 ^ 53 : ℤ) : ℚ) * 2 ^ lastPlace q := by
          rw [zpow_add₀ two_ne_zero]
          norm_num
  rw [abs_le] at hsmall ⊢
  constructor
  · have h := halfEven_mono hsmall.1
    rwa [halfEven_neg, halfEven_intCast] at h
  · have h := halfEven_mono hsmall.2
    rwa [halfEven_intCast] at h

theorem nearest_nearest (q : ℚ) : nearest (nearest q) = nearest q :=
  nearest_of_multiple (abs_digits_le q) (le_max_right _ _)

/-! Rounding keeps the order: between numbers with different last places lies a power of two. -/

theorem nearest_nonneg (hq : 0 ≤ q) : 0 ≤ nearest q := le_nearest (n := 0) hq (by simp)

theorem nearest_mono_pos {a b : ℚ} (ha : 0 < a) (hle : a ≤ b) : nearest a ≤ nearest b := by
  have hb := ha.trans_le hle
  have hlog : Int.log 2 a ≤ Int.log 2 b := Int.log_mono_right ha hle
  have hplaceA : lastPlace a = max (Int.log 2 a - 52) (-1074) := by rw [lastPlace, abs_of_pos ha]
  have hplaceB : lastPlace b = max (Int.log 2 b - 52) (-1074) := by rw [lastPlace, abs_of_pos hb]
  by_cases hsame : lastPlace a = lastPlace b
  · rw [nearest, nearest, hsame]
    have hround := halfEven_mono (div_le_div_of_nonneg_right hle (two_zpow_pos (lastPlace b)).le)
    exact mul_le_mul_of_nonneg_right (by exact_mod_cast hround) (two_zpow_pos _).le
  · have hstep : Int.log 2 a + 1 ≤ Int.log 2 b := by omega
    have hmultiple : ∀ x, lastPlace x ≤ Int.log 2 b → (2 : ℚ) ^ Int.log 2 b =
        ((2 ^ (Int.log 2 b - lastPlace x).toNat : ℤ) : ℚ) * 2 ^ lastPlace x := by
      intro x hx
      have h := multiple_div hx 1
      rw [one_mul, Int.cast_one, one_mul] at h
      rw [← h, div_mul_cancel₀ _ (two_zpow_pos _).ne']
    calc nearest a ≤ 2 ^ Int.log 2 b := by
          refine nearest_le ?_ (hmultiple a (by omega))
          have hless : a < 2 ^ (Int.log 2 a + 1) := by
            exact_mod_cast Int.lt_zpow_succ_log_self Nat.one_lt_two a
          exact hless.le.trans (zpow_le_zpow_right₀ one_le_two hstep)
      _ ≤ nearest b := by
          refine le_nearest ?_ (hmultiple b (by omega))
          exact_mod_cast Int.zpow_log_le_self Nat.one_lt_two hb

theorem nearest_mono : Monotone nearest := by
  intro a b hle
  rcases lt_trichotomy a 0 with ha | rfl | ha
  · rcases lt_or_ge b 0 with hb | hb
    · have h := nearest_mono_pos (neg_pos.mpr hb) (neg_le_neg hle)
      rw [nearest_neg, nearest_neg] at h
      exact neg_le_neg_iff.mp h
    · have h := nearest_nonneg (neg_nonneg.mpr ha.le)
      rw [nearest_neg] at h
      exact (neg_nonneg.mp h).trans (nearest_nonneg hb)
  · rw [nearest_zero]
    exact nearest_nonneg hle
  · exact nearest_mono_pos ha hle

/-! What is too large is infinite. -/

def infinity : ℚ := 2 ^ 1024

theorem nearest_infinity : nearest infinity = infinity := by
  have h := nearest_of_multiple (n := 1) (e := 1024) (by norm_num) (by norm_num)
  simpa [infinity] using h

def fl (q : ℚ) : ℚ := max (-infinity) (min infinity (nearest q))

theorem nearest_fl (q : ℚ) : nearest (fl q) = fl q := by
  have hmin : nearest (min infinity (nearest q)) = min infinity (nearest q) := by
    rw [nearest_mono.map_min, nearest_infinity, nearest_nearest]
  rw [fl, nearest_mono.map_max, nearest_neg, nearest_infinity, hmin]

theorem infinity_pos : 0 < infinity := by
  rw [infinity]
  positivity

theorem abs_fl_le (q : ℚ) : |fl q| ≤ infinity := by
  rw [abs_le]
  exact ⟨le_max_left _ _, max_le (by linarith [infinity_pos]) (min_le_left _ _)⟩

theorem fl_eq_nearest (h : |nearest q| ≤ infinity) : fl q = nearest q := by
  rw [abs_le] at h
  rw [fl, min_eq_right h.2, max_eq_right h.1]

theorem fl_int (h : |n| ≤ 2 ^ 53) : fl n = n := by
  have hnearest := nearest_of_multiple (e := 0) h (by norm_num)
  rw [zpow_zero, mul_one] at hnearest
  rw [fl_eq_nearest, hnearest]
  rw [hnearest]
  calc |(n : ℚ)| ≤ 2 ^ 53 := by exact_mod_cast h
    _ ≤ infinity := pow_le_pow_right₀ one_le_two (by norm_num)

end Binary64

/-- The numbers of the interpreter, with a `sum` that does not compensate. -/
def FloatFormat.binary64 : FloatFormat where
  fl := Binary64.fl
  inf := some Binary64.infinity
  sum values := values.foldl (fun total value => Binary64.fl (total + value)) 0
  fl_mono a b hle := max_le_max_left _ (min_le_min_left _ (Binary64.nearest_mono hle))
  fl_fl q := by
    rw [Binary64.fl_eq_nearest, Binary64.nearest_fl]
    rw [Binary64.nearest_fl]
    exact Binary64.abs_fl_le q
  fl_int _ := Binary64.fl_int
  abs_fl_le i hi q := Option.some.inj hi ▸ Binary64.abs_fl_le q
  inf_large i hi := by
    obtain rfl := Option.some.inj hi
    exact pow_lt_pow_right₀ one_lt_two (by norm_num)

end LandRecords
