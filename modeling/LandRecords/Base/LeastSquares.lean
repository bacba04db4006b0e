import Mathlib

/-! Least squares over an ordered field. Where the columns of the design are independent, the
normal equations have a solution, and it minimises the squared residuals. -/
namespace LandRecords.LeastSquares

open Matrix

variable {ι κ K : Type*} [Fintype ι] [Fintype κ] [Field K]

/-- The squared residuals of `A v = b`, summed. -/
def cost (A : Matrix ι κ K) (b : ι → K) (v : κ → K) : K := (A *ᵥ v - b) ⬝ᵥ (A *ᵥ v - b)

def solve [DecidableEq κ] (A : Matrix ι κ K) (b : ι → K) : κ → K :=
  (Aᵀ * A).det⁻¹ • cramer (Aᵀ * A) (Aᵀ *ᵥ b)

variable {A : Matrix ι κ K} {b : ι → K} {v w : κ → K}

omit [Fintype ι] in
theorem rank_lt_of_mulVec_eq_zero (hv : v ≠ 0) (h : A *ᵥ v = 0) : A.rank < Fintype.card κ := by
  have hker : 0 < Module.finrank K (LinearMap.ker A.mulVecLin) := by
    rw [Module.finrank_pos_iff_exists_ne_zero]
    exact ⟨⟨v, h⟩, fun hzero => hv (congrArg Subtype.val hzero)⟩
  have hsum : A.rank + Module.finrank K (LinearMap.ker A.mulVecLin) = Fintype.card κ := by
    rw [Matrix.rank, LinearMap.finrank_range_add_finrank_ker, Module.finrank_fintype_fun_eq_card]
  omega

theorem normal_solve [DecidableEq κ] (h : (Aᵀ * A).det ≠ 0) :
    Aᵀ *ᵥ (A *ᵥ solve A b - b) = 0 := by
  rw [mulVec_sub, mulVec_mulVec, solve, mulVec_smul, mulVec_cramer, smul_smul,
    inv_mul_cancel₀ h, one_smul, sub_self]

theorem cost_add (h : Aᵀ *ᵥ (A *ᵥ v - b) = 0) (w : κ → K) :
    cost A b (v + w) = cost A b v + A *ᵥ w ⬝ᵥ A *ᵥ w := by
  -- the residuals are orthogonal to the columns of the design
  have hcross : A *ᵥ w ⬝ᵥ (A *ᵥ v - b) = 0 := by
    rw [dotProduct_comm, dotProduct_mulVec, ← mulVec_transpose, h, zero_dotProduct]
  have hresidual : A *ᵥ (v + w) - b = (A *ᵥ v - b) + A *ᵥ w := by
    rw [mulVec_add]
    abel
  rw [cost, hresidual, add_dotProduct, dotProduct_add, dotProduct_add, hcross,
    dotProduct_comm _ (A *ᵥ w), hcross, cost]
  abel

section Ordered

variable [LinearOrder K] [IsStrictOrderedRing K]

def Minimises (A : Matrix ι κ K) (b : ι → K) (v : κ → K) : Prop := ∀ w, cost A b v ≤ cost A b w

theorem dotProduct_self_nonneg (v : κ → K) : 0 ≤ v ⬝ᵥ v :=
  Finset.sum_nonneg fun i _ => mul_self_nonneg (v i)

theorem cost_nonneg : 0 ≤ cost A b v := dotProduct_self_nonneg _

theorem minimises_of_normal (h : Aᵀ *ᵥ (A *ᵥ v - b) = 0) : Minimises A b v := by
  intro w
  calc cost A b v ≤ cost A b v + A *ᵥ (w - v) ⬝ᵥ A *ᵥ (w - v) :=
        le_add_of_nonneg_right (dotProduct_self_nonneg _)
    _ = cost A b (v + (w - v)) := (cost_add h _).symm
    _ = cost A b w := by rw [add_sub_cancel]

theorem gram_det_ne_zero_iff [DecidableEq κ] : (Aᵀ * A).det ≠ 0 ↔ A.rank = Fintype.card κ := by
  constructor
  · intro h
    rw [← rank_transpose_mul_self, rank_of_det_ne_zero h]
  · intro hrank hdet
    obtain ⟨v, hv, hzero⟩ := exists_mulVec_eq_zero_iff.mpr hdet
    have hker : v ∈ LinearMap.ker (Aᵀ * A).mulVecLin := hzero
    rw [ker_mulVecLin_transpose_mul_self] at hker
    exact (rank_lt_of_mulVec_eq_zero hv hker).ne hrank

theorem solve_minimises [DecidableEq κ] (h : A.rank = Fintype.card κ) :
    Minimises A b (solve A b) :=
  minimises_of_normal (normal_solve (gram_det_ne_zero_iff.mpr h))

end Ordered

end LandRecords.LeastSquares
