import LandRecords.Parcels.ParcelPipeline

/-! The fit of an affine map to control points. With numpy exact it is a least-squares fit to
control points that are not on a line, and its error is compared after it was rounded. -/
namespace LandRecords.Parcels

open LeastSquares Matrix

/-- What numpy documents, without rounding: the rank counts singular values, some of which it
may take for zero, and the solution minimises the squared residuals. -/
structure Numpy.Exact (numpy : Numpy) : Prop where
  rank_le : ∀ {n : ℕ} (A : Matrix (Fin n) (Fin 3) ℚ), numpy.matrixRank A ≤ A.rank
  lstsq_minimises : ∀ {n : ℕ} (A : Matrix (Fin n) (Fin 3) ℚ) (b : Fin n → ℚ), A.rank = 3 →
    Minimises A b (numpy.lstsq A b)

def GCP.pixel (g : GCP) : Point := (g.pixelX, g.pixelY)

def NonCollinear (gcps : List GCP) : Prop :=
  ∃ p ∈ gcps, ∃ q ∈ gcps, ∃ r ∈ gcps, Planar.turn p.pixel q.pixel r.pixel ≠ 0

def IsLeastSquares (gcps : List GCP) (m : AffineTransform) : Prop :=
  ∀ m' : AffineTransform, m.totalError gcps ≤ m'.totalError gcps

def FitsWithin (limit : ℚ) (gcps : List GCP) : Prop :=
  ∃ m : AffineTransform, IsLeastSquares gcps m ∧ m.totalError gcps / gcps.length ≤ limit ^ 2

def roundedThreshold : ℚ := ulpinRmseThreshold + 1 / 20000

variable {gcps : List GCP} {m : AffineTransform} {limit : ℚ}

/-! ## Position -/

theorem NonCollinear.three_le_length (h : NonCollinear gcps) : 3 ≤ gcps.length := by
  obtain ⟨p, hp, q, hq, r, hr, hturn⟩ := h
  have hpq : p ≠ q := by
    rintro rfl
    exact hturn (by simp [Planar.turn])
  have hpr : p ≠ r := by
    rintro rfl
    exact hturn (by simp [Planar.turn])
  have hqr : q ≠ r := by
    rintro rfl
    exact hturn (by simp [Planar.turn, mul_comm])
  have hnodup : [p, q, r].Nodup := by simp [hpq, hpr, hqr]
  have hsubset : [p, q, r] ⊆ gcps := by simp [hp, hq, hr]
  exact (List.subperm_of_subset hnodup hsubset).length_le

def lineThrough (p q : Point) : Fin 3 → ℚ :=
  ![-(q.2 - p.2), q.1 - p.1, (q.2 - p.2) * p.1 - (q.1 - p.1) * p.2]

theorem designMatrix_lineThrough (p q : Point) (i : Fin gcps.length) :
    (designMatrix gcps *ᵥ lineThrough p q) i = Planar.turn p q (gcps.get i).pixel := by
  simp [designMatrix, lineThrough, mulVec, dotProduct, Fin.sum_univ_three, Planar.turn, GCP.pixel]
  ring

theorem lineThrough_ne_zero {p q : Point} (h : p ≠ q) : lineThrough p q ≠ 0 := by
  intro hzero
  have hy := congrFun hzero 0
  have hx := congrFun hzero 1
  simp only [lineThrough, cons_val_zero, cons_val_one, Pi.zero_apply, neg_eq_zero,
    sub_eq_zero] at hx hy
  exact h (Prod.ext hx.symm hy.symm)

theorem nonCollinear_of_rank (h : 3 ≤ (designMatrix gcps).rank) : NonCollinear gcps := by
  by_contra hline
  have hturn : ∀ p ∈ gcps, ∀ q ∈ gcps, ∀ r ∈ gcps, Planar.turn p.pixel q.pixel r.pixel = 0 := by
    intro p hp q hq r hr
    by_contra hne
    exact hline ⟨p, hp, q, hq, r, hr, hne⟩
  -- a line that all of them are on
  have hkernel : ∃ v : Fin 3 → ℚ, v ≠ 0 ∧ designMatrix gcps *ᵥ v = 0 := by
    by_cases hsame : ∃ p ∈ gcps, ∃ q ∈ gcps, p.pixel ≠ q.pixel
    · obtain ⟨p, hp, q, hq, hne⟩ := hsame
      refine ⟨lineThrough p.pixel q.pixel, lineThrough_ne_zero hne, funext fun i => ?_⟩
      rw [designMatrix_lineThrough]
      exact hturn p hp q hq _ (List.getElem_mem i.isLt)
    · obtain ⟨p, hp⟩ : ∃ p : Point, ∀ g ∈ gcps, g.pixel = p := by
        cases gcps with
        | nil => exact ⟨0, by simp⟩
        | cons g rest =>
          refine ⟨g.pixel, fun q hq => ?_⟩
          by_contra hne
          exact hsame ⟨q, hq, g, List.mem_cons_self, hne⟩
      have hne : p ≠ (p.1 + 1, p.2) := fun h => by simpa using congrArg Prod.fst h
      refine ⟨lineThrough p (p.1 + 1, p.2), lineThrough_ne_zero hne, funext fun i => ?_⟩
      have hpixel : (gcps.get i).pixel = p := hp _ (List.getElem_mem i.isLt)
      rw [designMatrix_lineThrough, hpixel]
      simp [Planar.turn]
  obtain ⟨v, hv, hzero⟩ := hkernel
  have hlt := rank_lt_of_mulVec_eq_zero hv hzero
  rw [Fintype.card_fin] at hlt
  omega

/-! ## Errors -/

def AffineTransform.xs (m : AffineTransform) : Fin 3 → ℚ := ![m.a, m.b, m.c]

def AffineTransform.ys (m : AffineTransform) : Fin 3 → ℚ := ![m.d, m.e, m.f]

theorem totalError_eq_cost : m.totalError gcps =
    cost (designMatrix gcps) (geoXs gcps) m.xs + cost (designMatrix gcps) (geoYs gcps) m.ys := by
  have hsum : m.totalError gcps = ∑ i : Fin gcps.length, m.squaredError gcps[i] :=
    (Fin.sum_univ_fun_getElem gcps m.squaredError).symm
  rw [hsum, cost, cost, dotProduct, dotProduct, ← Finset.sum_add_distrib]
  refine Finset.sum_congr rfl fun i _ => ?_
  simp [AffineTransform.squaredError, AffineTransform.apply, AffineTransform.xs,
    AffineTransform.ys, designMatrix, geoXs, geoYs]
  ring

theorem AffineTransform.totalError_nonneg : 0 ≤ m.totalError gcps := by
  rw [totalError_eq_cost]
  exact add_nonneg cost_nonneg cost_nonneg

theorem isLeastSquares_of_minimises (hx : Minimises (designMatrix gcps) (geoXs gcps) m.xs)
    (hy : Minimises (designMatrix gcps) (geoYs gcps) m.ys) : IsLeastSquares gcps m := by
  intro m'
  rw [totalError_eq_cost, totalError_eq_cost]
  exact add_le_add (hx m'.xs) (hy m'.ys)

theorem fitsWithin_iff (h : IsLeastSquares gcps m) :
    FitsWithin limit gcps ↔ m.totalError gcps / gcps.length ≤ limit ^ 2 := by
  constructor
  · rintro ⟨m', hm', hle⟩
    rwa [le_antisymm (h m') (hm' m)]
  · intro hle
    exact ⟨m, h, hle⟩

/-- Control points that some map meets exactly fit within every limit. -/
theorem fitsWithin_of_exact (h : m.totalError gcps = 0) : FitsWithin limit gcps := by
  refine ⟨m, fun m' => ?_, ?_⟩
  · rw [h]
    exact AffineTransform.totalError_nonneg
  · rw [h, zero_div]
    exact sq_nonneg limit

/-! ## The fit -/

variable {conversions : Conversions ℚ} {numpy : Numpy} {pageId : Value ℚ} {rmse : ℚ}

theorem fitAffineTransform_eq_ok (exact : numpy.Exact)
    (h : fitAffineTransform conversions numpy gcps pageId = .ok (m, rmse)) :
    NonCollinear gcps ∧ IsLeastSquares gcps m ∧
      rmse = Rounding.rootTo 4 (m.totalError gcps / gcps.length) := by
  unfold fitAffineTransform at h
  dsimp only at h
  split at h
  · cases h
  · split at h
    · cases h
    · rename_i hrank
      have hfull : 3 ≤ (designMatrix gcps).rank := (not_lt.mp hrank).trans (exact.rank_le _)
      have hthree : (designMatrix gcps).rank = 3 := le_antisymm (rank_le_width _) hfull
      obtain ⟨rfl, rfl⟩ := Prod.mk.inj (Except.ok.inj h)
      refine ⟨nonCollinear_of_rank hfull, isLeastSquares_of_minimises ?_ ?_, rfl⟩
      · have hxs := FinVec.etaExpand_eq (numpy.lstsq (designMatrix gcps) (geoXs gcps))
        exact hxs ▸ exact.lstsq_minimises _ _ hthree
      · have hys := FinVec.etaExpand_eq (numpy.lstsq (designMatrix gcps) (geoYs gcps))
        exact hys ▸ exact.lstsq_minimises _ _ hthree

theorem rmse_le_iff (exact : numpy.Exact)
    (h : fitAffineTransform conversions numpy gcps pageId = .ok (m, rmse)) :
    rmse ≤ ulpinRmseThreshold ↔ FitsWithin roundedThreshold gcps := by
  obtain ⟨-, hleast, rfl⟩ := fitAffineTransform_eq_ok exact h
  have hthreshold : ulpinRmseThreshold = ((15000 : ℕ) : ℚ) / 10 ^ 4 := by
    norm_num [ulpinRmseThreshold]
  have hlimit : roundedThreshold = (((15000 : ℕ) : ℚ) + 1 / 2) / 10 ^ 4 := by
    norm_num [roundedThreshold, ulpinRmseThreshold]
  have hpos : 0 ≤ m.totalError gcps / gcps.length :=
    div_nonneg AffineTransform.totalError_nonneg (Nat.cast_nonneg _)
  rw [fitsWithin_iff hleast, hthreshold, hlimit]
  exact Rounding.rootTo_le_iff hpos (by decide)

theorem fitsWithin_sheetCorners (offsetX offsetY scale : ℚ) :
    FitsWithin limit (sheetCorners offsetX offsetY scale) := by
  refine fitsWithin_of_exact (m := {
    a := scale, b := 0, c := offsetX, d := 0, e := -scale, f := offsetY + 1000 * scale }) ?_
  simp [AffineTransform.totalError, AffineTransform.squaredError, AffineTransform.apply,
    sheetCorners]
  ring

/-! ## Georeferencing -/

variable {payload : MapPayload} {crs : Text} {georef : GeoreferenceResult}

def MapPayload.readControlPoints (conversions : Conversions ℚ) (payload : MapPayload) :
    Except Raised (List GCP) := do
  readGcps conversions (← payload.rawGcps.iterate)

theorem liftM_eq_ok {α : Type} {result : Except Raised α} {a : α} :
    (liftM result : Except MapError α) = .ok a ↔ result = .ok a := by
  cases result with
  | ok b =>
    have hlift : (liftM (Except.ok b : Except Raised α) : Except MapError α) = .ok b := rfl
    rw [hlift, Except.ok.injEq, Except.ok.injEq]
  | error e =>
    have hlift : (liftM (Except.error e : Except Raised α) : Except MapError α) =
        .error (.raised e) := rfl
    simp [hlift]

theorem usedGcps_eq_ok {used : List GCP} (h : usedGcps conversions payload true gcps = .ok used) :
    3 ≤ gcps.length ∧ used = gcps ∨
      gcps.length < 3 ∧ FitsWithin roundedThreshold used := by
  unfold usedGcps at h
  split at h
  · rename_i hfew
    rw [if_pos rfl, liftM_eq_ok] at h
    obtain ⟨offsetX, -, h⟩ := Raised.bind_eq_ok.mp h
    obtain ⟨offsetY, -, h⟩ := Raised.bind_eq_ok.mp h
    obtain ⟨scale, -, h⟩ := Raised.bind_eq_ok.mp h
    cases h
    exact .inr ⟨hfew, fitsWithin_sheetCorners offsetX offsetY scale⟩
  · rename_i hmany
    cases h
    exact .inl ⟨not_lt.mp hmany, rfl⟩

/-- What a georeferenced page says of its control points: the error is at most the threshold
where there are too few of them, and where their fit rounds to it. -/
theorem georeferenceMap_eq_ok (exact : numpy.Exact)
    (h : georeferenceMap conversions numpy payload crs true = .ok georef) :
    ∃ gcps, payload.readControlPoints conversions = .ok gcps ∧
      (3 ≤ gcps.length → NonCollinear gcps) ∧
      (georef.rmse ≤ ulpinRmseThreshold ↔
        gcps.length < 3 ∨ FitsWithin roundedThreshold gcps) := by
  unfold georeferenceMap at h
  obtain ⟨points, hpoints, h⟩ := Raised.bind_eq_ok.mp h
  obtain ⟨gcps, hgcps, h⟩ := Raised.bind_eq_ok.mp h
  obtain ⟨used, hused, h⟩ := Raised.bind_eq_ok.mp h
  obtain ⟨⟨m, rmse⟩, hfit, h⟩ := Raised.bind_eq_ok.mp h
  cases h
  have hread : payload.readControlPoints conversions = .ok gcps :=
    Raised.bind_eq_ok.mpr ⟨points, liftM_eq_ok.mp hpoints, liftM_eq_ok.mp hgcps⟩
  refine ⟨gcps, hread, ?_, ?_⟩
  · intro hthree
    rcases usedGcps_eq_ok hused with ⟨-, rfl⟩ | ⟨hfew, -⟩
    · exact (fitAffineTransform_eq_ok exact hfit).1
    · omega
  · rw [rmse_le_iff exact hfit]
    rcases usedGcps_eq_ok hused with ⟨hthree, rfl⟩ | ⟨hfew, hanchors⟩
    · exact ⟨.inr, fun hor => hor.resolve_left (not_lt.mpr hthree)⟩
    · exact ⟨fun _ => .inl hfew, fun _ => hanchors⟩

end LandRecords.Parcels
