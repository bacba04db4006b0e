import LandRecords.Parcels.ControlPointFit

/-! Where the parcels of a map page come from. A polygon traces a boundary, and it is the
payload's own where the boundary and the control points behind it are. -/
namespace LandRecords.Parcels

/-! ## Traced boundaries -/

def Near (p q : Point) : Prop := (p.1 - q.1) ^ 2 + (p.2 - q.2) ^ 2 < 1 / 1000000

/-- The points of a boundary as numbers. What is no point is skipped. -/
def readPoints (conversions : Conversions ℚ) : List (Value ℚ) → Except Raised (List Point)
  | [] => .ok []
  | .list (x :: y :: _) :: rest => do
      let pt : Point := (← x.float conversions, ← y.float conversions)
      return pt :: (← readPoints conversions rest)
  | _ :: rest => readPoints conversions rest

structure Simplifies (points vertices : List Point) : Prop where
  sublist : vertices.Sublist points
  covers : ∀ p ∈ points, ∃ v ∈ vertices, Near p v

def Traces (conversions : Conversions ℚ) (georef : GeoreferenceResult) (polyItem : Dict ℚ)
    (polygon : GeoJsonPolygon) : Prop :=
  (polyItem.getD "is_closed".toList (.number 1)).truthy = true ∧
    ∃ coords points vertices, (pixelCoordinates polyItem).iterate = .ok coords ∧
      readPoints conversions coords = .ok points ∧ Simplifies points vertices ∧
      polygon = { coordinates := [closeRing (vertices.map (groundPoint georef))] }

structure Draws (builtins : MapBuiltins) (georef : GeoreferenceResult) (polyItem : Dict ℚ) :
    Prop where
  given : (pixelCoordinates polyItem).truthy = true
  closed : (polyItem.getD "is_closed".toList (.number 1)).truthy = true
  valid : ∃ vertices,
    cleanNoisyVertices builtins.toConversions (pixelCoordinates polyItem) = .ok vertices ∧
      3 ≤ vertices.length ∧
      (validatePolygonGeometry builtins.shapely
        (closeRing (vertices.map (groundPoint georef)))).1 = true

variable {builtins : MapBuiltins} {conversions : Conversions ℚ} {georef : GeoreferenceResult}
  {payload : MapPayload} {coords : List (Value ℚ)} {vertices : List Point} {prev : Option Point}

theorem Near.refl (p : Point) : Near p p := by
  unfold Near
  norm_num

theorem readPoints_list {x y : Value ℚ} {others rest : List (Value ℚ)} {px py : ℚ}
    {points : List Point} (hx : x.float conversions = .ok px) (hy : y.float conversions = .ok py)
    (h : readPoints conversions rest = .ok points) :
    readPoints conversions (.list (x :: y :: others) :: rest) = .ok ((px, py) :: points) := by
  rw [readPoints, hx, Raised.ok_bind, hy, Raised.ok_bind]
  dsimp only
  rw [h, Raised.ok_bind, Raised.pure_eq]

theorem cleanFrom_eq_ok (h : cleanFrom conversions prev coords = .ok vertices) :
    ∃ points, readPoints conversions coords = .ok points ∧ vertices.Sublist points ∧
      ∀ p ∈ points, ∃ v ∈ prev.toList ++ vertices, Near p v := by
  fun_induction cleanFrom conversions prev coords generalizing vertices with
  | case1 prev =>
    cases h
    exact ⟨[], rfl, List.Sublist.slnil, by simp⟩
  | case2 prev x y others rest ihNew ihOld =>
    obtain ⟨px, hpx, h⟩ := Raised.bind_eq_ok.mp h
    obtain ⟨py, hpy, h⟩ := Raised.bind_eq_ok.mp h
    dsimp only at h
    split at h
    · -- the point is kept, and the ones after it are compared with it
      obtain ⟨later, hlater, h⟩ := Raised.bind_eq_ok.mp h
      cases h
      obtain ⟨points, hread, hsublist, hnear⟩ := ihNew px py hlater
      refine ⟨(px, py) :: points, readPoints_list hpx hpy hread, hsublist.cons_cons _, ?_⟩
      rw [List.forall_mem_cons]
      refine ⟨⟨(px, py), by simp, Near.refl _⟩, fun p hp => ?_⟩
      obtain ⟨v, hv, hpv⟩ := hnear p hp
      exact ⟨v, List.mem_append_right _ hv, hpv⟩
    · -- the point is near the last one kept
      rename_i hold
      obtain ⟨points, hread, hsublist, hnear⟩ := ihOld h
      refine ⟨(px, py) :: points, readPoints_list hpx hpy hread, hsublist.cons _, ?_⟩
      rw [List.forall_mem_cons]
      refine ⟨?_, hnear⟩
      cases prev with
      | none => exact absurd rfl hold
      | some q => exact ⟨q, by simp, by simpa [Near] using hold⟩
  | case3 prev item rest hitem ih =>
    obtain ⟨points, hread, hkept⟩ := ih h
    refine ⟨points, ?_, hkept⟩
    rw [readPoints, hread]
    exact hitem

theorem cleanNoisyVertices_eq_ok {given : Value ℚ}
    (h : cleanNoisyVertices conversions given = .ok vertices) :
    ∃ coords points, given.iterate = .ok coords ∧ readPoints conversions coords = .ok points ∧
      Simplifies points vertices := by
  obtain ⟨coords, hcoords, h⟩ := Raised.bind_eq_ok.mp h
  obtain ⟨points, hread, hsublist, hnear⟩ := cleanFrom_eq_ok h
  exact ⟨coords, points, hcoords, hread, hsublist, by simpa using hnear⟩

variable {lineage : Value ℚ} {idx : ℕ} {polyItem : Dict ℚ} {boundary : ParcelBoundary}
  {polygon : GeoJsonPolygon}

theorem vectorizeItem_drawn
    (h : vectorizeItem builtins georef lineage idx polyItem = .ok (some boundary))
    (hdrawn : boundary.drawn = (some polygon, true)) :
    Draws builtins georef polyItem ∧ Traces builtins.toConversions georef polyItem polygon := by
  unfold vectorizeItem at h
  dsimp only at h
  split at h
  · cases h
  · rename_i hgiven
    rw [Bool.not_eq_true', Bool.not_eq_false] at hgiven
    obtain ⟨vertices, hclean, h⟩ := Raised.bind_eq_ok.mp h
    split at h
    · -- a broken boundary has no polygon
      cases h
      cases hdrawn
    · rename_i hwhole
      rw [Bool.or_eq_true, not_or, Bool.not_eq_true', Bool.not_eq_false, decide_eq_true_eq,
        not_lt] at hwhole
      obtain ⟨hclosed, hlength⟩ := hwhole
      obtain ⟨coords, points, hcoords, hread, hsimplifies⟩ := cleanNoisyVertices_eq_ok hclean
      cases h
      simp only [ParcelBoundary.drawn, Prod.mk.injEq] at hdrawn
      obtain ⟨hpolygon, hvalid⟩ := hdrawn
      rw [if_pos hvalid] at hpolygon
      exact ⟨⟨hgiven, hclosed, vertices, hclean, hlength, hvalid⟩, hclosed, coords, points,
        vertices, hcoords, hread, hsimplifies, (Option.some.inj hpolygon).symm⟩

theorem Draws.vectorizeItem (hdraws : Draws builtins georef polyItem) (lineage : Value ℚ)
    (idx : ℕ) :
    ∃ boundary polygon,
      vectorizeItem builtins georef lineage idx polyItem = .ok (some boundary) ∧
        boundary.drawn = (some polygon, true) := by
  obtain ⟨hgiven, hclosed, vertices, hclean, hlength, hvalid⟩ := hdraws
  unfold Parcels.vectorizeItem
  dsimp only
  rw [hgiven, hclean, Raised.ok_bind, hclosed]
  simp [not_lt.mpr hlength, hvalid, ParcelBoundary.drawn]

theorem vectorizeFrom_drawn {items : List (Value ℚ)} {boundaries : List ParcelBoundary}
    (h : vectorizeFrom builtins georef lineage idx items = .ok boundaries)
    (hmem : boundary ∈ boundaries) (hdrawn : boundary.drawn = (some polygon, true)) :
    ∃ polyItem, Value.dict polyItem ∈ items ∧ Draws builtins georef polyItem ∧
      Traces builtins.toConversions georef polyItem polygon := by
  induction items generalizing idx boundaries with
  | nil =>
    cases h
    cases hmem
  | cons item rest ih =>
    obtain ⟨polyItem, hdict, h⟩ := Raised.bind_eq_ok.mp h
    obtain ⟨first, hfirst, h⟩ := Raised.bind_eq_ok.mp h
    obtain ⟨later, hlater, h⟩ := Raised.bind_eq_ok.mp h
    cases h
    rcases List.mem_append.mp hmem with hhead | htail
    · cases item with
      | dict entries =>
        cases hdict
        rw [Option.mem_toList] at hhead
        exact ⟨polyItem, List.mem_cons_self, vectorizeItem_drawn (hhead ▸ hfirst) hdrawn⟩
      | _ => cases hdict
    · obtain ⟨polyItem, hitem, htraces⟩ := ih hlater htail
      exact ⟨polyItem, List.mem_cons_of_mem _ hitem, htraces⟩

theorem Draws.vectorizeFrom (hdraws : Draws builtins georef polyItem) {items : List (Value ℚ)}
    {boundaries : List ParcelBoundary}
    (h : vectorizeFrom builtins georef lineage idx items = .ok boundaries)
    (hitem : Value.dict polyItem ∈ items) :
    ∃ boundary ∈ boundaries, ∃ polygon, boundary.drawn = (some polygon, true) := by
  induction items generalizing idx boundaries with
  | nil => cases hitem
  | cons item rest ih =>
    obtain ⟨entries, hdict, h⟩ := Raised.bind_eq_ok.mp h
    obtain ⟨first, hfirst, h⟩ := Raised.bind_eq_ok.mp h
    obtain ⟨later, hlater, h⟩ := Raised.bind_eq_ok.mp h
    cases h
    rcases List.mem_cons.mp hitem with rfl | hitem
    · cases hdict
      obtain ⟨boundary, polygon, hboundary, hdrawn⟩ := hdraws.vectorizeItem lineage idx
      cases hboundary.symm.trans hfirst
      exact ⟨boundary, by simp, polygon, hdrawn⟩
    · obtain ⟨boundary, hboundary, hdrawn⟩ := ih hlater hitem
      exact ⟨boundary, List.mem_append_right _ hboundary, hdrawn⟩

/-! ## Returned parcels -/

/-- Some boundary of the page, its own or a default, is drawn. -/
def MapPayload.DrawsParcel (builtins : MapBuiltins) (payload : MapPayload) : Prop :=
  ∃ georef items polyItem,
    georeferenceMap builtins.toConversions builtins.numpy payload defaultCrs true = .ok georef ∧
      payload.boundaries.iterate = .ok items ∧ Value.dict polyItem ∈ items ∧
      Draws builtins georef polyItem

variable {geometry : ParcelGeometry} {geometries : List ParcelGeometry}

theorem parcelGeometries_mem {draw : ℕ} {bound : List BoundParcel}
    (h : parcelGeometries builtins payload georef draw bound = .ok geometries)
    (hmem : geometry ∈ geometries) :
    (some geometry.polygon, true) ∈ bound.map (·.drawn) ∧
      geometry.ulpinEligible = decide (georef.rmse ≤ ulpinRmseThreshold) := by
  induction bound generalizing draw geometries with
  | nil =>
    cases h
    cases hmem
  | cons item rest ih =>
    rw [List.map_cons]
    unfold parcelGeometries at h
    split at h
    · rename_i polygon hitem
      obtain ⟨first, hfirst, h⟩ := Raised.bind_eq_ok.mp h
      obtain ⟨later, hlater, h⟩ := Raised.bind_eq_ok.mp h
      cases h
      rcases List.mem_cons.mp hmem with rfl | hmem
      · obtain ⟨area, -, hfirst⟩ := Raised.bind_eq_ok.mp hfirst
        cases hfirst
        exact ⟨hitem ▸ List.mem_cons_self, rfl⟩
      · exact ⟨List.mem_cons_of_mem _ (ih hlater hmem).1, (ih hlater hmem).2⟩
    · exact ⟨List.mem_cons_of_mem _ (ih h hmem).1, (ih h hmem).2⟩

theorem parcelGeometries_ne_nil {draw : ℕ} {bound : List BoundParcel}
    (h : parcelGeometries builtins payload georef draw bound = .ok geometries)
    (hmem : (some polygon, true) ∈ bound.map (·.drawn)) : geometries ≠ [] := by
  induction bound generalizing draw with
  | nil => cases hmem
  | cons item rest ih =>
    unfold parcelGeometries at h
    split at h
    · obtain ⟨first, -, h⟩ := Raised.bind_eq_ok.mp h
      obtain ⟨later, -, h⟩ := Raised.bind_eq_ok.mp h
      cases h
      exact List.cons_ne_nil _ _
    · rename_i hskipped
      rcases List.mem_cons.mp hmem with hitem | hmem
      · exact absurd hitem.symm (hskipped polygon)
      · exact ih h hmem

theorem processMapPage_eq_ok (h : processMapPage builtins payload = .ok geometries) :
    ∃ georef items parcels,
      georeferenceMap builtins.toConversions builtins.numpy payload defaultCrs true = .ok georef ∧
      payload.boundaries.iterate = .ok items ∧
      vectorizeFrom builtins georef (payload.entries.get "conflation_lineage_ref".toList) 0 items =
        .ok parcels ∧
      ∃ bound : List BoundParcel, bound.map (·.drawn) = parcels.map (·.drawn) ∧
        parcelGeometries builtins payload georef 0 bound = .ok geometries := by
  obtain ⟨georef, hgeoref, h⟩ := Raised.bind_eq_ok.mp h
  obtain ⟨parcels, hparcels, h⟩ := Raised.bind_eq_ok.mp h
  obtain ⟨used, hused, hparcels⟩ := Raised.bind_eq_ok.mp hparcels
  cases hused
  obtain ⟨items, hitems, hvectorized⟩ := Raised.bind_eq_ok.mp hparcels
  refine ⟨georef, items, parcels, hgeoref, liftM_eq_ok.mp hitems, liftM_eq_ok.mp hvectorized, ?_⟩
  split at h
  · rename_i hnone
    cases h
    exact ⟨[], by rw [hnone]; rfl, rfl⟩
  · obtain ⟨bound, hbound, h⟩ := Raised.bind_eq_ok.mp h
    exact ⟨bound, bindSurveyLabels_drawn hbound, liftM_eq_ok.mp h⟩

theorem processMapPage_mem (h : processMapPage builtins payload = .ok geometries)
    (hmem : geometry ∈ geometries) :
    ∃ georef items polyItem,
      georeferenceMap builtins.toConversions builtins.numpy payload defaultCrs true = .ok georef ∧
      payload.boundaries.iterate = .ok items ∧ Value.dict polyItem ∈ items ∧
      Draws builtins georef polyItem ∧
      Traces builtins.toConversions georef polyItem geometry.polygon ∧
      geometry.ulpinEligible = decide (georef.rmse ≤ ulpinRmseThreshold) := by
  obtain ⟨georef, items, parcels, hgeoref, hitems, hparcels, bound, hbound, h⟩ :=
    processMapPage_eq_ok h
  obtain ⟨hdrawn, heligible⟩ := parcelGeometries_mem h hmem
  rw [hbound] at hdrawn
  obtain ⟨boundary, hboundary, hdrawn⟩ := List.mem_map.mp hdrawn
  obtain ⟨polyItem, hitem, hdraws, htraces⟩ := vectorizeFrom_drawn hparcels hboundary hdrawn
  exact ⟨georef, items, polyItem, hgeoref, hitems, hitem, hdraws, htraces, heligible⟩

theorem MapPayload.DrawsParcel.ne_nil (hdraws : payload.DrawsParcel builtins)
    (h : processMapPage builtins payload = .ok geometries) : geometries ≠ [] := by
  obtain ⟨georef, items, parcels, hgeoref, hitems, hparcels, bound, hbound, h⟩ :=
    processMapPage_eq_ok h
  obtain ⟨_, _, polyItem, hgeoref', hitems', hitem, hdraws⟩ := hdraws
  cases hgeoref.symm.trans hgeoref'
  cases hitems.symm.trans hitems'
  obtain ⟨boundary, hboundary, polygon, hdrawn⟩ := hdraws.vectorizeFrom hparcels hitem
  have hmem : (some polygon, true) ∈ bound.map (·.drawn) := by
    rw [hbound, ← hdrawn]
    exact List.mem_map_of_mem hboundary
  exact parcelGeometries_ne_nil h hmem

/-! ## The payload's own parcels -/

def MapPayload.Supplies (payload : MapPayload) (polyItem : Dict ℚ) : Prop :=
  ∃ items, payload.rawPolygons = .list items ∧ Value.dict polyItem ∈ items

def ControlPoint.complete (conversions : Conversions ℚ) : ControlPoint → Option GCP
  | .gcp point => some point
  | .dict entries =>
      if ["pixel_x", "pixel_y", "geo_x", "geo_y"].all (hasKey entries) then
        (readGcp conversions entries).toOption
      else none
  | .other => none

def MapPayload.suppliedControlPoints (conversions : Conversions ℚ) (payload : MapPayload) :
    List GCP :=
  match payload.rawGcps.iterate with
  | .ok points => points.filterMap (ControlPoint.complete conversions)
  | .error _ => []

/-- A returned parcel is not fabricated: its polygon traces a boundary of the payload, and it is
eligible only on control points of the payload that are not on a line and fit to the threshold. -/
structure Faithful (builtins : MapBuiltins) (payload : MapPayload) (geometry : ParcelGeometry) :
    Prop where
  boundary : ∃ georef polyItem,
    georeferenceMap builtins.toConversions builtins.numpy payload defaultCrs true = .ok georef ∧
      payload.Supplies polyItem ∧
      Traces builtins.toConversions georef polyItem geometry.polygon
  controlPoints : geometry.ulpinEligible = true →
    NonCollinear (payload.suppliedControlPoints builtins.toConversions) ∧
      FitsWithin ulpinRmseThreshold (payload.suppliedControlPoints builtins.toConversions)

/-- The payload has boundaries and at least three control points are read from it. If their
error rounds to the threshold, the complete ones among them are within it, and not on a line. -/
structure Supported (conversions : Conversions ℚ) (payload : MapPayload) : Prop where
  boundaries : payload.rawPolygons.truthy = true
  controlPoints : ∃ gcps, payload.readControlPoints conversions = .ok gcps ∧ 3 ≤ gcps.length ∧
    (FitsWithin roundedThreshold gcps →
      (payload.suppliedControlPoints conversions = gcps ∨
        NonCollinear (payload.suppliedControlPoints conversions)) ∧
      FitsWithin ulpinRmseThreshold (payload.suppliedControlPoints conversions))

theorem MapPayload.Supplies.truthy {polyItem : Dict ℚ} (h : payload.Supplies polyItem) :
    payload.rawPolygons.truthy = true := by
  obtain ⟨items, hitems, hmem⟩ := h
  rw [hitems]
  cases items with
  | nil => cases hmem
  | cons item rest => rfl

theorem iterate_dict {given : Value ℚ} {items : List (Value ℚ)} {polyItem : Dict ℚ}
    (h : given.iterate = .ok items) (hmem : Value.dict polyItem ∈ items) :
    given = .list items := by
  cases given with
  | list values =>
    cases h
    rfl
  | dict entries =>
    cases h
    obtain ⟨entry, -, hentry⟩ := List.mem_map.mp hmem
    cases hentry
  | text t =>
    cases h
    obtain ⟨c, -, hc⟩ := List.mem_map.mp hmem
    cases hc
  | _ => cases h

theorem length_complete_le {points : List ControlPoint} {gcps : List GCP}
    (h : readGcps conversions points = .ok gcps) :
    (points.filterMap (ControlPoint.complete conversions)).length ≤ gcps.length := by
  induction points generalizing gcps with
  | nil => simp
  | cons point rest ih =>
    cases point with
    | gcp point =>
      obtain ⟨later, hlater, h⟩ := Raised.bind_eq_ok.mp h
      cases h
      simpa [ControlPoint.complete] using ih hlater
    | dict entries =>
      obtain ⟨g, -, h⟩ := Raised.bind_eq_ok.mp h
      obtain ⟨later, hlater, h⟩ := Raised.bind_eq_ok.mp h
      cases h
      have hle := ih hlater
      rw [List.filterMap_cons]
      split
      · exact hle.trans (Nat.le_succ _)
      · simpa using hle
    | other =>
      rw [List.filterMap_cons_none rfl]
      exact ih h

theorem length_suppliedControlPoints_le {gcps : List GCP}
    (h : payload.readControlPoints conversions = .ok gcps) :
    (payload.suppliedControlPoints conversions).length ≤ gcps.length := by
  obtain ⟨points, hpoints, hgcps⟩ := Raised.bind_eq_ok.mp h
  unfold MapPayload.suppliedControlPoints
  rw [hpoints]
  exact length_complete_le hgcps

/-- With numpy exact, a returned parcel is the payload's own exactly when the payload supports
its parcels. -/
theorem faithful_iff_of_mem (exact : builtins.numpy.Exact)
    (h : processMapPage builtins payload = .ok geometries) (hmem : geometry ∈ geometries) :
    Faithful builtins payload geometry ↔ Supported builtins.toConversions payload := by
  obtain ⟨georef, items, polyItem, hgeoref, hitems, hitem, -, htraces, heligible⟩ :=
    processMapPage_mem h hmem
  obtain ⟨gcps, hgcps, hcollinear, hrmse⟩ := georeferenceMap_eq_ok exact hgeoref
  rw [Bool.eq_iff_iff, decide_eq_true_iff, hrmse] at heligible
  constructor
  · rintro ⟨⟨_, _, -, hsupplies, -⟩, hpoints⟩
    refine ⟨hsupplies.truthy, gcps, hgcps, ?_, fun hfits => ?_⟩
    · -- with too few of them the parcel is eligible on the corners of a sheet
      by_contra hfew
      have hthree := (hpoints (heligible.mpr (.inl (not_le.mp hfew)))).1.three_le_length
      exact hfew (hthree.trans (length_suppliedControlPoints_le hgcps))
    · have hqualified := hpoints (heligible.mpr (.inr hfits))
      exact ⟨.inr hqualified.1, hqualified.2⟩
  · rintro ⟨htruthy, read, hread, hthree, hfit⟩
    obtain rfl : gcps = read := Except.ok.inj (hgcps.symm.trans hread)
    have hboundaries : payload.boundaries = payload.rawPolygons := by
      simp [MapPayload.boundaries, htruthy]
    rw [hboundaries] at hitems
    refine ⟨⟨georef, polyItem, hgeoref, ⟨items, iterate_dict hitems hitem, hitem⟩, htraces⟩, ?_⟩
    intro hmarked
    have hfits := (heligible.mp hmarked).resolve_left (not_lt.mpr hthree)
    obtain ⟨hposition, hwithin⟩ := hfit hfits
    refine ⟨?_, hwithin⟩
    rcases hposition with hsame | hposition
    · rw [hsame]
      exact hcollinear hthree
    · exact hposition

/-! ## Pages with and without their own parcels -/

section Pages

open LeastSquares Matrix

def exactNumpy : Numpy where
  matrixRank A := if (Aᵀ * A).det = 0 then 0 else 3
  lstsq A b := solve A b

theorem exactNumpy_exact : exactNumpy.Exact where
  rank_le A := by
    by_cases hdet : (Aᵀ * A).det = 0
    · simp [exactNumpy, hdet]
    · have hrank := gram_det_ne_zero_iff.mp hdet
      simp [exactNumpy, hdet, hrank]
  lstsq_minimises _ _ hrank := solve_minimises (hrank.trans (Fintype.card_fin 3).symm)

def planarBuiltins : MapBuiltins where
  repr _ := []
  parse text := .error (.valueError ("could not convert string to float: ".toList ++ text))
  strip text := text
  upper text := text.map Char.toUpper
  radians degrees := degrees * (3141592653589793 / 180000000000000000)
  cos angle := 1 - angle ^ 2 / 2
  quantize area :=
    let cents := ⌊area * 100 + 1 / 2⌋₊
    .ok ((toString (cents / 100)).toList ++ '.' :: Text.numeral 10 2 cents)
  uuid4 draw := Text.numeral 16 32 draw
  numpy := exactNumpy
  shapely := none
  operations := .exact
  sqrt := Rounding.rootTo 17

def controlPointEntry (pixelX pixelY geoX geoY : ℚ) : Value ℚ :=
  .dict [("pixel_x".toList, .number pixelX), ("pixel_y".toList, .number pixelY),
    ("geo_x".toList, .number geoX), ("geo_y".toList, .number geoY)]

def surveyedPage : MapPayload where
  gcpControlPoints := .value (.list
    [controlPointEntry 0 0 500000 3001000, controlPointEntry 1000 0 501000 3001000,
      controlPointEntry 1000 1000 501000 3000000])
  entries := [("raw_polygons".toList, .list [.dict [("coordinates".toList, pixelSquare 100 100)]])]

def blankPage : MapPayload := { entries := [("page_id".toList, .text "p1".toList)] }

/-- With numpy exact, a page returns no fabricated parcel exactly when its payload supports the
parcels that are drawn, if any is. -/
theorem faithful_iff_supported (exact : builtins.numpy.Exact)
    (h : processMapPage builtins payload = .ok geometries) :
    (∀ geometry ∈ geometries, Faithful builtins payload geometry) ↔
      (payload.DrawsParcel builtins → Supported builtins.toConversions payload) := by
  constructor
  · intro hfaithful hdraws
    obtain ⟨geometry, hmem⟩ := List.exists_mem_of_ne_nil _ (hdraws.ne_nil h)
    exact (faithful_iff_of_mem exact h hmem).mp (hfaithful geometry hmem)
  · intro hsupported geometry hmem
    obtain ⟨georef, items, polyItem, hgeoref, hitems, hitem, hdraws, -⟩ := processMapPage_mem h hmem
    have hdrawn : payload.DrawsParcel builtins :=
      ⟨georef, items, polyItem, hgeoref, hitems, hitem, hdraws⟩
    exact (faithful_iff_of_mem exact h hmem).mpr (hsupported hdrawn)

theorem faithful_surveyedPage : ∃ geometries,
    processMapPage planarBuiltins surveyedPage = .ok geometries ∧ geometries.length = 1 ∧
      ∀ geometry ∈ geometries, Faithful planarBuiltins surveyedPage geometry := by
  have hreturned : (processMapPage planarBuiltins surveyedPage).map List.length = .ok 1 := by
    decide +kernel
  obtain ⟨geometries, hrun, hlength⟩ := Raised.map_eq_ok.mp hreturned
  refine ⟨geometries, hrun, hlength, ?_⟩
  refine (faithful_iff_supported exactNumpy_exact hrun).mpr fun _ => ⟨by decide +kernel, ?_⟩
  refine ⟨[⟨0, 0, 500000, 3001000⟩, ⟨1000, 0, 501000, 3001000⟩, ⟨1000, 1000, 501000, 3000000⟩],
    by decide +kernel, by decide, fun _ => ⟨.inl (by decide +kernel), ?_⟩⟩
  have hexact : (AffineTransform.mk 1 0 500000 0 (-1) 3001000).totalError
      (surveyedPage.suppliedControlPoints planarBuiltins.toConversions) = 0 := by
    decide +kernel
  exact fitsWithin_of_exact hexact

/-- For a page with nothing but its id, two squares are made up and marked eligible. -/
theorem blankPage_fabricated : planarBuiltins.numpy.Exact ∧ ∃ geometries,
    processMapPage planarBuiltins blankPage = .ok geometries ∧ geometries.length = 2 ∧
      ∀ geometry ∈ geometries, geometry.ulpinEligible = true ∧
        ¬ Faithful planarBuiltins blankPage geometry := by
  have hreturned : (processMapPage planarBuiltins blankPage).map
      (List.map (·.ulpinEligible)) = .ok [true, true] := by
    decide +kernel
  obtain ⟨geometries, hrun, heligible⟩ := Raised.map_eq_ok.mp hreturned
  refine ⟨exactNumpy_exact, geometries, hrun, ?_, fun geometry hmem => ⟨?_, fun hfaithful => ?_⟩⟩
  · simpa using congrArg List.length heligible
  · have hmarked : geometry.ulpinEligible ∈ [true, true] :=
      heligible ▸ List.mem_map_of_mem hmem
    simpa using hmarked
  · obtain ⟨_, _, -, hsupplies, -⟩ := hfaithful.boundary
    exact absurd hsupplies.truthy (by decide +kernel)

end Pages

end LandRecords.Parcels
