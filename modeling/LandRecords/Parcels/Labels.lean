import LandRecords.Parcels.Vectorize

/-! Survey labels of a map page, bound to the parcels they lie in or near. A label that fits
several parcels and a parcel with several labels stay unbound. -/
namespace LandRecords.Parcels

open EdgeSums (edges)

structure PreparedLabel where
  index : ℕ
  text : Text
  point : Point
  confidence : Option ℚ
  bbox : Value ℚ
  conflationLineageRef : Value ℚ

structure Candidate where
  label : PreparedLabel
  dist : ℚ
  isInside : Bool

inductive BindingStatus where
  | unbound
  | ambiguous
  | bound
deriving DecidableEq

structure BoundParcel extends ParcelBoundary where
  boundSurveyNo : Option Text
  labelConfidence : Option ℚ
  labelBbox : Value ℚ
  bindingStatus : BindingStatus

/-! ## Labels -/

section Preparation

variable (conversions : Conversions ℚ) (operations : FloatOperations)

def hasKey (d : Dict ℚ) (key : String) : Bool := (d.lookup key.toList).isSome

def itemFloat (d : Dict ℚ) (key : String) : Except Raised ℚ := do
  (← Dict.item d key.toList).float conversions

def bboxCenter (lbl : Dict ℚ) : Except Raised Point := do
  let bbox ← (lbl.get "bbox".toList).asDict
  let middle := fun start size => operations.add start (operations.div size 2 two_ne_zero)
  let cx := middle (← floatOf conversions bbox "x" 0) (← floatOf conversions bbox "w" 0)
  let cy := middle (← floatOf conversions bbox "y" 0) (← floatOf conversions bbox "h" 0)
  return (cx, cy)

def labelPoint (lbl : Dict ℚ) (georefResult : Option GeoreferenceResult) :
    Except Raised (Option Point) :=
  if hasKey lbl "geo_x" && hasKey lbl "geo_y" then
    return some (← itemFloat conversions lbl "geo_x", ← itemFloat conversions lbl "geo_y")
  else if hasKey lbl "bbox" && georefResult.isSome then do
    let center ← bboxCenter conversions operations lbl
    return georefResult.map fun georef => georef.transformPoint operations center.1 center.2
  else if hasKey lbl "x" && hasKey lbl "y" then do
    let l : Point := (← itemFloat conversions lbl "x", ← itemFloat conversions lbl "y")
    match georefResult with
    | some georef => return some (georef.transformPoint operations l.1 l.2)
    | none => return some l
  else if hasKey lbl "bbox" then return some (← bboxCenter conversions operations lbl)
  else return none

def prepareLabel (georefResult : Option GeoreferenceResult) (idx : ℕ) (lbl : Dict ℚ) :
    Except Raised (Option PreparedLabel) := do
  let text := ((lbl.get "raw_value".toList).orElse (lbl.get "canonical_value".toList)).orElse
    (lbl.get "text".toList)
  if !text.truthy then return none
  match ← labelPoint conversions operations lbl georefResult with
  | none => return none
  | some point =>
      let conf :=
        if hasKey lbl "confidence" then lbl.get "confidence".toList else lbl.get "score".toList
      let confidence ←
        match conf with
        | .none => pure none
        | conf => some <$> conf.float conversions
      return some {
        index := idx
        text := text.str conversions
        point := point
        confidence := confidence
        bbox := (lbl.get "bbox".toList).orElse (lbl.get "source_bbox".toList)
        conflationLineageRef :=
          (lbl.get "conflation_lineage_ref".toList).orElse (lbl.get "lineage_id".toList) }

def prepareLabels (georefResult : Option GeoreferenceResult) (idx : ℕ) :
    List (Value ℚ) → Except Raised (List PreparedLabel)
  | [] => .ok []
  | lbl :: rest => do
      let prepared ← prepareLabel conversions operations georefResult idx (← lbl.asDict)
      return prepared.toList ++ (← prepareLabels georefResult (idx + 1) rest)

end Preparation

/-! ## Parcels in reach -/

section PlaneGeometry

variable (operations : FloatOperations) (p : Point)

/-- The edges a ray meets, each time on the other side of the ring. The place where it meets the
line of an edge is kept from one edge to the next. -/
def castRay (p1 : Point) (xinters : ℚ) (inside : Bool) : List Point → Bool
  | [] => inside
  | p2 :: rest =>
      if min p1.2 p2.2 < p.2 ∧ p.2 ≤ max p1.2 p2.2 ∧ p.1 ≤ max p1.1 p2.1 then
        let xinters' :=
          if hne : p1.2 ≠ p2.2 then
            operations.add
              (operations.div
                (operations.mul (operations.sub p.2 p1.2) (operations.sub p2.1 p1.1))
                (operations.sub p2.2 p1.2) (operations.sub_ne_zero hne.symm))
              p1.1
          else xinters
        let inside' := if p1.1 = p2.1 ∨ p.1 ≤ xinters' then !inside else inside
        castRay p2 xinters' inside' rest
      else castRay p2 xinters inside rest

/-- At first `xinters` is not set, which `castRay_xinters` shows to be no matter. -/
def pointInPolygonRing : List Point → Bool
  | [] => false
  | first :: rest => castRay operations p first 0 false (first :: rest ++ [first])

def sumOfSquares (dx dy : ℚ) : Except Raised ℚ := do
  return operations.add (← operations.square dx) (← operations.square dy)

def distSqToEdge (edge : Point × Point) : Except Raised ℚ :=
  let dx := operations.sub edge.2.1 edge.1.1
  let dy := operations.sub edge.2.2 edge.1.2
  if dx = 0 ∧ dy = 0 then
    sumOfSquares operations (operations.sub p.1 edge.1.1) (operations.sub p.2 edge.1.2)
  else
    let along := operations.add (operations.mul (operations.sub p.1 edge.1.1) dx)
      (operations.mul (operations.sub p.2 edge.1.2) dy)
    let lengthSq := operations.add (operations.mul dx dx) (operations.mul dy dy)
    if hzero : lengthSq = 0 then .error .zeroDivisionError
    else
      let t := max 0 (min 1 (operations.div along lengthSq hzero))
      let projX := operations.add edge.1.1 (operations.mul t dx)
      let projY := operations.add edge.1.2 (operations.mul t dy)
      sumOfSquares operations (operations.sub p.1 projX) (operations.sub p.2 projY)

def pointToPolygonDistance (sqrt : ℚ → ℚ) (coords : List Point) : Except Raised (Option ℚ) := do
  let distSqs ← (edges coords).mapM (distSqToEdge operations p)
  return distSqs.min?.map sqrt

end PlaneGeometry

def onShapely {α : Type} (result : Except Text α) : Except MapError α := result.mapError .shapely

def placeOf (geometry : Geometry) (coords : List Point) (p : Point) :
    Except MapError (Bool × Option ℚ) :=
  match geometry.shapely with
  | some package => do
      let isInside ← do
        if ← onShapely (package.contains coords p) then pure true
        else onShapely (package.touches coords p)
      return (isInside, some (← onShapely (package.distance coords p)))
  | none => do
      let dist ← pointToPolygonDistance geometry.operations p geometry.sqrt coords
      return (pointInPolygonRing geometry.operations p coords, dist)

def candidatesIn (geometry : Geometry) (maxNearbyDistance : ℚ) (coords : List Point) :
    List PreparedLabel → Except MapError (List Candidate)
  | [] => .ok []
  | lbl :: rest => do
      let (isInside, dist) ← placeOf geometry coords lbl.point
      let candidate :=
        if isInside then some { label := lbl, dist := 0, isInside := true }
        else (dist.filter fun d => decide (d ≤ maxNearbyDistance)).map fun d =>
          { label := lbl, dist := d, isInside := false }
      return candidate.toList ++ (← candidatesIn geometry maxNearbyDistance coords rest)

def candidatesOf (geometry : Geometry) (maxNearbyDistance : ℚ) (labels : List PreparedLabel)
    (polyItem : ParcelBoundary) : Except MapError (List Candidate) :=
  match polyItem.polygon with
  | none => .ok []
  | some polyDict =>
      if !polyItem.isValid then .ok []
      else match polyDict.coordinates with
        | [] => liftM (Except.error (ε := Raised) (α := List Candidate) .indexError)
        | coords :: _ =>
            if coords.length < 3 then .ok []
            else candidatesIn geometry maxNearbyDistance coords labels

def candidateTable (geometry : Geometry) (maxNearbyDistance : ℚ)
    (labels : List PreparedLabel) : List ParcelBoundary → Except MapError (List (List Candidate))
  | [] => .ok []
  | polyItem :: rest => do
      let candidates ← candidatesOf geometry maxNearbyDistance labels polyItem
      return candidates :: (← candidateTable geometry maxNearbyDistance labels rest)

/-! ## Bindings -/

def leftUnbound (polyItem : ParcelBoundary) (status : BindingStatus) (lineage : Value ℚ) :
    BoundParcel := {
  polyItem with
  conflationLineageRef := lineage
  boundSurveyNo := none
  labelConfidence := none
  labelBbox := .none
  bindingStatus := status }

/-- `min(pool, key=dist)`: the first of the nearest. -/
def nearest (best : Candidate) : List Candidate → Candidate
  | [] => best
  | c :: rest => nearest (if c.dist < best.dist then c else best) rest

def poolOf (candidates : List Candidate) : List Candidate :=
  let insideCandidates := candidates.filter (·.isInside)
  if insideCandidates.isEmpty then candidates else insideCandidates

def competingParcels (table : List (List Candidate)) (best : Candidate) : List Candidate :=
  let lblParcels := table.flatten.filter fun other => other.label.index == best.label.index
  if best.isInside then lblParcels.filter (·.isInside) else lblParcels

def resolveBinding (table : List (List Candidate)) (polyItem : ParcelBoundary)
    (candidates : List Candidate) : BoundParcel :=
  let lineage := polyItem.conflationLineageRef
  match poolOf candidates with
  | [] => leftUnbound polyItem .unbound lineage
  | c :: rest =>
      if 1 < ((c :: rest).map (·.label.text)).dedup.length then
        leftUnbound polyItem .ambiguous lineage
      else
        let best := nearest c rest
        if 1 < (competingParcels table best).length then
          leftUnbound polyItem .ambiguous (lineage.orElse best.label.conflationLineageRef)
        else {
          polyItem with
          conflationLineageRef := best.label.conflationLineageRef.orElse lineage
          boundSurveyNo := some best.label.text
          labelConfidence := best.label.confidence
          labelBbox := best.label.bbox
          bindingStatus := .bound }

def bindSurveyLabels (builtins : MapBuiltins) (polygons : List ParcelBoundary)
    (labels : Value ℚ) (georefResult : Option GeoreferenceResult) (maxNearbyDistance : ℚ) :
    Except MapError (List BoundParcel) :=
  if polygons = [] then .ok []
  else do
    let prepared ← prepareLabels builtins.toConversions builtins.operations georefResult 0
      (← labels.iterate)
    let table ← candidateTable builtins.toGeometry maxNearbyDistance prepared polygons
    return polygons.zipWith (resolveBinding table) table

/-! ## What a binding keeps -/

def ParcelBoundary.drawn (polyItem : ParcelBoundary) : Option GeoJsonPolygon × Bool :=
  (polyItem.polygon, polyItem.isValid)

theorem resolveBinding_drawn (table : List (List Candidate)) (polyItem : ParcelBoundary)
    (candidates : List Candidate) :
    (resolveBinding table polyItem candidates).drawn = polyItem.drawn := by
  unfold resolveBinding
  dsimp only
  split
  · rfl
  · split
    · rfl
    · split <;> rfl

theorem length_candidateTable {geometry : Geometry} {maxNearbyDistance : ℚ}
    {labels : List PreparedLabel} {polygons : List ParcelBoundary} {table : List (List Candidate)}
    (h : candidateTable geometry maxNearbyDistance labels polygons = .ok table) :
    table.length = polygons.length := by
  induction polygons generalizing table with
  | nil =>
    cases h
    rfl
  | cons polyItem rest ih =>
    rw [candidateTable, Raised.bind_eq_ok] at h
    obtain ⟨candidates, -, h⟩ := h
    obtain ⟨later, hlater, h⟩ := Raised.bind_eq_ok.mp h
    cases h
    rw [List.length_cons, List.length_cons, ih hlater]

theorem bindSurveyLabels_drawn {builtins : MapBuiltins} {polygons : List ParcelBoundary}
    {labels : Value ℚ} {georefResult : Option GeoreferenceResult} {maxNearbyDistance : ℚ}
    {bound : List BoundParcel}
    (h : bindSurveyLabels builtins polygons labels georefResult maxNearbyDistance = .ok bound) :
    bound.map (·.drawn) = polygons.map (·.drawn) := by
  unfold bindSurveyLabels at h
  split at h
  · rename_i hnone
    cases h
    rw [hnone, List.map_nil, List.map_nil]
  · obtain ⟨items, -, h⟩ := Raised.bind_eq_ok.mp h
    obtain ⟨prepared, -, h⟩ := Raised.bind_eq_ok.mp h
    obtain ⟨table, htable, h⟩ := Raised.bind_eq_ok.mp h
    cases h
    have hdrawn : (fun item : BoundParcel => item.drawn) ∘ Function.uncurry (resolveBinding table) =
        (·.drawn) ∘ Prod.fst := by
      funext pair
      exact resolveBinding_drawn table pair.1 pair.2
    rw [← List.map_uncurry_zip_eq_zipWith, List.map_map, hdrawn, ← List.map_map,
      List.map_fst_zip (length_candidateTable htable).ge]

end LandRecords.Parcels
