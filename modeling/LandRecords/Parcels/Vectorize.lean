import LandRecords.Base.EdgeSums
import LandRecords.Extract.Strikethrough
import LandRecords.Parcels.Georeference

/-! Vectorisation of the parcels of a map page: the boundaries of the payload as closed rings on
the ground, checked before they become polygons, and their areas. -/
namespace LandRecords.Parcels

open EdgeSums (edges)

abbrev Point := ℚ × ℚ

/-- The operations of the optional geometry package on a ring. Each may raise. -/
structure Shapely where
  isValid : List Point → Except Text Bool
  area : List Point → Except Text ℚ
  contains : List Point → Point → Except Text Bool
  touches : List Point → Point → Except Text Bool
  distance : List Point → Point → Except Text ℚ

structure Geometry where
  shapely : Option Shapely
  operations : FloatOperations
  sqrt : ℚ → ℚ

/-- What is left open: the builtin conversions and case mapping, the transcendental functions,
the decimal text of an area, the ids drawn, and the two packages. -/
structure MapBuiltins extends Conversions ℚ, Geometry where
  strip : Text → Text
  upper : Text → Text
  radians : ℚ → ℚ
  cos : ℚ → ℚ
  quantize : ℚ → Except Raised Text
  uuid4 : ℕ → Text
  numpy : Numpy

/-! ## Rings -/

def segmentsCross (p1 p2 q1 q2 : Point) : Bool := Extract.segmentsCross p1 p2 q1 q2

def isSelfIntersecting (coords : List Point) : Bool :=
  let n := coords.length - 1
  if n < 4 then false
  else
    (edges coords).zipIdx.any fun (first, i) =>
      (edges coords).zipIdx.any fun (second, j) =>
        decide (i + 2 ≤ j) && !(i == 0 && j == n - 1) &&
          segmentsCross first.1 first.2 second.1 second.2

def shoelaceArea (coords : List Point) : ℚ :=
  |((edges coords).map fun edge => edge.1.1 * edge.2.2 - edge.2.1 * edge.1.2).sum| / 2

def validateByShapely (shapely : Shapely) (coords : List Point) : Bool × Text :=
  let check : Except Text Bool := do
    if !(← shapely.isValid coords) then return false
    else return !decide ((← shapely.area coords) ≤ 0)
  match check with
  | .ok true => (true, "Valid polygon geometry.".toList)
  | .ok false => (false, "Invalid or self-intersecting polygon geometry.".toList)
  | .error err => (false, "Shapely validation error: ".toList ++ err)

def validatePolygonGeometry (shapely : Option Shapely) (coords : List Point) : Bool × Text :=
  if coords.length < 4 then
    (false, "Broken or incomplete boundary (fewer than 4 ring coordinates).".toList)
  else if coords.head? ≠ coords.getLast? then (false, "Open/unclosed boundary ring.".toList)
  else if coords.dropLast.dedup.length < 3 then
    (false, "Degenerate polygon (fewer than 3 distinct vertices).".toList)
  else match shapely with
    | some package => validateByShapely package coords
    | none =>
        if isSelfIntersecting coords then
          (false, "Self-intersecting (bowtie/crossing) polygon ring.".toList)
        else if shoelaceArea coords ≤ 0 then (false, "Degenerate zero-area polygon.".toList)
        else (true, "Valid polygon geometry.".toList)

/-- `if coords and coords[0] != coords[-1]: coords.append(coords[0])`. -/
def closeRing (coords : List Point) : List Point :=
  if coords.head? ≠ coords.getLast? then coords ++ coords.head?.toList else coords

def cleanFrom (conversions : Conversions ℚ) (prev : Option Point) :
    List (Value ℚ) → Except Raised (List Point)
  | [] => .ok []
  | .list (x :: y :: _) :: rest => do
      let pt : Point := (← x.float conversions, ← y.float conversions)
      let isNew := prev.all fun prev =>
        decide (1 / 1000000 ≤ (pt.1 - prev.1) ^ 2 + (pt.2 - prev.2) ^ 2)
      if isNew then return pt :: (← cleanFrom conversions (some pt) rest)
      else cleanFrom conversions prev rest
  | _ :: rest => cleanFrom conversions prev rest

def cleanNoisyVertices (conversions : Conversions ℚ) (coords : Value ℚ) :
    Except Raised (List Point) := do
  cleanFrom conversions none (← coords.iterate)

/-! ## Boundaries -/

structure GeoJsonPolygon where
  type : Text := "Polygon".toList
  coordinates : List (List Point)
deriving DecidableEq

structure ParcelBoundary where
  parcelIndex : ℕ
  boundaryId : Value ℚ
  isValid : Bool
  isBroken : Bool
  polygon : Option GeoJsonPolygon
  pixelCoordinates : Value ℚ
  conflationLineageRef : Value ℚ
  validationReason : Text

def pixelSquare (x y : ℚ) : Value ℚ :=
  let vertex := fun px py => Value.list [.number px, .number py]
  .list [vertex x y, vertex (x + 200) y, vertex (x + 200) (y + 200), vertex x (y + 200), vertex x y]

def defaultParcels : List (Value ℚ) :=
  [.dict [("coordinates".toList, pixelSquare 100 100)],
    .dict [("coordinates".toList, pixelSquare 300 100)]]

def MapPayload.rawPolygons (payload : MapPayload) : Value ℚ :=
  ((payload.entries.get "raw_polygons".toList).orElse (payload.entries.get "parcels".toList)).orElse
    (.list [])

def MapPayload.boundaries (payload : MapPayload) : Value ℚ :=
  if !payload.rawPolygons.truthy &&
      (payload.entries.getD "allow_default_parcels".toList (.number 1)).truthy then
    .list defaultParcels
  else payload.rawPolygons

def pixelCoordinates (polyItem : Dict ℚ) : Value ℚ :=
  ((polyItem.get "coordinates".toList).orElse (polyItem.get "pixel_coordinates".toList)).orElse
    (.list [])

def groundPoint (georef : GeoreferenceResult) (p : Point) : Point :=
  let g := georef.transformPoint .exact p.1 p.2
  (Rounding.roundTo 4 g.1, Rounding.roundTo 4 g.2)

section Vectorisation

variable (builtins : MapBuiltins) (georef : GeoreferenceResult) (conflationLineage : Value ℚ)

def vectorizeItem (idx : ℕ) (polyItem : Dict ℚ) : Except Raised (Option ParcelBoundary) := do
  let pxCoords := pixelCoordinates polyItem
  let isExplicitlyClosed := (polyItem.getD "is_closed".toList (.number 1)).truthy
  let boundaryId := (polyItem.get "boundary_id".toList).orElse
    (.text ("boundary_".toList ++ (toString (idx + 1)).toList))
  if !pxCoords.truthy then return none
  let cleanedPxCoords ← cleanNoisyVertices builtins.toConversions pxCoords
  if !isExplicitlyClosed || decide (cleanedPxCoords.length < 3) then
    return some {
      parcelIndex := idx + 1
      boundaryId := boundaryId
      isValid := false
      isBroken := true
      polygon := none
      pixelCoordinates := pxCoords
      conflationLineageRef := conflationLineage
      validationReason := "Broken or open boundary without closing edge.".toList }
  let geoCoords := closeRing (cleanedPxCoords.map (groundPoint georef))
  let (isValid, reason) := validatePolygonGeometry builtins.shapely geoCoords
  return some {
    parcelIndex := idx + 1
    boundaryId := boundaryId
    isValid := isValid
    isBroken := false
    polygon := if isValid then some { coordinates := [geoCoords] } else none
    pixelCoordinates := pxCoords
    conflationLineageRef := conflationLineage
    validationReason := if isValid then "Valid polygon geometry.".toList else reason }

def vectorizeFrom (idx : ℕ) : List (Value ℚ) → Except Raised (List ParcelBoundary)
  | [] => .ok []
  | polyItem :: rest => do
      let boundary ← vectorizeItem builtins georef conflationLineage idx (← polyItem.asDict)
      return boundary.toList ++ (← vectorizeFrom (idx + 1) rest)

end Vectorisation

def defaultCrs : Text := "EPSG:32643".toList

def vectorizeParcels (builtins : MapBuiltins) (payload : MapPayload)
    (georefResult : Option GeoreferenceResult) : Except MapError (List ParcelBoundary) := do
  let georef ←
    match georefResult with
    | some georef => pure georef
    | none => georeferenceMap builtins.toConversions builtins.numpy payload defaultCrs true
  let conflationLineage := payload.entries.get "conflation_lineage_ref".toList
  vectorizeFrom builtins georef conflationLineage 0 (← payload.boundaries.iterate)

/-! ## Areas -/

def geographicCrsPatterns : List Text :=
  ["4326".toList, "WGS84".toList, "WGS-84".toList, "OGC:CRS84".toList, "4269".toList,
    "NAD83".toList, "GEOGCS".toList]

section Areas

variable (builtins : MapBuiltins)

def isGeographicCrs (crs : Value ℚ) : Bool :=
  crs.truthy &&
    let crsClean := builtins.upper (builtins.strip (crs.str builtins.toConversions))
    geographicCrsPatterns.any crsClean.contains

def geographicToMetricCoords (coords : List Point) : List Point :=
  let earthRadius := 63710088 / 10
  let pts :=
    if coords.head? = coords.getLast? ∧ 1 < coords.length then coords.dropLast else coords
  if pts = [] then coords
  else
    let lon0 := (pts.map Prod.fst).sum / pts.length
    let lat0 := (pts.map Prod.snd).sum / pts.length
    let cosLat0 := builtins.cos (builtins.radians lat0)
    coords.map fun p =>
      (builtins.radians (p.1 - lon0) * earthRadius * cosLat0,
        builtins.radians (p.2 - lat0) * earthRadius)

def rawArea (coords : List Point) : ℚ :=
  match builtins.shapely with
  | some package =>
      match package.area coords with
      | .ok area => |area|
      | .error _ => shoelaceArea coords
  | none => shoelaceArea coords

def computeArea (polygon : GeoJsonPolygon) (crs : Value ℚ) : Except Raised Text :=
  match polygon.coordinates with
  | [] => .error .indexError
  | coords :: _ =>
      if coords.length < 3 then .ok "0.00".toList
      else
        let formattedCoords := closeRing coords
        if !(validatePolygonGeometry builtins.shapely formattedCoords).1 then .ok "0.00".toList
        else if isGeographicCrs builtins crs then
          builtins.quantize (rawArea builtins (geographicToMetricCoords builtins formattedCoords))
        else builtins.quantize (rawArea builtins formattedCoords)

end Areas

end LandRecords.Parcels
