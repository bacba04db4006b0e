import LandRecords.Base.LeastSquares
import LandRecords.Base.Payload
import LandRecords.Base.Planar
import LandRecords.Base.Rounding

/-! Georeferencing of a map page: an affine map from its pixels to the ground, fitted to the
control points of the payload. Fewer than three of them are replaced by the corners of a sheet. -/
namespace LandRecords.Parcels

open LeastSquares

inductive MapError where
  | insufficientControlPoints (message : Text)
  | shapely (message : Text)
  | raised (error : Raised)
deriving DecidableEq

instance : MonadLift (Except Raised) (Except MapError) where
  monadLift m := m.mapError .raised

structure GCP where
  pixelX : ℚ
  pixelY : ℚ
  geoX : ℚ
  geoY : ℚ
deriving DecidableEq

/-- An item of the control points: a `GCP`, a dictionary, or something that is skipped. -/
inductive ControlPoint where
  | gcp (point : GCP)
  | dict (entries : Dict ℚ)
  | other

/-- What a payload has for its control points. Only a list made in the same process has `GCP`
objects in it. -/
inductive ControlPoints where
  | items (points : List ControlPoint)
  | value (value : Value ℚ)

structure MapPayload where
  gcpControlPoints : ControlPoints := .value .none
  controlPointsList : ControlPoints := .value .none
  entries : Dict ℚ

/-- `X = a*x + b*y + c` and `Y = d*x + e*y + f`. -/
structure AffineTransform where
  a : ℚ
  b : ℚ
  c : ℚ
  d : ℚ
  e : ℚ
  f : ℚ
deriving DecidableEq

structure GeoreferenceResult where
  pageId : Value ℚ
  transformMatrix : AffineTransform
  transformType : Text
  rmse : ℚ
  crs : Value ℚ
  controlPointsCount : ℕ
  gcps : List GCP

/-- `np.linalg` on designs of three columns. -/
structure Numpy where
  matrixRank : {n : ℕ} → Matrix (Fin n) (Fin 3) ℚ → ℕ
  lstsq : {n : ℕ} → Matrix (Fin n) (Fin 3) ℚ → (Fin n → ℚ) → Fin 3 → ℚ

/-- The arithmetic of the program's numbers, which may round. NaN is not among them, comparisons
are exact, and a division by zero raises, so `div` is only asked for other divisors. -/
structure FloatOperations where
  add : ℚ → ℚ → ℚ
  sub : ℚ → ℚ → ℚ
  mul : ℚ → ℚ → ℚ
  div : ℚ → (b : ℚ) → b ≠ 0 → ℚ
  /-- `x ** 2`, which raises where it overflows. -/
  square : ℚ → Except Raised ℚ
  sub_ne_zero : ∀ {a b}, a ≠ b → sub a b ≠ 0

def FloatOperations.exact : FloatOperations where
  add a b := a + b
  sub a b := a - b
  mul a b := a * b
  div a b _ := a / b
  square x := .ok (x ^ 2)
  sub_ne_zero h := sub_eq_zero.not.mpr h

def AffineTransform.apply (m : AffineTransform) (px py : ℚ) : ℚ × ℚ :=
  (m.a * px + m.b * py + m.c, m.d * px + m.e * py + m.f)

def GeoreferenceResult.transformPoint (operations : FloatOperations) (georef : GeoreferenceResult)
    (px py : ℚ) : ℚ × ℚ :=
  let m := georef.transformMatrix
  let gx := operations.add (operations.add (operations.mul m.a px) (operations.mul m.b py)) m.c
  let gy := operations.add (operations.add (operations.mul m.d px) (operations.mul m.e py)) m.f
  (gx, gy)

/-! ## Control points -/

namespace ControlPoint

def ofValue : Value ℚ → ControlPoint
  | .dict entries => .dict entries
  | _ => .other

end ControlPoint

namespace ControlPoints

def truthy : ControlPoints → Bool
  | .items points => !points.isEmpty
  | .value v => v.truthy

/-- `a or b`. -/
def orElse (a b : ControlPoints) : ControlPoints := if a.truthy then a else b

def iterate : ControlPoints → Except Raised (List ControlPoint)
  | .items points => .ok points
  | .value v => return (← v.iterate).map ControlPoint.ofValue

end ControlPoints

def MapPayload.rawGcps (payload : MapPayload) : ControlPoints :=
  (payload.gcpControlPoints.orElse payload.controlPointsList).orElse (.items [])

section Georeferencing

variable (conversions : Conversions ℚ)

/-- `float(d.get(key, default))`. -/
def floatOf (d : Dict ℚ) (key : String) (default : ℚ) : Except Raised ℚ :=
  (d.getD key.toList (.number default)).float conversions

def readGcp (g : Dict ℚ) : Except Raised GCP := do
  let pixelX ← floatOf conversions g "pixel_x" 0
  let pixelY ← floatOf conversions g "pixel_y" 0
  let geoX ← floatOf conversions g "geo_x" 0
  let geoY ← floatOf conversions g "geo_y" 0
  return { pixelX, pixelY, geoX, geoY }

def readGcps : List ControlPoint → Except Raised (List GCP)
  | [] => .ok []
  | .gcp point :: rest => return point :: (← readGcps rest)
  | .dict entries :: rest => return (← readGcp conversions entries) :: (← readGcps rest)
  | .other :: rest => readGcps rest

def sheetCorners (offsetX offsetY scale : ℚ) : List GCP :=
  [{ pixelX := 0, pixelY := 0, geoX := offsetX, geoY := offsetY + 1000 * scale },
    { pixelX := 1000, pixelY := 0, geoX := offsetX + 1000 * scale, geoY := offsetY + 1000 * scale },
    { pixelX := 1000, pixelY := 1000, geoX := offsetX + 1000 * scale, geoY := offsetY },
    { pixelX := 0, pixelY := 1000, geoX := offsetX, geoY := offsetY }]

def fallbackAnchors (entries : Dict ℚ) : Except Raised (List GCP) := do
  let offsetX ← floatOf conversions entries "origin_x" 500000
  let offsetY ← floatOf conversions entries "origin_y" 3000000
  let scale ← floatOf conversions entries "pixel_scale" 1
  return sheetCorners offsetX offsetY scale

def designMatrix (gcps : List GCP) : Matrix (Fin gcps.length) (Fin 3) ℚ :=
  Matrix.of fun i => ![gcps[i].pixelX, gcps[i].pixelY, 1]

def geoXs (gcps : List GCP) : Fin gcps.length → ℚ := fun i => gcps[i].geoX

def geoYs (gcps : List GCP) : Fin gcps.length → ℚ := fun i => gcps[i].geoY

def AffineTransform.squaredError (m : AffineTransform) (g : GCP) : ℚ :=
  let pred := m.apply g.pixelX g.pixelY
  (pred.1 - g.geoX) ^ 2 + (pred.2 - g.geoY) ^ 2

def AffineTransform.totalError (m : AffineTransform) (gcps : List GCP) : ℚ :=
  (gcps.map m.squaredError).sum

variable (numpy : Numpy)

def fitAffineTransform (gcps : List GCP) (pageId : Value ℚ) :
    Except MapError (AffineTransform × ℚ) :=
  let n := gcps.length
  if n < 3 then
    .error (.insufficientControlPoints
      ("Affine transformation requires at least 3 control points. Provided: ".toList ++
        (toString n).toList ++ ".".toList))
  else
    let rank := numpy.matrixRank (designMatrix gcps)
    if rank < 3 then
      .error (.insufficientControlPoints
        ("Control points for page '".toList ++ pageId.str conversions ++
          "' are collinear or degenerate (matrix rank ".toList ++ (toString rank).toList ++
          " < 3).".toList))
    else
      let coeffX := numpy.lstsq (designMatrix gcps) (geoXs gcps)
      let coeffY := numpy.lstsq (designMatrix gcps) (geoYs gcps)
      let m : AffineTransform :=
        { a := coeffX 0, b := coeffX 1, c := coeffX 2, d := coeffY 0, e := coeffY 1, f := coeffY 2 }
      .ok (m, Rounding.rootTo 4 (m.totalError gcps / n))

def nullPageId : Text := "00000000-0000-0000-0000-000000000000".toList

/-- `map_payload.get("page_id") or map_payload.get("id") or "00000000-…"`. -/
def MapPayload.pageId (payload : MapPayload) : Value ℚ :=
  ((payload.entries.get "page_id".toList).orElse (payload.entries.get "id".toList)).orElse
    (.text nullPageId)

def usedGcps (payload : MapPayload) (allowFallback : Bool) (gcps : List GCP) :
    Except MapError (List GCP) :=
  if gcps.length < 3 then
    if allowFallback then liftM (fallbackAnchors conversions payload.entries)
    else
      .error (.insufficientControlPoints
        ("Georeferencing page '".toList ++ payload.pageId.str conversions ++
          "' requires at least 3 non-collinear Ground Control Points (GCPs). Provided: ".toList ++
          (toString gcps.length).toList ++ ".".toList))
  else .ok gcps

def georeferenceMap (payload : MapPayload) (defaultCrs : Text) (allowFallback : Bool) :
    Except MapError GeoreferenceResult := do
  let pageId := payload.pageId
  let crs := (payload.entries.get "crs".toList).orElse (.text defaultCrs)
  let gcps ← readGcps conversions (← payload.rawGcps.iterate)
  let used ← usedGcps conversions payload allowFallback gcps
  let (transformMatrix, rmse) ← fitAffineTransform conversions numpy used pageId
  return {
    pageId := pageId
    transformMatrix := transformMatrix
    transformType := "affine".toList
    rmse := rmse
    crs := crs
    controlPointsCount := used.length
    gcps := used }

end Georeferencing

end LandRecords.Parcels
