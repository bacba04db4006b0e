import LandRecords.Parcels.Labels

/-! The map pipeline: a page is georeferenced, its parcels are vectorised, the survey labels are
bound to them, and each valid parcel is returned with its area and whether it is eligible. -/
namespace LandRecords.Parcels

def ulpinRmseThreshold : ℚ := 3 / 2

structure ParcelGeometry where
  id : Text
  pageId : Value ℚ
  polygon : GeoJsonPolygon
  crs : Value ℚ
  areaComputed : Text
  controlPoints : ℕ
  georefRmse : ℚ
  transformType : Text
  ulpinEligible : Bool
  boundSurveyNo : Option Text
  conflationLineageRef : Value ℚ

def MapPayload.labels (payload : MapPayload) : Value ℚ :=
  ((payload.entries.get "labels".toList).orElse
    (payload.entries.get "survey_labels".toList)).orElse (.list [])

section Pipeline

variable (builtins : MapBuiltins) (payload : MapPayload) (georef : GeoreferenceResult)

def parcelGeometry (draw : ℕ) (item : BoundParcel) (polygon : GeoJsonPolygon) :
    Except Raised ParcelGeometry := do
  let area ← computeArea builtins polygon georef.crs
  return {
    id := builtins.uuid4 draw
    pageId := payload.pageId
    polygon := polygon
    crs := georef.crs
    areaComputed := area
    controlPoints := georef.controlPointsCount
    georefRmse := georef.rmse
    transformType := georef.transformType
    ulpinEligible := decide (georef.rmse ≤ ulpinRmseThreshold)
    boundSurveyNo := item.boundSurveyNo
    conflationLineageRef := payload.entries.get "conflation_lineage_ref".toList }

def parcelGeometries (draw : ℕ) : List BoundParcel → Except Raised (List ParcelGeometry)
  | [] => .ok []
  | item :: rest =>
      match item.drawn with
      | (some polygon, true) => do
          let geometry ← parcelGeometry builtins payload georef draw item polygon
          return geometry :: (← parcelGeometries (draw + 1) rest)
      | _ => parcelGeometries draw rest

end Pipeline

def processMapPage (builtins : MapBuiltins) (payload : MapPayload) :
    Except MapError (List ParcelGeometry) := do
  let georef ← georeferenceMap builtins.toConversions builtins.numpy payload defaultCrs true
  let parcels ← vectorizeParcels builtins payload (some georef)
  if parcels = [] then return []
  let boundParcels ← bindSurveyLabels builtins parcels payload.labels (some georef) 50
  parcelGeometries builtins payload georef 0 boundParcels

end LandRecords.Parcels
