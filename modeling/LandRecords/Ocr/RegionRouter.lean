import LandRecords.Ocr.TableExtractor
import LandRecords.Base.Payload
import LandRecords.Base.Sha256

/-! Regions of a page: the route of each from the layout or from hints on the page, the engines
behind the routes, and the dispatch of every region to the engine of its route. -/
namespace LandRecords.Ocr

inductive LogicalRoute where
  | printedText
  | handwrittenText
  | ruledTable
  | nonTextMap
deriving DecidableEq

structure LogicalRegion where
  regionId : Text
  route : LogicalRoute
  bbox : BoundingBox
  confidence : ℚ := 1
  metadata : Dict ℚ := []

structure PageRoutingPlan where
  pageId : Text
  regions : List LogicalRegion
  fallbackApplied : Bool := false
  dominantRoute : LogicalRoute := .printedText

/-! ## Page payloads -/

structure RawBox where
  x : Option ℚ := none
  y : Option ℚ := none
  w : Option ℚ := none
  h : Option ℚ := none

structure LayoutRegion where
  id : Option Text := none
  regionType : Option Text := none
  type : Option Text := none
  route : Option Text := none
  isHandwritten : Bool := false
  isTable : Bool := false
  isMap : Bool := false
  bbox : Option RawBox := none
  confidence : Option ℚ := none
  metadata : Option (Dict ℚ) := none

structure PagePayload where
  pageId : Option Text := none
  id : Option Text := none
  layoutRegions : Option (List LayoutRegion) := none
  regions : Option (List LayoutRegion) := none
  docType : Option Text := none
  pageRole : Option Text := none
  imageBytes : Option (List UInt8) := none

/-- `a or b`, where the empty list counts as missing. -/
def orElse {α : Type} (a : Option (List α)) (b : List α) : List α :=
  if a.getD [] = [] then b else a.getD []

def PagePayload.page (payload : PagePayload) : Text :=
  orElse payload.pageId (orElse payload.id "00000000-0000-0000-0000-000000000000".toList)

def PagePayload.explicitRegions (payload : PagePayload) : List LayoutRegion :=
  orElse payload.layoutRegions (orElse payload.regions [])

def PagePayload.image (payload : PagePayload) : List UInt8 :=
  orElse payload.imageBytes (Sha256.encode "fake_image_bytes".toList)

/-- The box that stands for the full page. -/
def pageBox : BoundingBox := ⟨0, 0, 1000, 1000⟩

def RawBox.toBox (raw : RawBox) : BoundingBox :=
  ⟨raw.x.getD 0, raw.y.getD 0, raw.w.getD 1000, raw.h.getD 1000⟩

/-! ## Routes -/

def mapTypes : List Text :=
  ["map", "cadastral_map", "fmb_sketch", "non_text", "diagram", "seal"].map String.toList

def tableTypes : List Text :=
  ["table", "ruled_table", "tabular_register", "grid"].map String.toList

def handwrittenTypes : List Text :=
  ["handwritten", "hwr", "endorsement", "signature"].map String.toList

section Routing

-- the lower case of a text
variable (lower : Text → Text)

def LayoutRegion.typeName (reg : LayoutRegion) : Text :=
  lower (orElse reg.regionType (orElse reg.type (orElse reg.route [])))

def LayoutRegion.logicalRoute (reg : LayoutRegion) : LogicalRoute :=
  if reg.isMap || reg.typeName lower ∈ mapTypes then .nonTextMap
  else if reg.isTable || reg.typeName lower ∈ tableTypes then .ruledTable
  else if reg.isHandwritten || reg.typeName lower ∈ handwrittenTypes then .handwrittenText
  else .printedText

def LayoutRegion.toLogical (pageId : Text) (idx : ℕ) (reg : LayoutRegion) : LogicalRegion where
  regionId := orElse reg.id (pageId ++ "_region_".toList ++ (toString (idx + 1)).toList)
  route := reg.logicalRoute lower
  bbox := (reg.bbox.getD {}).toBox
  confidence := reg.confidence.getD 1
  metadata := orElse reg.metadata []

def routeCount (regions : List LogicalRegion) (route : LogicalRoute) : ℕ :=
  regions.countP (·.route = route)

/-- `_compute_dominant_route`: the most frequent route, the first met of several. -/
def computeDominantRoute (regions : List LogicalRegion) : LogicalRoute :=
  let routes := (regions.map LogicalRegion.route).eraseDups
  (orderBy (fun route => -(routeCount regions route : ℤ)) routes).head?.getD .printedText

def optionalText : Option Text → Value ℚ
  | none => .none
  | some t => .text t

def singleRegion (pageId : Text) (suffix : String) (route : LogicalRoute) (confidence : ℚ)
    (metadata : Dict ℚ) : PageRoutingPlan where
  pageId := pageId
  regions := [⟨pageId ++ suffix.toList, route, pageBox, confidence, metadata⟩]
  dominantRoute := route

def routePage (payload : PagePayload) : PageRoutingPlan :=
  let pageId := payload.page
  if payload.explicitRegions ≠ [] then
    let regions := payload.explicitRegions.mapIdx (LayoutRegion.toLogical lower pageId)
    { pageId := pageId, regions := regions, dominantRoute := computeDominantRoute regions }
  else
    let hints : Dict ℚ := [("doc_type".toList, optionalText payload.docType),
      ("page_role".toList, optionalText payload.pageRole)]
    if payload.docType = some "cadastral_map".toList ∨
        payload.docType = some "fmb_sketch".toList ∨ payload.pageRole = some "map_sheet".toList then
      singleRegion pageId "_map_full" .nonTextMap (95 / 100) hints
    else if payload.pageRole = some "tabular_register".toList then
      singleRegion pageId "_table_full" .ruledTable (9 / 10) hints
    else if payload.pageRole = some "endorsement".toList then
      singleRegion pageId "_endorsement_hwr" .handwrittenText (85 / 100)
        [("page_role".toList, optionalText payload.pageRole)]
    else
      { singleRegion pageId "_printed_fallback" .printedText 1
          [("fallback".toList, .number 1)] with
        fallbackApplied := true }

end Routing

/-! ## Engines -/

inductive OCRError where
  | configuration (message : Text)
  | processing (message : Text)
  | responseParse (message : Text)
  | hwrNotImplemented (message : Text)
  /-- Any other exception of an engine. -/
  | unexpected (message : Text)
deriving DecidableEq

/-- An engine reads an image for a page under a configuration. -/
structure OCREngine where
  processImage : (imageBytes : List UInt8) → (pageId configVersion : Text) →
    Except OCRError OCRResult

structure HWRAdapter where
  writerClusterId : Option Text := none
  modelVersion : Text := "hwr-placeholder-v1".toList
  raiseOnUnsupported : Bool := false

def unsupportedText : Text := "[UNSUPPORTED_HWR_REGION]".toList

namespace HWRAdapter

def unsupportedToken (regionBbox : Option BoundingBox) : OCRToken where
  text := unsupportedText
  confidence := 0
  bbox := some (regionBbox.getD pageBox)
  topK := [⟨unsupportedText, 0⟩]

def processRegion (adapter : HWRAdapter) (_imageBytes : List UInt8) (pageId : Text)
    (regionBbox : Option BoundingBox) (writerClusterId : Option Text) (configVersion : Text) :
    Except OCRError OCRResult :=
  if adapter.raiseOnUnsupported then
    let cluster := orElse writerClusterId (orElse adapter.writerClusterId "default".toList)
    .error (.hwrNotImplemented
      ("Production HWR engine is not configured/implemented for writer cluster '".toList ++
        cluster ++ "'. Per-writer model integration required.".toList))
  else
    .ok
      { pageId := pageId
        tokens := [unsupportedToken regionBbox]
        fullText := unsupportedText
        engineId := "hwr".toList
        modelVersion := adapter.modelVersion
        configVersion := configVersion }

/-- `process_image`: the region is the full page. -/
def toEngine (adapter : HWRAdapter) : OCREngine where
  processImage image pageId config :=
    adapter.processRegion image pageId (some pageBox) none config

end HWRAdapter

structure BaiduUnlimitedOCRAdapter where
  /-- The configured service, if there is one. -/
  endpoint : Option OCREngine := none
  modelVersion : Text := "baidu-unlimited-v1".toList
  allowTestFallback : Bool := false

namespace BaiduUnlimitedOCRAdapter

/-- `_fallback_mock_extract`. -/
def mockResult (adapter : BaiduUnlimitedOCRAdapter) (pageId configVersion : Text) : OCRResult :=
  let sample := "Sample Land Record".toList
  { pageId := pageId
    tokens := [⟨sample, 99 / 100, some ⟨10, 10, 100, 20⟩, [⟨sample, 99 / 100⟩]⟩]
    fullText := sample
    engineId := "printed_ocr".toList
    modelVersion := adapter.modelVersion
    configVersion := configVersion }

def toEngine (adapter : BaiduUnlimitedOCRAdapter) : OCREngine where
  processImage image pageId config :=
    if image = [] then .error (.processing "Image payload is empty".toList)
    else
      match adapter.endpoint with
      | some service => service.processImage image pageId config
      | none =>
          if adapter.allowTestFallback then .ok (adapter.mockResult pageId config)
          else .error (.configuration
            "Baidu Unlimited-OCR endpoint is not configured (BAIDU_OCR_ENDPOINT missing)".toList)

end BaiduUnlimitedOCRAdapter

/-- `extract_table_cells` without a reading: two sample tokens are put into cells. Their boxes are
whole numbers, and nothing is rounded. -/
def extractTableCells (pageId configVersion : Text) : OCRResult :=
  let survey := "Survey 45/1".toList
  let share := "Share 1/2".toList
  let table := extractTable .rational 8
    [⟨survey, 96 / 100, some ⟨50, 100, 100, 30⟩, [⟨survey, 96 / 100⟩]⟩,
      ⟨share, 94 / 100, some ⟨160, 100, 80, 30⟩, [⟨share, 94 / 100⟩]⟩] none none none []
  table.toOcrResult pageId "table_extractor".toList "table-v1".toList configVersion

/-! ## Dispatch -/

structure EngineMap where
  printedText : Option OCREngine := none
  handwrittenText : Option OCREngine := none
  ruledTable : Option OCREngine := none

section Dispatch

-- the service that the environment configures for printed text
variable (service : Option OCREngine) (engineMap : EngineMap)

def printedEngine : OCREngine :=
  engineMap.printedText.getD
    (BaiduUnlimitedOCRAdapter.toEngine { endpoint := service, allowTestFallback := true })

def mapResult (pageId configVersion : Text) : OCRResult where
  pageId := pageId
  tokens := []
  fullText := []
  engineId := "map_bypassed".toList
  modelVersion := "non-text-v1".toList
  configVersion := configVersion

def dispatchRegion (image : List UInt8) (pageId configVersion : Text) (region : LogicalRegion) :
    Except OCRError OCRResult :=
  match region.route with
  | .nonTextMap => .ok (mapResult pageId configVersion)
  | .ruledTable =>
      match engineMap.ruledTable, engineMap.printedText with
      | some adapter, _ => adapter.processImage image pageId configVersion
      | none, some engine => engine.processImage image pageId configVersion
      | none, none => .ok (extractTableCells pageId configVersion)
  | .handwrittenText =>
      (engineMap.handwrittenText.getD (HWRAdapter.toEngine {})).processImage image pageId
        configVersion
  | .printedText => (printedEngine service engineMap).processImage image pageId configVersion

def dispatchAndExtract (payload : PagePayload) (plan : PageRoutingPlan) (configVersion : Text) :
    Except OCRError (List OCRResult) :=
  plan.regions.mapM (dispatchRegion service engineMap payload.image plan.pageId configVersion)

end Dispatch

end LandRecords.Ocr
