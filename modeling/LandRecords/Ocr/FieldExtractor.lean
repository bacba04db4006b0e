import LandRecords.Ocr.Normalization
import LandRecords.Ocr.RegionRouter

/-! From the tokens of a page to extractions: the field that a text line is classified as, the
extraction of each token, and the run over all regions of a page. -/
namespace LandRecords.Ocr

open Pattern

/-! ## Classification -/

/-- The character tables, with the characters of which words consist. -/
structure WordTables extends CharacterTables where
  isWord : Char → Bool

def exact (letters : String) : Pattern := word (· == ·) letters.toList

def phrase (first : String) (between : Pattern) (second : String) : Pattern :=
  seq (exact first) (seq between (exact second))

def mutationWords : Pattern :=
  oneOf [exact "mutation", exact "intakal", phrase "dakhil" spaces "kharij",
    phrase "order" spaces "ref"]

def dateWords : Pattern := oneOf [exact "date", exact "dated", phrase "scanning" spaces "date"]

def relationshipWords : Pattern :=
  oneOf [exact "s/o", exact "w/o", exact "d/o", exact "c/o", phrase "son" (some1 isSpace) "of",
    phrase "wife" (some1 isSpace) "of", phrase "daughter" (some1 isSpace) "of",
    phrase "care" (some1 isSpace) "of", exact "late"]

def surveyWords : Pattern := oneOf (["khasra", "survey", "plot", "gata"].map exact)

def khataWords : Pattern := oneOf (["khatauni", "khata", "account", "khewat"].map exact)

def areaWords : Pattern :=
  oneOf (["area", "hectare", "ha", "acre", "bigha", "biswa"].map exact ++
    [phrase "sq" spaces "m", phrase "square" spaces "meter"])

def classificationWords : Pattern :=
  oneOf (exact "classification" :: phrase "land" spaces "type" ::
    ["chahi", "barani", "irrigated", "unirrigated", "abadi", "agricultural"].map exact)

def shareWords : Pattern := oneOf (["share", "hissa", "fraction"].map exact)

def ownerWords : Pattern :=
  oneOf (["owner", "khatedar", "pattadar", "landowner", "nam", "name", "shri", "smt"].map exact)

section Classification

variable (tables : WordTables)

def atBoundary (before after : Option Char) : Bool :=
  before.any tables.isWord != after.any tables.isWord

def boundedAt (p : Pattern) (before : Option Char) (text : Text) : Bool :=
  atBoundary tables before text.head? &&
    (p.run text fun rest _ =>
      let taken := text.take (text.length - rest.length)
      if atBoundary tables (taken.getLast?.or before) rest.head? then some () else none).isSome

/-- `re.search(r"\b(?:p)\b", text)`, behind the character before the text. -/
def searchBounded (p : Pattern) (before : Option Char) : Text → Bool
  | [] => boundedAt tables p before []
  | c :: text => boundedAt tables p before (c :: text) || searchBounded p (some c) text

def matchesWhole (p : Pattern) (text : Text) : Bool :=
  (p.run text fun rest _ => if rest = [] ∨ rest = ['\n'] then some () else none).isSome

def classifyFieldName (text : Text) (docType : Option Text) : Text :=
  let lower := strip (tables.lower text)
  let found (p : Pattern) := searchBounded tables p none lower
  let number := some1 tables.isDecimal
  if found mutationWords then "mutation_reference".toList
  else if found dateWords || found (datePattern tables.toCharacterTables 2 2 4) then
    "date".toList
  else if found relationshipWords then "relationship".toList
  else if found surveyWords then "survey_number".toList
  else if found khataWords then "khata_number".toList
  else if found areaWords then "area".toList
  else if found classificationWords then "land_classification".toList
  else if found shareWords then "share_fraction".toList
  else if found ownerWords then "owner_name".toList
  else
    let fraction := matchesWhole (seq number (seq (char (· == '/')) number)) lower
    if fraction && (docType = some "ror".toList || docType = some "khasra_khatauni".toList) then
      "survey_number".toList
    else if fraction && docType = some "jamabandi".toList then "share_fraction".toList
    else if matchesWhole number lower && docType = some "jamabandi".toList then
      "khata_number".toList
    else "text_line".toList

end Classification

/-! ## Extractions -/

structure Extraction where
  pageId : Text
  fieldName : Text
  rawValue : Text
  canonicalValue : Option Text
  unconstrainedValue : Option Text
  bbox : Option BoundingBox
  engine : Text
  modelVersion : Text
  configVersion : Text
  tokenConfidence : ℚ
  entryStatus : Text := "unknown".toList
  topK : List OCRCandidate
deriving DecidableEq

def getUnconstrainedValue (rawValue : Text) : Option Text :=
  if rawValue = [] then none else some (strip rawValue)

section Extraction

variable (tables : WordTables)

def extractToken (result : OCRResult) (pageId : Text) (docType : Option Text) (token : OCRToken) :
    Option Extraction :=
  if strip token.text = [] then none
  else
    let fieldName := classifyFieldName tables token.text docType
    some
      { pageId := orElse (some pageId) result.pageId
        fieldName := fieldName
        rawValue := token.text
        canonicalValue := normalizeFieldCanonical tables.toCharacterTables fieldName token.text
        unconstrainedValue := getUnconstrainedValue token.text
        bbox := token.bbox
        engine := result.engineId
        modelVersion := result.modelVersion
        configVersion := result.configVersion
        tokenConfidence := token.confidence
        topK := token.topK }

def extractFieldsForDoctype (result : OCRResult) (pageId : Text) (docType : Option Text) :
    List Extraction :=
  result.tokens.filterMap (extractToken tables result pageId docType)

/-! ## The run over a page -/

def pageEngines (adapter : OCREngine) : EngineMap where
  printedText := some adapter
  handwrittenText := some (HWRAdapter.toEngine {})

/-- The extractions of a page and what is related in them. The relationships are found by a
function of the extractions. -/
def processPageTextWithRelationships {ρ : Type}
    (extractRelationships : List Extraction → Text → List ρ) (service : Option OCREngine)
    (payload : PagePayload) (configVersion : Option Text) (ocrAdapter : Option OCREngine) :
    List Extraction × List ρ :=
  if payload.imageBytes.getD [] = [] then ([], [])
  else
    let adapter := ocrAdapter.getD
      (BaiduUnlimitedOCRAdapter.toEngine { endpoint := service, allowTestFallback := true })
    match dispatchAndExtract service (pageEngines adapter) payload (routePage tables.lower payload)
        (orElse configVersion "v1".toList) with
    | .error _ => ([], [])
    | .ok results =>
        let extractions := results.flatMap fun result =>
          if result.tokens = [] then []
          else extractFieldsForDoctype tables result payload.page payload.docType
        if extractions = [] then ([], [])
        else (extractions, extractRelationships extractions payload.page)

end Extraction

end LandRecords.Ocr
