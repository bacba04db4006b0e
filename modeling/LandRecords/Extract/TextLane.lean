import LandRecords.Extract.RecordAssembly
import LandRecords.Extract.Relationships
import LandRecords.Extract.Strikethrough
import LandRecords.Ocr.FieldExtractor
import LandRecords.Outbox.Message

/-! The text lane: a page is read, what is read is related and assembled into a record, and both
are published with the envelope that was pinned for the page. -/
namespace LandRecords.Extract

open Datetime Ocr Outbox

/-! ## Extractions as dictionaries -/

def optionalText : Option Text → Value ℚ
  | some text => .text text
  | none => .none

def boxDict (b : BoundingBox) : Value ℚ :=
  .dict [("x".toList, .number b.x), ("y".toList, .number b.y), ("w".toList, .number b.w),
    ("h".toList, .number b.h)]

def candidateDict (candidate : OCRCandidate) : Value ℚ :=
  .dict [("value".toList, .text candidate.value), ("confidence".toList, .number candidate.confidence)]

/-- The dictionary that `extract_fields_for_doctype` builds under the id that it draws. -/
def extractionItem (id : Text) (extraction : Ocr.Extraction) : Item :=
  [("id".toList, .text id),
    ("page_id".toList, .text extraction.pageId),
    ("field_name".toList, .text extraction.fieldName),
    ("raw_value".toList, .text extraction.rawValue),
    ("canonical_value".toList, optionalText extraction.canonicalValue),
    ("unconstrained_value".toList, optionalText extraction.unconstrainedValue),
    ("bbox".toList, (extraction.bbox.map boxDict).getD .none),
    ("engine".toList, .text extraction.engine),
    ("model_version".toList, .text extraction.modelVersion),
    ("config_version".toList, .text extraction.configVersion),
    ("token_confidence".toList, .number extraction.tokenConfidence),
    ("calibrated_confidence".toList, .none),
    ("novelty_score".toList, .none),
    ("routing_outcome".toList, .none),
    ("entry_status".toList, .text extraction.entryStatus),
    ("attestation_refs".toList, .list []),
    ("top_k".toList, .list (extraction.topK.map candidateDict))]

def extractionItems (ids : ℕ → Text) : List Ocr.Extraction → List Item
  | [] => []
  | extraction :: rest =>
      extractionItem (ids 0) extraction :: extractionItems (fun n => ids (n + 1)) rest

/-! ## The lane -/

/-- A message of the lane. The payload may come without a document id; a missing work envelope is
the empty dictionary. -/
structure LaneMessage where
  payload : PagePayload
  documentId : Option Text := none
  pageStrokes : List PageStroke := []
  workEnvelope : Dict ℚ := []
  traceId : Option Text := none

/-- What the interpreter and the environment supply: the conversions, the format of the numbers and
the tables, the service that reads printed text, and the ids drawn. -/
structure LaneBuiltins extends Conversions ℚ where
  floats : FloatFormat
  tables : WordTables
  decimal : Char → Option ℕ
  int : Text → Except Raised ℤ
  service : Option OCREngine
  extractionIds : ℕ → Text
  bindingIds : ℕ → Text
  assemblyIds : ℕ → Text

def LaneBuiltins.page (builtins : LaneBuiltins) : PageBuiltins where
  toConversions := builtins.toConversions
  floats := builtins.floats
  decimal := builtins.decimal
  uuid4 := builtins.bindingIds

def LaneBuiltins.record (builtins : LaneBuiltins) : Builtins where
  toConversions := builtins.toConversions
  int := builtins.int
  uuid4 := builtins.assemblyIds

/-- The message ids and clock readings of the two envelopes. -/
structure LaneStamps where
  textId : Text
  textTime : Instant
  assemblyId : Text
  assemblyTime : Instant

structure AssemblyPayload where
  recordAssembly : AssemblyContract
  extractions : List Item

/-- What the lane returns. An error is returned with its exception. -/
inductive LaneResult
  | success (extractionsCount relationshipsCount : ℕ)
      (relationships : List OwnerParcelShareBinding)
      (textLaneEnvelope : Envelope (Dict ℚ) (List Item))
      (assemblyEnvelope : Envelope (Dict ℚ) AssemblyPayload)
  | error (raised : Raised)

section Lane

variable (builtins : LaneBuiltins)

def LaneMessage.trace (message : LaneMessage) : Text :=
  orElse message.traceId (message.documentId.getD "doc".toList ++ ':' ::
    message.payload.pageId.getD "page".toList)

def LaneMessage.imaged (message : LaneMessage) : PagePayload :=
  { message.payload with
    imageBytes := some (message.payload.imageBytes.getD (Sha256.encode "fake_image_bytes".toList)) }

def configVersionOf (workEnvelope : Dict ℚ) : Option Text :=
  match workEnvelope.get "config_version".toList with
  | .text version => some version
  | _ => none

def readPage (message : LaneMessage) : List Ocr.Extraction :=
  (processPageTextWithRelationships builtins.tables (fun _ _ => ([] : List Unit)) builtins.service
    message.imaged (configVersionOf message.workEnvelope)
    (some (BaiduUnlimitedOCRAdapter.toEngine
      { endpoint := builtins.service, allowTestFallback := true }))).1

/-- `process_page_text`: the relationships are extracted, and dropped. -/
def processPageText (message : LaneMessage) : Except Raised (List Item) := do
  let extractions := extractionItems builtins.extractionIds (readPage builtins message)
  let _ ← extractRelationships builtins.page (some message.imaged.page) extractions
  return extractions

def laneStatuses : List String := ["unknown", "cancelled", "superseded", "amended"]

def unknownStatus (ext : Item) : Item := Dict.set "entry_status".toList (.text "unknown".toList) ext

def statusOf (pageStrokes : List PageStroke) (ext : Item) : Except Raised Item := do
  let struck ← detectStrikethrough builtins.toConversions (ext.get "bbox".toList) pageStrokes
  let ext := if struck then unknownStatus ext else ext
  let stands := laneStatuses.any fun status =>
    (ext.get "entry_status".toList).same (.text status.toList)
  return if stands then ext else unknownStatus ext

def textLane (message : LaneMessage) (stamps : LaneStamps) : Except Raised LaneResult := do
  let pageId := message.imaged.page
  let extractions ← processPageText builtins message
  let relationships ← extractRelationships builtins.page (some pageId) extractions
  let extractions ← extractions.mapM (statusOf builtins message.pageStrokes)
  let assembled ← assembleMultiPageRecord builtins.record (.flat extractions) none none
    (some ("Assembled extractions for page ".toList ++ pageId)) "system".toList []
  return .success extractions.length relationships.length relationships
    (emit "TEXT_QUEUE".toList "text-lane".toList extractions (some message.workEnvelope)
      message.trace stamps.textId stamps.textTime)
    (emit "ASSEMBLY_QUEUE".toList "assembly".toList ⟨assembled.assemblyContract, extractions⟩
      (some message.workEnvelope) message.trace stamps.assemblyId stamps.assemblyTime)

/-- `handle`: an exception of the lane is returned as an error. -/
def handle (message : LaneMessage) (stamps : LaneStamps) : LaneResult :=
  match textLane builtins message stamps with
  | .ok result => result
  | .error raised => .error raised

end Lane

end LandRecords.Extract
