import LandRecords.Audit.Chain
import LandRecords.Base.Fallible
import LandRecords.Base.OrderBy
import LandRecords.Base.Payload
import LandRecords.Review.Routes

/-! What a reader is shown of a record and of where a field comes from. Both routes pass
every value of a field through one policy, which masks all of them or none. -/
namespace LandRecords.Masking

open Audit (isTruthy)
open Datetime
open Review (cropUrl cropUrlTtlSeconds)

section Policy

def maskToken : Text := "•••".toList

def rolesThatSeePersonalDataUnmasked : List Text := ["auditor_unmasked_read".toList]

def personalDataFieldClasses : List Text :=
  ["owner_name".toList, "relationship".toList, "address".toList]

structure MaskedTriple where
  value : Option Text
  rawValue : Option Text
  cropUri : Option Text
  masked : Bool

def isPersonalData (fieldClass : Text) : Bool := fieldClass ∈ personalDataFieldClasses

/-- `landmasking.apply`. -/
def apply (value rawValue cropUri : Option Text) (fieldClass role : Text) : MaskedTriple :=
  if !isPersonalData fieldClass || role ∈ rolesThatSeePersonalDataUnmasked then
    ⟨value, rawValue, cropUri, false⟩
  else ⟨value.map fun _ => maskToken, rawValue.map fun _ => maskToken, none, true⟩

end Policy

section Rows

structure Page where
  id : Text
  documentId : Text
  storageUri : Option Text

/-- An extraction. A JSON column is a value, and a stored float the number it stands for. -/
structure Extraction (ν : Type) where
  id : Text
  pageId : Text
  fieldName : Text
  rawValue : Text
  canonicalValue : Option Text
  bbox : Value ν
  engine : Option Text
  modelVersion : Option Text
  configVersion : Option Text
  tokenConfidence : Option ℚ
  calibratedConfidence : Option ℚ
  entryStatus : Text

structure Record where
  recordGroupId : Text
  version : ℤ
  status : Option Text

structure RecordAssembly where
  recordId : Text
  extractionIds : List Text

structure Correction where
  extractionId : Text
  predicted : Option Text
  corrected : Option Text
  editDistance : Option ℤ
  actor : Text
  createdAt : Instant

structure FieldProvenance (ν : Type) where
  extractionId : Text
  documentId : Text
  pageSplitTransform : Value ν
  deskewTransform : Value ν

structure Database (ν : Type) where
  pages : List Page := []
  extractions : List (Extraction ν) := []
  records : List Record := []
  assemblies : List RecordAssembly := []
  corrections : List Correction := []
  provenances : List (FieldProvenance ν) := []

variable {ν : Type}

/-- `session.get(Extraction, id)`. -/
def Database.extraction? (db : Database ν) (id : Text) : Option (Extraction ν) :=
  db.extractions.find? fun row => row.id = id

def Database.page? (db : Database ν) (id : Text) : Option Page :=
  db.pages.find? fun row => row.id = id

end Rows

inductive RouteError
  | noSuchRecord
  | extractionNotFound (id : Text)
  | raised (error : Raised)
deriving DecidableEq

/-- A call of `sign_get`, with the extraction whose crop it is for. -/
structure SignedCrop where
  extractionId : Text
  key : Text
deriving DecidableEq

abbrev Signing := Fallible (List SignedCrop) RouteError

section RecordView

variable {ν : Type}

/-- `to_contract_dict` with the page's URI, by the entries that are read. -/
structure ContractDict (ν : Type) where
  id : Text
  pageId : Text
  fieldName : Text
  rawValue : Option Text
  canonicalValue : Option Text
  bbox : Value ν
  entryStatus : Text
  pageStorageUri : Option Text

structure MaskedExtractionView where
  id : Text
  pageId : Text
  fieldName : Text
  value : Option Text
  rawValue : Option Text
  cropUri : Option Text
  entryStatus : Text
  masked : Bool
deriving DecidableEq

structure MaskedRecordView where
  recordId : Text
  version : ℤ
  status : Option Text
  fields : List MaskedExtractionView
deriving DecidableEq

/-- `value is not None`. -/
def isNotNone : Value ν → Bool
  | .none => false
  | _ => true

def Extraction.toContractDict (extraction : Extraction ν) (page : Option Page) : ContractDict ν where
  id := extraction.id
  pageId := extraction.pageId
  fieldName := extraction.fieldName
  rawValue := some extraction.rawValue
  canonicalValue := extraction.canonicalValue
  bbox := extraction.bbox
  entryStatus := extraction.entryStatus
  pageStorageUri := page.bind Page.storageUri

variable (signGet : Text → ℕ → Except Raised Text) (repr : Value ν → Text)

/-- `get_store().sign_get(key, ttl)`. -/
def signCrop (extractionId key : Text) : Signing Text := fun signed =>
  match signGet key cropUrlTtlSeconds with
  | .ok url => (.returned url, signed ++ [⟨extractionId, key⟩])
  | .error error => (.raised (.raised error), signed ++ [⟨extractionId, key⟩])

def maskExtractionForRole (role : Text) (extraction : ContractDict ν) :
    Signing MaskedExtractionView := do
  let fieldClass := extraction.fieldName
  let wouldBeMasked := isPersonalData fieldClass && decide (role ∉ rolesThatSeePersonalDataUnmasked)
  let cropUri ←
    if !wouldBeMasked && isNotNone extraction.bbox && isTruthy extraction.pageStorageUri then do
      let signed ← signCrop signGet extraction.id (Text.orEmpty extraction.pageStorageUri)
      pure (some (cropUrl signed (repr extraction.bbox)))
    else pure none
  let masked := apply extraction.canonicalValue extraction.rawValue cropUri fieldClass role
  return ⟨extraction.id, extraction.pageId, extraction.fieldName, masked.value, masked.rawValue,
    masked.cropUri, extraction.entryStatus, masked.masked⟩

def maskExtractions (role : Text) : List (ContractDict ν) → Signing (List MaskedExtractionView)
  | [] => return []
  | extraction :: rest => do
      let view ← maskExtractionForRole signGet repr role extraction
      let views ← maskExtractions role rest
      return view :: views

def buildMaskedRecordView (recordId : Text) (version : ℤ) (status : Option Text)
    (extractions : List (ContractDict ν)) (role : Text) : Signing MaskedRecordView := do
  let fields ← maskExtractions signGet repr role extractions
  return ⟨recordId, version, status, fields⟩

def selectRecord (db : Database ν) (recordGroupId : Text) (version : Option ℤ) : Option Record :=
  let ofGroup := db.records.filter fun row => row.recordGroupId = recordGroupId
  match version with
  | some version => ofGroup.find? fun row => row.version = version
  | none => latest Record.version ofGroup

def recordExtractions (db : Database ν) (recordGroupId : Text) : List (ContractDict ν) :=
  let assembly := db.assemblies.find? fun row => row.recordId = recordGroupId
  let extractionIds := (assembly.map RecordAssembly.extractionIds).getD []
  extractionIds.filterMap fun id => (db.extraction? id).map fun extraction =>
    extraction.toContractDict (db.page? extraction.pageId)

def getRecord (db : Database ν) (role recordGroupId : Text) (version : Option ℤ) :
    Signing MaskedRecordView :=
  match selectRecord db recordGroupId version with
  | none => Fallible.raise .noSuchRecord
  | some record => buildMaskedRecordView signGet repr record.recordGroupId record.version
      record.status (recordExtractions db recordGroupId) role

end RecordView

section Provenance

variable {ν : Type}

structure Arithmetic (ν : Type) where
  add : ν → ν → Except Raised ν
  sub : ν → ν → Except Raised ν
  mul : ν → ν → Except Raised ν
  /-- `n / 2`. -/
  halve : ν → Except Raised ν
  radians : ν → Except Raised ν
  cos : ν → Except Raised ν
  sin : ν → Except Raised ν
  lt : ν → ν → Bool

/-- `value["key"]`. -/
def item (value : Value ν) (key : Text) : Except Raised (Value ν) :=
  match value with
  | .dict entries => Dict.item entries key
  | _ => .error .typeError

def number : Value ν → Except Raised ν
  | .number n => .ok n
  | _ => .error .typeError

/-- `tuple(value)`. -/
def tuple : Value ν → Except Raised (List (Value ν))
  | .list items => .ok items
  | .text text => .ok (text.map fun c => .text [c])
  | .dict entries => .ok (entries.map fun entry => .text entry.1)
  | .none | .number _ => .error .typeError

/-- `a + b`. -/
def plus (arithmetic : Arithmetic ν) : Value ν → Value ν → Except Raised (Value ν)
  | .number m, .number n => (arithmetic.add m n).map .number
  | .text s, .text t => .ok (.text (s ++ t))
  | .list xs, .list ys => .ok (.list (xs ++ ys))
  | _, _ => .error .typeError

structure AffineTransform (ν : Type) where
  angleDegrees : Value ν
  originalSize : List (Value ν)
  processedSize : List (Value ν)

/-- `first, second = values`. -/
def unpackPair (values : List (Value ν)) : Except Raised (Value ν × Value ν) :=
  match values with
  | [first, second] => .ok (first, second)
  | _ => .error (.valueError "unpack".toList)

def mapPointToOriginal (arithmetic : Arithmetic ν) (transform : AffineTransform ν)
    (x y : Value ν) : Except Raised (ν × ν) := do
  let (ow, oh) ← unpackPair transform.originalSize
  let (pw, ph) ← unpackPair transform.processedSize
  let theta ← arithmetic.radians (← number transform.angleDegrees)
  let cxP ← arithmetic.halve (← number pw)
  let cyP ← arithmetic.halve (← number ph)
  let cxO ← arithmetic.halve (← number ow)
  let cyO ← arithmetic.halve (← number oh)
  let dx ← arithmetic.sub (← number x) cxP
  let dy ← arithmetic.sub (← number y) cyP
  let rx ← arithmetic.sub (← arithmetic.mul dx (← arithmetic.cos theta))
    (← arithmetic.mul dy (← arithmetic.sin theta))
  let ry ← arithmetic.add (← arithmetic.mul dx (← arithmetic.sin theta))
    (← arithmetic.mul dy (← arithmetic.cos theta))
  return (← arithmetic.add rx cxO, ← arithmetic.add ry cyO)

/-- `min(first, *rest)`. -/
def least (arithmetic : Arithmetic ν) (first : ν) (rest : List ν) : ν :=
  rest.foldl (fun least n => if arithmetic.lt n least then n else least) first

/-- `max(first, *rest)`. -/
def greatest (arithmetic : Arithmetic ν) (first : ν) (rest : List ν) : ν :=
  rest.foldl (fun greatest n => if arithmetic.lt greatest n then n else greatest) first

structure Bbox (ν : Type) where
  x : ν
  y : ν
  w : ν
  h : ν

structure EditHistoryEntry where
  actor : Text
  predicted : Option Text
  corrected : Option Text
  editDistance : Option ℤ
  at_ : Text

structure ResolvedProvenance (ν : Type) where
  extractionId : Text
  documentId : Option Text
  pageId : Text
  fieldName : Text
  bbox : Value ν
  engine : Option Text
  modelVersion : Option Text
  configVersion : Option Text
  rawValue : Option Text
  confidence : Option ℚ
  pageSplitTransform : Value ν
  deskewTransform : Value ν
  editHistory : List EditHistoryEntry

/-- `a or b` of optional floats. -/
def orFloat (a b : Option ℚ) : Option ℚ := if a.any fun n => decide (n ≠ 0) then a else b

def EditHistoryEntry.ofCorrection (zone : Zone) (correction : Correction) : EditHistoryEntry where
  actor := correction.actor
  predicted := correction.predicted
  corrected := correction.corrected
  editDistance := correction.editDistance
  at_ := isoformat zone correction.createdAt

def resolveProvenance (zone : Zone) (db : Database ν) (extractionId : Text) :
    Except RouteError (ResolvedProvenance ν) :=
  match db.extraction? extractionId with
  | none => .error (.extractionNotFound extractionId)
  | some extraction =>
      let page := db.page? extraction.pageId
      let provenance := db.provenances.find? fun row => row.extractionId = extractionId
      let corrections := orderBy Correction.createdAt
        (db.corrections.filter fun row => row.extractionId = extractionId)
      .ok
        { extractionId := extraction.id
          documentId := (provenance.map FieldProvenance.documentId).or (page.map Page.documentId)
          pageId := extraction.pageId
          fieldName := extraction.fieldName
          bbox := extraction.bbox
          engine := extraction.engine
          modelVersion := extraction.modelVersion
          configVersion := extraction.configVersion
          rawValue := some extraction.rawValue
          confidence := orFloat extraction.calibratedConfidence extraction.tokenConfidence
          pageSplitTransform := (provenance.map FieldProvenance.pageSplitTransform).getD .none
          deskewTransform := (provenance.map FieldProvenance.deskewTransform).getD .none
          editHistory := corrections.map (EditHistoryEntry.ofCorrection zone) }

def originalBboxFor (arithmetic : Arithmetic ν) (bbox deskewTransform : Value ν) :
    Except Raised (Option (Bbox ν)) :=
  if !isNotNone bbox || !isNotNone deskewTransform then .ok none
  else do
    let transform : AffineTransform ν :=
      { angleDegrees := ← item deskewTransform "angle_degrees".toList
        originalSize := ← tuple (← item deskewTransform "original_size".toList)
        processedSize := ← tuple (← item deskewTransform "processed_size".toList) }
    let x ← item bbox "x".toList
    let y ← item bbox "y".toList
    let w ← item bbox "w".toList
    let h ← item bbox "h".toList
    let right ← plus arithmetic x w
    let below ← plus arithmetic y h
    let (x₁, y₁) ← mapPointToOriginal arithmetic transform x y
    let (x₂, y₂) ← mapPointToOriginal arithmetic transform right y
    let (x₃, y₃) ← mapPointToOriginal arithmetic transform x below
    let (x₄, y₄) ← mapPointToOriginal arithmetic transform right below
    let left := least arithmetic x₁ [x₂, x₃, x₄]
    let top := least arithmetic y₁ [y₂, y₃, y₄]
    let width ← arithmetic.sub (greatest arithmetic x₁ [x₂, x₃, x₄]) left
    let height ← arithmetic.sub (greatest arithmetic y₁ [y₂, y₃, y₄]) top
    return some ⟨left, top, width, height⟩

structure MaskedEditHistoryEntry where
  actor : Text
  predicted : Option Text
  corrected : Option Text
  at_ : Text
  masked : Bool

def maskEditHistoryEntry (entry : EditHistoryEntry) (fieldClass role : Text) :
    MaskedEditHistoryEntry :=
  let masked := apply none entry.predicted none fieldClass role
  let maskedCorrected := apply none entry.corrected none fieldClass role
  ⟨entry.actor, masked.rawValue, maskedCorrected.rawValue, entry.at_, masked.masked⟩

structure ProvenanceResponse (ν : Type) where
  extractionId : Text
  documentId : Option Text
  pageId : Text
  bbox : Value ν
  originalBbox : Option (Bbox ν)
  engine : Option Text
  modelVersion : Option Text
  configVersion : Option Text
  confidence : Option ℚ
  pageSplitTransform : Value ν
  deskewTransform : Value ν
  editHistory : List MaskedEditHistoryEntry

def getProvenance (arithmetic : Arithmetic ν) (zone : Zone) (db : Database ν)
    (role extractionId : Text) : Except RouteError (ProvenanceResponse ν) :=
  match resolveProvenance zone db extractionId with
  | .error error => .error error
  | .ok resolved =>
      match originalBboxFor arithmetic resolved.bbox resolved.deskewTransform with
      | .error error => .error (.raised error)
      | .ok originalBbox => .ok
          { extractionId := resolved.extractionId
            documentId := resolved.documentId
            pageId := resolved.pageId
            bbox := resolved.bbox
            originalBbox := originalBbox
            engine := resolved.engine
            modelVersion := resolved.modelVersion
            configVersion := resolved.configVersion
            confidence := resolved.confidence
            pageSplitTransform := resolved.pageSplitTransform
            deskewTransform := resolved.deskewTransform
            editHistory := resolved.editHistory.map fun entry =>
              maskEditHistoryEntry entry resolved.fieldName role }

end Provenance

end LandRecords.Masking
