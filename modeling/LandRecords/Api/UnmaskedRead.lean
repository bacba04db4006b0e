import LandRecords.Api.Conflicts
import LandRecords.Masking.Views
import LandRecords.Ocr.Normalization

/-! The unmasked read of a field: a purpose is demanded, and the read is logged in the
transaction in which the value is handed out. -/
namespace LandRecords.Api

open Backend Audit Text
open Review (cropUrl cropUrlTtlSeconds)

structure UnmaskedField where
  extractionId : Text
  fieldName : Text
  value : Option Text
  rawValue : Option Text
  cropUrl : Option Text
deriving DecidableEq

/-- The keyword arguments of `read_unmasked_field`. -/
structure UnmaskedReadArgs where
  extractionId : Text
  purpose : Text
  recordId : Text
  version : Int

def unmaskedReadRole : Text := "auditor_unmasked_read".toList

/-- `f"{record_id}:{version}:{field_name}"`. -/
def fieldIdentity (recordId : Text) (version : Int) (fieldName : Text) : Text :=
  recordId ++ ':' :: intText version ++ ':' :: fieldName

/-- The arguments that `record_unmasked_read` appends with. -/
def recordUnmaskedRead (actor recordId : Text) (version : Int) (fieldName purpose : Text)
    (district : Option Text) : AppendArgs where
  actor := actor
  action := "field.unmasked_read".toList
  subject := some (fieldIdentity recordId version fieldName)
  purpose := some purpose
  shardKey := if isTruthy district then some (shardKeyFor district none) else none

section Read

variable (signGet : Text → ℕ → Text) (db : Backend.Database) (extraction : Extraction)

def extractionPage : Option Page := db.page? extraction.pageId

def extractionDistrict : Option Text :=
  (extractionPage db extraction).bind fun page =>
    (db.sourceDocument? page.documentId).bind fun document =>
      (db.batch? document.batchId).map Batch.district

def extractionCrop : Option Text :=
  ((extractionPage db extraction).filter fun page =>
      isTruthy page.storageUri && decide (extraction.bbox ≠ "None".toList)).map fun page =>
    cropUrl (signGet (orEmpty page.storageUri) cropUrlTtlSeconds) extraction.bbox

def unmaskedField : UnmaskedField :=
  let unmasked := Masking.apply extraction.canonicalValue (some extraction.rawValue)
    (extractionCrop signGet db extraction) extraction.fieldName unmaskedReadRole
  ⟨extraction.id, extraction.fieldName, unmasked.value, unmasked.rawValue, unmasked.cropUri⟩

end Read

def readUnmaskedField (signGet : Text → ℕ → Text) (actor : Text) (args : UnmaskedReadArgs)
    (entry : Stamp) : Route UnmaskedField := do
  if args.purpose = [] ∨ Ocr.strip args.purpose = [] then Fallible.raise .missingPurpose
  else
    match ← Fallible.read fun db => db.tables.extraction? args.extractionId with
    | none => Fallible.raise (.extractionNotFound args.extractionId)
    | some extraction =>
      let field ← Fallible.read fun db => unmaskedField signGet db.tables extraction
      let district ← Fallible.read fun db => extractionDistrict db.tables extraction
      onTables (auditAppend entry (recordUnmaskedRead actor args.recordId args.version
        extraction.fieldName args.purpose district))
      return field

end LandRecords.Api
