import LandRecords.Audit.Chain
import LandRecords.Base.Fallible
import LandRecords.Base.OrderBy
import LandRecords.Base.Payload
import LandRecords.Base.Rounding
import LandRecords.Ingest.Custody
import LandRecords.Ocr.Normalization
import Mathlib

/-! The watched drop folder. Each file comes with a sidecar about its batch; a file goes into
custody and leaves the folder, or it is moved to the rejected ones with a reason next to it. -/
namespace LandRecords.Ingest

open Datetime Fallible Text

abbrev Directory := List (Text × Content)

namespace Directory

def remove (name : Text) (directory : Directory) : Directory :=
  directory.filter fun entry => entry.1 ≠ name

variable {name other : Text} {directory : Directory}

@[simp] theorem lookup_remove_self : (directory.remove name).lookup name = none := by
  rw [List.lookup_eq_none_iff]
  intro entry hentry
  have hne : entry.1 ≠ name := of_decide_eq_true (List.mem_filter.mp hentry).2
  exact bne_iff_ne.mpr hne.symm

theorem lookup_remove_other (h : other ≠ name) :
    (directory.remove name).lookup other = directory.lookup other := by
  unfold remove
  induction directory with
  | nil => rfl
  | cons entry rest ih =>
    by_cases hentry : entry.1 = name
    · have hother : (other == entry.1) = false := beq_eq_false_iff_ne.mpr (hentry ▸ h)
      rw [List.filter_cons_of_neg (by simpa using hentry), ih, List.lookup, hother]
    · rw [List.filter_cons_of_pos (by simpa using hentry), List.lookup, List.lookup, ih]

theorem mem_remove (h : other ≠ name) :
    other ∈ (directory.remove name).map Prod.fst ↔ other ∈ directory.map Prod.fst := by
  simp only [remove, List.mem_map, List.mem_filter, decide_eq_true_eq]
  constructor
  · intro ⟨entry, hentry, hother⟩
    exact ⟨entry, hentry.1, hother⟩
  · intro ⟨entry, hentry, hother⟩
    exact ⟨entry, ⟨hentry, hother.symm ▸ h⟩, hother⟩

end Directory

def metaSuffix : Text := ".meta.json".toList

/-- `path.with_name(path.name + _META_SUFFIX)`. -/
def sidecarOf (name : Text) : Text := name ++ metaSuffix

def reasonOf (name : Text) : Text := name ++ ".rejected.json".toList

def rejectedName : Text := "rejected".toList

def isCandidate (name : Text) : Bool := !metaSuffix.isSuffixOf name

section Names

variable {name other : Text}

theorem not_candidate_sidecarOf : isCandidate (sidecarOf name) = false := by
  have hsuffix : metaSuffix.isSuffixOf (sidecarOf name) = true :=
    List.isSuffixOf_iff_suffix.mpr (List.suffix_append name metaSuffix)
  rw [isCandidate, hsuffix]
  rfl

theorem ne_sidecarOf_of_candidate (h : isCandidate name) : name ≠ sidecarOf other := by
  intro heq
  rw [heq, not_candidate_sidecarOf] at h
  cases h

theorem sidecarOf_injective : Function.Injective sidecarOf := by
  intro a b h
  simpa only [sidecarOf, List.append_left_inj] using h

theorem sidecarOf_ne_self : sidecarOf name ≠ name := by
  intro h
  rw [sidecarOf, List.append_right_eq_self] at h
  exact absurd h (by decide)

theorem reasonOf_injective : Function.Injective reasonOf := by
  intro a b h
  simpa only [reasonOf, List.append_left_inj] using h

theorem reasonOf_ne_self : reasonOf name ≠ name := by
  intro h
  rw [reasonOf, List.append_right_eq_self] at h
  exact absurd h (by decide)

theorem rejectedName_candidate : isCandidate rejectedName = true := by decide +kernel

end Names

structure BatchMetadata where
  district : Value ℚ
  tehsil : Value ℚ
  village : Value ℚ
  series : Value ℚ
  custodian : Value ℚ
  scanningDate : Option Instant

structure IntakeBatch where
  id : Text
  metadata : BatchMetadata

/-- The tables that the watcher writes. Of an audit entry, what it is appended with is kept. -/
structure IntakeDb where
  batches : List IntakeBatch := []
  custody : Custody := {}
  audit : List Audit.AppendArgs := []

abbrev Objects := Text → Option Content

/-- The folder with the rejected files, if there is a directory of them yet, the names of the
files that were moved there, the database with the open session, and the two stores. -/
structure Intake where
  folder : Directory := []
  rejected : Option Directory := none
  moved : List Text := []
  committed : IntakeDb := {}
  session : IntakeDb := {}
  primary : Objects := fun _ => none
  secondary : Objects := fun _ => none

inductive IntakeError
  | missingMandatoryBatchField (field : Text)
  | unsupportedMediaType (mime : Value ℚ)
  | alreadyExistsWithDifferentContent (key : Text)
  | keyError (key : Text)
  | fileExists
  | fileNotFound
  | undecodable (message : Text)
  | raised (error : Raised)
  /-- A database or a store fails. -/
  | failure (description : Text)

abbrev Watcher := Fallible Intake IntakeError

structure Faults where
  getBatch : Fault Text := .none
  addBatch : Fault Text := .none
  configuration : Fault Text := .none
  primaryPut : Fault Text := .none
  reread : Fault Text := .none
  secondaryPut : Fault Text := .none
  query : Fault Text := .none
  document : Fault Text := .none
  outbox : Fault Text := .none
  audit : Fault Text := .none
  commit : Fault Text := .none
  rollback : Fault Text := .none

structure IntakeStamps where
  batchId : Text
  documentId : Text
  envelopeId : Text
  messageId : Text
  now : Instant

inductive JsonFault
  | decodeError (message : Text)
  | undecodable (message : Text)

/-- Functions of the standard library that are left open: `json.loads` of a file's text,
`mimetypes.guess_type`, `datetime.fromisoformat`, `repr` and `json.dumps` of a reason. -/
structure Library where
  loads : Content → Except JsonFault (Value ℚ)
  guessType : Text → Option Text
  fromisoformat : Text → Except Raised Instant
  repr : Value ℚ → Text
  dumps : Text → Text → Content

/-! ## Rejection -/

def Intake.rejectedFiles (intake : Intake) : Directory := intake.rejected.getD []

def removeFile (name : Text) (intake : Intake) : Intake :=
  { intake with folder := intake.folder.remove name }

/-- `_reject`. A file in the place of the directory is in the way. -/
def reject (library : Library) (name reasonCode detail : Text) : Watcher Unit := fun intake =>
  if rejectedName ∈ intake.folder.map Prod.fst then (.raised .fileExists, intake)
  else
    match intake.folder.lookup name with
    | none => (.raised .fileNotFound, { intake with rejected := some intake.rejectedFiles })
    | some content =>
        (.returned (),
          { removeFile name intake with
            rejected := some (Dict.set (reasonOf name) (library.dumps reasonCode detail)
              (Dict.set name content intake.rejectedFiles))
            moved := intake.moved ++ [name] })

/-- `try: body` with `finally: cleanup`. -/
def ensure {α : Type} (body : Watcher α) (cleanup : Intake → Intake) : Watcher α := fun intake =>
  match body intake with
  | (.crashed, after) => (.crashed, after)
  | (exit, after) => (exit, cleanup after)

/-! ## Custody -/

def external {α : Type} (fault : Fault Text) (effect : Intake → α × Intake) : Watcher α :=
  within id (fun after _ => after) IntakeError.failure (perform fault effect)

structure BatchRequest where
  mime : Value ℚ
  batchId : Value ℚ
  metadata : BatchMetadata

def batchRequest (library : Library) (name : Text) (sidecar : Value ℚ) :
    Except Raised BatchRequest := do
  let entries ← sidecar.asDict
  let get := fun key : String => (entries.lookup key.toList).getD .none
  let guessed := ((library.guessType name).map Value.text).getD .none
  let scanningDate ←
    if (get "scanning_date").truthy then
      match get "scanning_date" with
      | .text text => (library.fromisoformat text).map some
      | _ => .error .typeError
    else .ok none
  return {
    mime := ((get "mime").orElse guessed).orElse (.text "application/octet-stream".toList)
    batchId := get "batch_id"
    metadata :=
      { district := get "district"
        tehsil := get "tehsil"
        village := get "village"
        series := get "series"
        custodian := get "custodian"
        scanningDate := scanningDate } }

def raiseIfError {α : Type} : Except IntakeError α → Watcher α
  | .ok value => return value
  | .error error => raise error

def validateBatchMetadata (district : Value ℚ) : Except IntakeError Unit :=
  if !district.truthy then .error (.missingMandatoryBatchField "district".toList)
  else
    match district with
    | .text text =>
        if Ocr.strip text = [] then .error (.missingMandatoryBatchField "district".toList)
        else .ok ()
    | _ => .error (.raised .attributeError)

/-- `session.get(Batch, batch_id)`, where the driver refuses what is not a text. -/
def existingBatch (faults : Faults) (batchId : Value ℚ) : Watcher (Option IntakeBatch) :=
  match batchId with
  | .none => return none
  | .text id => external faults.getBatch fun intake =>
      (intake.session.batches.find? fun batch => batch.id = id, intake)
  | _ => raise (.failure "batch_id".toList)

def withSession (update : IntakeDb → IntakeDb) (intake : Intake) : Intake :=
  { intake with session := update intake.session }

def getOrCreateBatch (faults : Faults) (stamps : IntakeStamps) (request : BatchRequest) :
    Watcher IntakeBatch := do
  raiseIfError (validateBatchMetadata request.metadata.district)
  match ← existingBatch faults request.batchId with
  | some batch => return batch
  | none =>
      let batch : IntakeBatch := ⟨stamps.batchId, request.metadata⟩
      external faults.addBatch fun intake =>
        (batch, withSession (fun db => { db with batches := db.batches ++ [batch] }) intake)

def validateMime : Value ℚ → Except IntakeError Text
  | .text mime =>
      if mime ∈ supportedMimeTypes.map Prod.fst then .ok mime
      else .error (.unsupportedMediaType (.text mime))
  | .none => .error (.unsupportedMediaType .none)
  | .number n => .error (.unsupportedMediaType (.number n))
  | .list _ | .dict _ => .error (.raised .typeError)

/-- `put_stream`: an object that is there already is compared, and else it is written. -/
def putObject (fault : Fault Text) (objects : Intake → Objects)
    (update : Objects → Intake → Intake) (content : Content) : Watcher PutResult := do
  let put := putStream content
  match ← read fun intake => objects intake put.key with
  | some held =>
      if held ≠ content then raise (.alreadyExistsWithDifferentContent put.key)
      else external fault fun intake => (put, intake)
  | none => external fault fun intake =>
      (put, update (Function.update (objects intake) put.key (some content)) intake)

def putPrimary (fault : Fault Text) : Content → Watcher PutResult :=
  putObject fault Intake.primary fun objects intake => { intake with primary := objects }

def putSecondary (fault : Fault Text) : Content → Watcher PutResult :=
  putObject fault Intake.secondary fun objects intake => { intake with secondary := objects }

def openPrimary (fault : Fault Text) (key : Text) : Watcher Content := do
  match ← external fault fun intake => (intake.primary key, intake) with
  | some content => return content
  | none => raise (.keyError key)

def ingestEntry (action documentId purpose : Text) : Audit.AppendArgs where
  actor := "system:ingest".toList
  action := action
  subject := some documentId
  purpose := some purpose

def appendEntry (args : Audit.AppendArgs) : Intake → Intake :=
  withSession fun db => { db with audit := db.audit ++ [args] }

def addDocument (document : StoredDocument) : Intake → Intake :=
  withSession fun db =>
    { db with custody := { db.custody with documents := db.custody.documents ++ [document] } }

def addMessage (message : SplitMessage) : Intake → Intake :=
  withSession fun db =>
    { db with custody := { db.custody with messages := db.custody.messages ++ [message] } }

def ingestDocument (faults : Faults) (stamps : IntakeStamps) (batch : IntakeBatch)
    (content : Content) (mime : Value ℚ) : Watcher IngestResult := do
  let mime ← raiseIfError (validateMime mime)
  external faults.configuration fun intake => ((), intake)
  let put ← putPrimary faults.primaryPut content
  let reread ← openPrimary faults.reread put.key
  let _ ← putSecondary faults.secondaryPut reread
  let existing ← external faults.query fun intake =>
    (intake.session.custody.documents.find? fun row => row.sha256 = put.digest, intake)
  match existing with
  | some existing =>
      external faults.audit fun intake => ((), appendEntry (ingestEntry
        "ingest.document.deduped".toList existing.id "FR-ING-04".toList) intake)
      return linkedResult existing put
  | none =>
      let upload : Upload :=
        ⟨batch.id, content, mime, stamps.documentId, stamps.envelopeId, stamps.messageId⟩
      external faults.document fun intake => ((), addDocument (newDocument upload) intake)
      external faults.outbox fun intake => ((), addMessage (splitMessage upload stamps.now) intake)
      external faults.audit fun intake => ((), appendEntry (ingestEntry
        "ingest.document.received".toList stamps.documentId "FR-ING-02".toList) intake)
      return createdResult (newDocument upload) put

def commitSession (fault : Fault Text) : Watcher Unit :=
  external fault fun intake => ((), { intake with committed := intake.session })

def rollbackSession (fault : Fault Text) : Watcher Unit :=
  external fault fun intake => ((), { intake with session := intake.committed })

/-- `path.open("rb")`. -/
def openFile (name : Text) : Watcher Content := do
  match ← read fun intake => intake.folder.lookup name with
  | some content => return content
  | none => raise .fileNotFound

/-! ## The watcher -/

def refuse (library : Library) (faults : Faults) (name : Text) : IntakeError → Watcher Bool
  | .missingMandatoryBatchField field => do
      rollbackSession faults.rollback
      reject library name ("missing_mandatory_field:".toList ++ field)
        ("batch metadata missing mandatory field '".toList ++ field ++ "' (FR-ING-05)".toList)
      return false
  | .unsupportedMediaType mime => do
      rollbackSession faults.rollback
      reject library name "unsupported_mime_type".toList
        ("unsupported MIME type ".toList ++ library.repr mime ++ " — supported: ".toList ++
          library.repr (.list ((orderBy id (supportedMimeTypes.map Prod.fst)).map .text)))
      return false
  | error => raise error

def takeIn (library : Library) (faults : Faults) (stamps : IntakeStamps) (name : Text)
    (request : BatchRequest) : Watcher Bool :=
  handle
    (do
      let batch ← getOrCreateBatch faults stamps request
      let content ← openFile name
      let _ ← ingestDocument faults stamps batch content request.mime
      commitSession faults.commit
      return true)
    (refuse library faults name)

def ingestOne (library : Library) (faults : Faults) (stamps : IntakeStamps) (name : Text) :
    Watcher Unit := do
  match ← read fun intake => intake.folder.lookup (sidecarOf name) with
  | none =>
      reject library name "missing_batch_metadata".toList
        ("expected sidecar ".toList ++ sidecarOf name)
  | some bytes =>
      match library.loads bytes with
      | .error (.decodeError message) =>
          ensure (reject library name "invalid_batch_metadata".toList message)
            (removeFile (sidecarOf name))
      | .error (.undecodable message) =>
          write (removeFile (sidecarOf name))
          raise (.undecodable message)
      | .ok sidecar =>
          write (removeFile (sidecarOf name))
          let request ← raiseIfError ((batchRequest library name sidecar).mapError .raised)
          if ← takeIn library faults stamps name request then write (removeFile name)

abbrev ScanPlan := Text → Faults × IntakeStamps

def scanFiles (library : Library) (plan : ScanPlan) : List Text → Watcher Unit
  | [] => return ()
  | name :: rest => do
      ingestOne library (plan name).1 (plan name).2 name
      scanFiles library plan rest

def candidates (intake : Intake) : List Text :=
  (intake.folder.map Prod.fst).filter isCandidate

def scanOnce (library : Library) (plan : ScanPlan) : Watcher ℕ := do
  write fun intake => { intake with session := intake.committed }
  let names ← read candidates
  scanFiles library plan names
  return names.length

/-! ## Drops and scans -/

inductive IntakeStep
  | dropFile (name : Text) (content : Content)
  | dropSidecar (name : Text) (bytes : Content)
  | scan (plan : ScanPlan)

/-- A file cannot be dropped in the place of a directory. -/
def intakeStep (library : Library) (intake : Intake) : IntakeStep → Option Intake
  | .dropFile name content =>
      if isCandidate name && !(decide (name = rejectedName) && intake.rejected.isSome) then
        some { intake with folder := Dict.set name content intake.folder }
      else none
  | .dropSidecar name bytes =>
      some { intake with folder := Dict.set (sidecarOf name) bytes intake.folder }
  | .scan plan => some (scanOnce library plan intake).2

end LandRecords.Ingest
