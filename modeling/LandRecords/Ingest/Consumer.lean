import LandRecords.Backend.Database
import LandRecords.Ingest.DropFolder
import LandRecords.Ingest.PageSplit
import LandRecords.Worker.OverDatabase

/-! The consumer of the ingestion queue. A document is read out of the object store, and each of
its pages is put back as an object, with a row, an entry of the audit log and a message for triage.
What is put into the store stays there when the session is rolled back. -/
namespace LandRecords.Ingest

open Audit Datetime Outbox Queue Text Worker
open Backend (Batch Stamp)

/-- The entries of the payload. -/
structure IngestionMessage where
  documentId : Option Text := none
  storageKey : Option Text := none
  mime : Option Text := none
deriving DecidableEq

inductive IngestionError
  | keyError (name : Text)
  | unsplittableDocument (mime : Text)
  | objectAlreadyExistsWithDifferentContent (key : Text)
  /-- An error of the store or of a library, by its class. -/
  | other (errorClass : Text)
  | integrityError
  | audit (error : Backend.Error)

structure IngestionTables where
  objects : Objects := fun _ => none
  split : Split := {}
  backend : Backend.Database := {}

structure IngestionSeed where
  ids : ℕ → PageIds
  pageEntry : ℕ → Stamp
  pageTime : ℕ → Instant
  openFault : Fault IngestionError := .none
  putFault : ℕ → Fault IngestionError := fun _ => .none
  deadLetterEntry : Stamp

abbrev IngestionSession := Fallible (Connection IngestionTables) IngestionError

/-! ## The object store -/

def IngestionTables.withObject (key : Text) (data : Content) (tables : IngestionTables) :
    IngestionTables :=
  { tables with objects := Function.update tables.objects key (some data) }

def writeObject (key : Text) (data : Content) (session : Connection IngestionTables) :
    Connection IngestionTables :=
  ⟨session.durable.withObject key data, session.current.withObject key data⟩

/-- `put`: an object that is there already is compared, and else it is written. -/
def storePage (fault : Fault IngestionError) (data : Content) : IngestionSession Text := do
  let key := keyFor (digestOf data)
  match ← Fallible.read fun session => session.current.objects key with
  | some held =>
      if held ≠ data then Fallible.raise (.objectAlreadyExistsWithDifferentContent key)
      else Fallible.perform fault fun session => (key, session)
  | none => Fallible.perform fault fun session => (key, writeObject key data session)

def openOriginal (fault : Fault IngestionError) (key : Text) : IngestionSession Content := do
  match ← Fallible.read fun session => session.current.objects key with
  | some data => Fallible.perform fault fun session => (data, session)
  | none => Fallible.raise (.keyError key)

/-! ## The tables -/

def executeWrite (write : SplitWrite) : IngestionSession Unit :=
  Fallible.within (fun session => session.current.split)
    (fun split session => { session with current := { session.current with split } }) id fun db =>
      if write.violates db then (.raised .integrityError, db) else (.returned (), write.apply db)

def recordEntry (entry : Stamp) (args : AppendArgs) : IngestionSession Unit :=
  Fallible.within (fun session => session.current.backend)
    (fun backend session => { session with current := { session.current with backend } }) .audit
    (Backend.auditAppend entry args)

def pageIngested : Text := "page.ingested".toList

/-- The arguments that `record_page_ingested` appends with. -/
def recordPageIngested (pageId : Text) (district : Option Text) : AppendArgs where
  actor := "system:ingest".toList
  action := pageIngested
  subject := some pageId
  shardKey := if isTruthy district then some (shardKeyFor district none) else none
  district := district

def districtFor (tables : IngestionTables) (documentId : Text) : Option Text := do
  let document ← tables.split.document? documentId
  let batch ← tables.backend.batch? document.batchId
  return batch.district

/-! ## The handler -/

def payloadText (name : Text) : Option Text → IngestionSession Text
  | some value => return value
  | none => Fallible.raise (.keyError name)

def addPage (seed : IngestionSeed) (documentId : Text) (district : Option Text) (nth : ℕ)
    (splitPage : SplitPage) : IngestionSession Unit := do
  let _ ← storePage (seed.putFault nth) splitPage.data
  let handling : Handling := ⟨documentId, seed.ids⟩
  let page := newPage handling nth splitPage
  executeWrite (.addPage page)
  recordEntry (seed.pageEntry nth) (recordPageIngested page.id district)
  executeWrite (.addMessage (triageMessage handling nth page (seed.pageTime nth)))

def addPages (seed : IngestionSeed) (documentId : Text) (district : Option Text) :
    ℕ → List SplitPage → IngestionSession Unit
  | _, [] => return ()
  | nth, splitPage :: rest => do
      addPage seed documentId district nth splitPage
      addPages seed documentId district (nth + 1) rest

/-- The frames are those that the library for a format finds in a file. -/
def handle (frames : Text → Content → Option (List Content)) (message : IngestionMessage)
    (seed : IngestionSeed) : IngestionSession HandleResult := do
  let documentId ← payloadText "document_id".toList message.documentId
  let storageKey ← payloadText "storage_key".toList message.storageKey
  let mime ← payloadText "mime".toList message.mime
  let split ← Fallible.read fun session => session.current.split.pagesOf documentId
  if split ≠ [] then return ⟨documentId, 0, true⟩
  else
    let district ← Fallible.read fun session => districtFor session.current documentId
    let original ← openOriginal seed.openFault storageKey
    match splitStream frames mime original with
    | none => Fallible.raise (.unsplittableDocument mime)
    | some pages =>
        addPages seed documentId district 0 pages
        executeWrite (.setPageCount documentId pages.length)
        return ⟨documentId, pages.length, false⟩

/-- `landaudit.append` in a session of its own. -/
def appendLetter (entry : Stamp) (args : AppendArgs) :
    Fallible IngestionTables IngestionError Unit :=
  Fallible.within IngestionTables.backend (fun backend tables => { tables with backend }) .audit
    (Backend.auditAppend entry args)

def ingestionService {σ : Type} (frames : Text → Content → Option (List Content))
    (port : QueuePort σ IngestionMessage) (runner : WorkerRunner)
    (className : IngestionError → Text) :
    Service σ IngestionMessage IngestionTables IngestionSeed where
  port := port
  runner := runner
  handler message seed := named className (handle frames message seed)
  auditAppend seed args := named className (appendLetter seed.deadLetterEntry args)

/-! ## The rest of the backend -/

/-- What the others write: batches, documents in custody, and entries about anything but the
ingestion of a page. -/
inductive CustodyWrite
  | batch (row : Batch)
  | document (upload : Upload)
  | entry (stamp : Stamp) (args : AppendArgs)

def IngestionTables.takesUpload (tables : IngestionTables) (upload : Upload) : Bool :=
  (tables.objects (putStream upload.content).key).all (· = upload.content) &&
    upload.documentId ∉ tables.split.documents.map (fun document => document.id) &&
    (tables.backend.batch? upload.batchId).isSome

/-- A write that a constraint or the store refuses is left out. -/
def CustodyWrite.apply : CustodyWrite → IngestionTables → IngestionTables
  | .batch row, tables =>
      if row.id ∈ tables.backend.batches.map Batch.id then tables
      else { tables with
        backend := { tables.backend with batches := tables.backend.batches ++ [row] } }
  | .document upload, tables =>
      if tables.takesUpload upload then
        let stored := tables.withObject (putStream upload.content).key upload.content
        { stored with
          split := { stored.split with documents := stored.split.documents ++ [newDocument upload] } }
      else tables
  | .entry stamp args, tables =>
      if args.action = pageIngested then tables else (appendLetter stamp args tables).2

end LandRecords.Ingest
