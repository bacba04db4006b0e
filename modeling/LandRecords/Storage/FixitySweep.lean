import LandRecords.Backend.Database
import LandRecords.Storage.LocalFs

/-! The fixity sweep: both copies of every original are hashed again and compared with the digest
recorded for it. -/
namespace LandRecords.Storage

open Backend (Stamp)
open Datetime Fallible
open Ingest (Content StoredDocument digestOf)

inductive StoreLabel
  | primary | secondary
deriving DecidableEq

def StoreLabel.value : StoreLabel → Text
  | .primary => "primary".toList
  | .secondary => "secondary".toList

inductive CheckOutcome
  | matched | mismatch
deriving DecidableEq

structure FixityCheck where
  id : Text
  documentId : Text
  expectedDigest : Text
  observedDigest : Text
  checkedAt : Instant
  outcome : CheckOutcome
  store : StoreLabel

structure FixityAlert where
  documentId : Text
  store : StoreLabel
  expectedDigest : Text
  observedDigest : Text
deriving DecidableEq

structure Archive where
  documents : List StoredDocument := []
  fixityChecks : List FixityCheck := []
  db : Backend.Database := {}
  disk : Disk := fun _ => none

inductive SweepError
  /-- Both names stand for the store at this root. -/
  | distinctCredentialsError (root : Text)
  | store (error : StoreError)
  | database (error : Backend.Error)
deriving DecidableEq

abbrev Sweep := Fallible Archive SweepError

/-! ## The stores -/

/-- `os.environ.get`. -/
abbrev Environ := Text → Option Text

def objectStoreRoot (environ : Environ) (variablePrefix : String) : Text :=
  (environ (variablePrefix.toList ++ "_ROOT".toList)).getD "/tmp/landrecords-objects".toList

/-- `_build_from_env`, for stores on a file system. -/
def buildFromEnv (environ : Environ) (variablePrefix : String) : LocalFsObjectStore :=
  ⟨keyParts (objectStoreRoot environ variablePrefix)⟩

def getStore (environ : Environ) : LocalFsObjectStore := buildFromEnv environ "OBJECT_STORE"

def getSecondaryStore (environ : Environ) : LocalFsObjectStore :=
  buildFromEnv environ "SECONDARY_OBJECT_STORE"

def assertDistinctStores (environ : Environ) : Except SweepError Unit :=
  if objectStoreRoot environ "OBJECT_STORE" = objectStoreRoot environ "SECONDARY_OBJECT_STORE" then
    .error (.distinctCredentialsError (objectStoreRoot environ "OBJECT_STORE"))
  else .ok ()

def sweepStores (environ : Environ) (primaryStore secondaryStore : Option LocalFsObjectStore) :
    Except SweepError (LocalFsObjectStore × LocalFsObjectStore) := do
  if primaryStore.isNone && secondaryStore.isNone then assertDistinctStores environ
  return (primaryStore.getD (getStore environ), secondaryStore.getD (getSecondaryStore environ))

/-! ## The sweep -/

def fileStream (file : FileObject) : UploadStream where
  content := file.rest
  granted _ count := count
  granted_pos _ _ h := h
  granted_le _ _ := le_rfl

/-- `_rehash`, with files that can be read once they are open. -/
def rehash (backing : LocalFsObjectStore) (key : Text) : Operation Text := do
  let stream ← backing.openStream key
  let (digest, _) ← hashStreamToSpooledTempfile (fileStream stream) 1048576 { names := [] }
  return digest

def onDisk {α : Type} (operation : Operation α) : Sweep α :=
  within Archive.disk (fun disk archive => { archive with disk := disk }) SweepError.store operation

def inSession {α : Type} (statement : Backend.Session α) : Sweep α :=
  within Archive.db (fun db archive => { archive with db := db }) SweepError.database statement

def addCheck (check : FixityCheck) : Sweep Unit := fun archive =>
  if check.id ∈ archive.fixityChecks.map FixityCheck.id then
    (.raised (.database .integrityError), archive)
  else (.returned (), { archive with fixityChecks := archive.fixityChecks ++ [check] })

structure SweepStamps where
  check : Text → StoreLabel → Stamp
  entry : Text → StoreLabel → Stamp

structure Copy where
  document : StoredDocument
  label : StoreLabel
  backing : LocalFsObjectStore

def fixityCheck (stamps : SweepStamps) (copy : Copy) (observedDigest : Text) : FixityCheck where
  id := (stamps.check copy.document.id copy.label).id
  documentId := copy.document.id
  expectedDigest := copy.document.sha256
  observedDigest := observedDigest
  checkedAt := (stamps.check copy.document.id copy.label).time
  outcome := if observedDigest = copy.document.sha256 then .matched else .mismatch
  store := copy.label

def mismatchEntry (copy : Copy) : Audit.AppendArgs where
  actor := "system:fixity-sweep".toList
  action := "fixity_check.mismatch".toList
  subject := some copy.document.id
  purpose := some ("FR-ING-07:".toList ++ copy.label.value)

def sweepCopy (stamps : SweepStamps) (copy : Copy) : Sweep (Option FixityAlert) := do
  let observedDigest ← onDisk (rehash copy.backing copy.document.storageUri)
  addCheck (fixityCheck stamps copy observedDigest)
  if observedDigest = copy.document.sha256 then return none
  else
    inSession (Backend.auditAppend (stamps.entry copy.document.id copy.label) (mismatchEntry copy))
    return some ⟨copy.document.id, copy.label, copy.document.sha256, observedDigest⟩

def sweepCopies (stamps : SweepStamps) : List Copy → Sweep (List FixityAlert)
  | [] => return []
  | copy :: rest => do
      let alert ← sweepCopy stamps copy
      return alert.toList ++ (← sweepCopies stamps rest)

def sweptDocuments (documentIds : Option (List Text)) (archive : Archive) : List StoredDocument :=
  archive.documents.filter fun document => documentIds.all fun ids => decide (document.id ∈ ids)

def copiesOf (store secondStore : LocalFsObjectStore) (documents : List StoredDocument) :
    List Copy :=
  documents.flatMap fun document =>
    [⟨document, .primary, store⟩, ⟨document, .secondary, secondStore⟩]

def runSweep (environ : Environ) (stamps : SweepStamps) (documentIds : Option (List Text))
    (primaryStore secondaryStore : Option LocalFsObjectStore) : Sweep (List FixityAlert) := do
  match sweepStores environ primaryStore secondaryStore with
  | .error error => raise error
  | .ok (store, secondStore) =>
      let documents ← read (sweptDocuments documentIds)
      sweepCopies stamps (copiesOf store secondStore documents)

end LandRecords.Storage
