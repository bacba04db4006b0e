import LandRecords.Backend.Entities
import LandRecords.Base.CollisionFree
import LandRecords.Base.ReadCommitted
import LandRecords.Base.Rows
import LandRecords.Base.Sha256
import LandRecords.Outbox.Message

/-! Uploads into custody. An upload looks for a document with its digest, and adds one
with a message for the split worker if there is none; nothing is locked between. -/
namespace LandRecords.Ingest

open Backend (SourceDocument)
open Datetime Outbox ReadCommitted Text

abbrev Content := List UInt8

def digestOf (data : Content) : Text :=
  let s := Sha256.digest data
  [s.a, s.b, s.c, s.d, s.e, s.f, s.g, s.h].flatMap Sha256.hexWord

def keyFor (digest : Text) : Text :=
  "sha256/".toList ++ digest.take 2 ++ '/' :: (digest.drop 2).take 2 ++ '/' :: digest

structure PutResult where
  key : Text
  digest : Text

/-- What `put_stream` answers, whether or not the object was there before. -/
def putStream (data : Content) : PutResult := ⟨keyFor (digestOf data), digestOf data⟩

structure StoredDocument extends SourceDocument where
  sha256 : Text
  storageUri : Text
  mime : Text
  pageCount : Nat

structure SplitRequest where
  documentId : Text
  storageKey : Text
  mime : Text
deriving DecidableEq

abbrev SplitMessage := OutboxMessage (Envelope Empty SplitRequest)

structure Custody where
  documents : List StoredDocument := []
  messages : List SplitMessage := []

def ingestionQueue : Text := "INGESTION_QUEUE".toList

def supportedMimeTypes : List (Text × Text) :=
  [("image/jpeg".toList, "jpeg".toList), ("image/png".toList, "png".toList),
    ("image/tiff".toList, "tiff".toList), ("application/pdf".toList, "pdf".toList)]

/-- The arguments of `ingest_document` and the ids it is going to generate. -/
structure Upload where
  batchId : Text
  content : Content
  mime : Text
  documentId : Text
  envelopeId : Text
  messageId : Text

structure IngestResult where
  documentId : Text
  batchId : Text
  sha256 : Text
  storageKey : Text
  created : Bool
  queuedForSplit : Bool

def linkedResult (existing : StoredDocument) (put : PutResult) : IngestResult where
  documentId := existing.id
  batchId := existing.batchId
  sha256 := put.digest
  storageKey := put.key
  created := false
  queuedForSplit := false

def createdResult (document : StoredDocument) (put : PutResult) : IngestResult where
  documentId := document.id
  batchId := document.batchId
  sha256 := put.digest
  storageKey := put.key
  created := true
  queuedForSplit := true

def newDocument (upload : Upload) : StoredDocument where
  id := upload.documentId
  batchId := upload.batchId
  sha256 := (putStream upload.content).digest
  storageUri := (putStream upload.content).key
  mime := upload.mime
  pageCount := 0

def splitMessage (upload : Upload) (now : Instant) : SplitMessage :=
  outboxRow ingestionQueue
    (emit ingestionQueue "ingest".toList
      ⟨upload.documentId, (putStream upload.content).key, upload.mime⟩ none upload.documentId
      upload.envelopeId now)
    upload.messageId now

inductive Phase
  | received
  | unseen
  | documentAdded
  | linked (result : IngestResult)
  | queued (message : SplitMessage) (result : IngestResult)

structure Locals where
  upload : Upload
  phase : Phase

inductive Write
  | addDocument (row : StoredDocument)
  | addMessage (row : SplitMessage)

/-- The primary key that a write locks. The index on the digest is not unique. -/
inductive RowKey
  | sourceDocument (id : Text)
  | outboxMessage (id : Text)
deriving DecidableEq

def Write.rowKey : Write → RowKey
  | .addDocument row => .sourceDocument row.id
  | .addMessage row => .outboxMessage row.id

def Write.apply : Write → Custody → Custody
  | .addDocument row, db => { db with documents := db.documents ++ [row] }
  | .addMessage row, db => { db with messages := db.messages ++ [row] }

def Write.violates (db : Custody) : Write → Bool
  | .addDocument row => row.id ∈ db.documents.map fun document => document.id
  | .addMessage row => row.id ∈ db.messages.map OutboxMessage.id

/-- `ingest_document`, statement by statement. -/
def ingestStatement (upload : Upload) (now : Instant) (db : Custody) :
    Phase → Statement Phase Write
  | .received =>
      if upload.mime ∉ supportedMimeTypes.map Prod.fst then .fail
      else
        match db.documents.find? fun row => row.sha256 = (putStream upload.content).digest with
        | some existing => .next (.linked (linkedResult existing (putStream upload.content))) none
        | none => .next .unseen none
  | .unseen => .next .documentAdded (some (.addDocument (newDocument upload)))
  | .documentAdded =>
      let message := splitMessage upload now
      .next (.queued message (createdResult (newDocument upload) (putStream upload.content)))
        (some (.addMessage message))
  | .linked _ | .queued _ _ => .done

def Locals.statement (locals : Locals) (now : Instant) (db : Custody) : Statement Locals Write :=
  match ingestStatement locals.upload now db locals.phase with
  | .done => .done
  | .fail => .fail
  | .next phase write => .next { locals with phase := phase } write

def uploads : System Custody Upload Locals Write Instant where
  init upload := ⟨upload, .received⟩
  statement := Locals.statement
  apply := Write.apply
  clash write held := write.rowKey = held.rowKey
  violates write db := write.violates db

abbrev Commits := Shared Custody Locals Instant

def contents (v : Commits) : List Content := v.log.map fun locals => locals.upload.content

def ingestionMessages (db : Custody) : List SplitMessage :=
  db.messages.filter fun message => message.queue = ingestionQueue

def messagesFor (db : Custody) (content : Content) : List SplitMessage :=
  (ingestionMessages db).filter fun message => db.documents.any fun document =>
    document.id = message.envelope.payload.documentId && document.sha256 = digestOf content

/-- A content has one document and one message, however often it was uploaded. -/
structure Recognised (v : Commits) : Prop where
  once : (v.committed.documents.map StoredDocument.sha256).Nodup
  queued : ∀ content ∈ contents v, (messagesFor v.committed content).length = 1
  counted : CollisionFree digestOf (contents v) →
    (ingestionMessages v.committed).length = (contents v).dedup.length

def Phase.adds : Phase → Bool
  | .documentAdded | .queued _ _ => true
  | _ => false

def StillUnknown (v : Commits) (txn : Txn Locals Write) : Prop :=
  txn.locals.phase.adds = true → digestOf txn.locals.upload.content ∉
    v.committed.documents.map StoredDocument.sha256

end LandRecords.Ingest
