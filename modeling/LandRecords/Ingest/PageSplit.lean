import LandRecords.Ingest.Custody

/-! The split of a document into pages. A worker looks whether the document has pages,
and adds them one by one with a message for triage each; nothing is locked between. -/
namespace LandRecords.Ingest

open Backend (Page SourceDocument)
open Datetime Outbox ReadCommitted Text

structure SplitPage where
  index : Nat
  data : Content
  mime : Text

/-- `split_stream`, over the frames that the library for a format finds in a file. -/
def splitStream (frames : Text → Content → Option (List Content)) (mime : Text) (data : Content) :
    Option (List SplitPage) :=
  if mime = "application/pdf".toList ∨ mime = "image/tiff".toList then
    (frames mime data).map fun parts => parts.zipIdx.map fun part => ⟨part.2, part.1, mime⟩
  else if mime = "image/jpeg".toList ∨ mime = "image/png".toList then some [⟨0, data, mime⟩]
  else none

theorem splitStream_index {frames : Text → Content → Option (List Content)} {mime : Text}
    {data : Content} {pages : List SplitPage} (h : splitStream frames mime data = some pages) :
    pages.map SplitPage.index = List.range pages.length := by
  unfold splitStream at h
  split at h
  · obtain ⟨parts, -, rfl⟩ := Option.map_eq_some_iff.mp h
    rw [List.map_map, List.length_map, List.length_zipIdx, List.range_eq_range']
    exact List.zipIdx_map_snd 0 parts
  · split at h
    · cases h
      rfl
    · cases h

/-- What is fixed about the documents: the payload of the message about each, the
objects in the store, and the frames of a file. -/
structure Originals where
  storageKey : Text → Text
  mime : Text → Text
  stored : Text → Option Content
  frames : Text → Content → Option (List Content)

namespace Originals

def payload (originals : Originals) (documentId : Text) : SplitRequest where
  documentId := documentId
  storageKey := originals.storageKey documentId
  mime := originals.mime documentId

def splitOf (originals : Originals) (payload : SplitRequest) : Option (List SplitPage) :=
  (originals.stored payload.storageKey).bind fun data =>
    splitStream originals.frames payload.mime data

def total (originals : Originals) (documentId : Text) : Nat :=
  ((originals.splitOf (originals.payload documentId)).getD []).length

end Originals

structure SplitPageRow extends Page where
  index : Nat

structure TriageRequest where
  id : Text
  documentId : Text
  index : Nat
  unset : List Text

abbrev TriageMessage := OutboxMessage (Envelope Empty TriageRequest)

structure Split where
  documents : List StoredDocument := []
  pages : List SplitPageRow := []
  messages : List TriageMessage := []

def Split.document? (db : Split) (documentId : Text) : Option StoredDocument :=
  db.documents.find? fun row => row.id = documentId

def Split.pagesOf (db : Split) (documentId : Text) : List SplitPageRow :=
  db.pages.filter fun page => page.documentId = documentId

def triageQueue : Text := "TRIAGE_QUEUE".toList

structure PageIds where
  pageId : Text
  envelopeId : Text
  messageId : Text

/-- A message that is handled, and the ids to be generated for its pages in turn. -/
structure Handling where
  documentId : Text
  ids : Nat → PageIds

def newPage (handling : Handling) (nth : Nat) (splitPage : SplitPage) : SplitPageRow where
  id := (handling.ids nth).pageId
  documentId := handling.documentId
  index := splitPage.index
  storageUri := some (keyFor (digestOf splitPage.data))

def triageMessage (handling : Handling) (nth : Nat) (page : SplitPageRow) (now : Instant) :
    TriageMessage :=
  outboxRow triageQueue
    (emit triageQueue "ingest".toList
      { id := page.id
        documentId := handling.documentId
        index := page.index
        unset := ["index_position", "quality_score", "legibility_band", "script", "language",
          "doc_type", "page_role", "writer_cluster_id", "novelty_score"].map String.toList }
      none (handling.documentId ++ ':' :: page.id) (handling.ids nth).envelopeId now)
    (handling.ids nth).messageId now

abbrev Created := List (SplitPageRow × TriageMessage)

structure HandleResult where
  documentId : Text
  pagesCreated : Nat
  alreadySplit : Bool

inductive SplitPhase
  | received
  | unsplit
  | splitting (document : Option StoredDocument) (created : Created) (rest : List SplitPage)
  | pageAdded (document : Option StoredDocument) (created : Created) (page : SplitPageRow)
      (rest : List SplitPage)
  | alreadySplit (result : HandleResult)
  | finished (created : Created) (counted : Bool) (result : HandleResult)

structure SplitLocals where
  handling : Handling
  phase : SplitPhase

inductive SplitWrite
  | addPage (row : SplitPageRow)
  | addMessage (row : TriageMessage)
  | setPageCount (documentId : Text) (count : Nat)

/-- The primary key that a write locks. No constraint covers the index of a page. -/
inductive SplitKey
  | page (id : Text)
  | outboxMessage (id : Text)
  | sourceDocument (id : Text)
deriving DecidableEq

def SplitWrite.rowKey : SplitWrite → SplitKey
  | .addPage row => .page row.id
  | .addMessage row => .outboxMessage row.id
  | .setPageCount documentId _ => .sourceDocument documentId

def setPageCount (documentId : Text) (count : Nat) : List StoredDocument → List StoredDocument :=
  Rows.updateAt (fun document => document.id) documentId fun document =>
    { document with pageCount := count }

def SplitWrite.apply : SplitWrite → Split → Split
  | .addPage row, db => { db with pages := db.pages ++ [row] }
  | .addMessage row, db => { db with messages := db.messages ++ [row] }
  | .setPageCount documentId count, db =>
      { db with documents := Ingest.setPageCount documentId count db.documents }

def SplitWrite.violates (db : Split) : SplitWrite → Bool
  | .addPage row => row.id ∈ db.pages.map (fun page => page.id) ∨
      row.documentId ∉ db.documents.map fun document => document.id
  | .addMessage row => row.id ∈ db.messages.map fun message => message.id
  | .setPageCount _ _ => false

/-- `handle`, statement by statement. An assignment of the count that was loaded is no
update. -/
def handleStatement (originals : Originals) (handling : Handling) (now : Instant) (db : Split) :
    SplitPhase → Statement SplitPhase SplitWrite
  | .received =>
      if db.pagesOf handling.documentId ≠ [] then
        .next (.alreadySplit ⟨handling.documentId, 0, true⟩) none
      else .next .unsplit none
  | .unsplit =>
      match originals.splitOf (originals.payload handling.documentId) with
      | none => .fail
      | some pages => .next (.splitting (db.document? handling.documentId) [] pages) none
  | .splitting document created (splitPage :: rest) =>
      let page := newPage handling created.length splitPage
      .next (.pageAdded document created page rest) (some (.addPage page))
  | .pageAdded document created page rest =>
      let message := triageMessage handling created.length page now
      .next (.splitting document (created ++ [(page, message)]) rest) (some (.addMessage message))
  | .splitting document created [] =>
      let result := ⟨handling.documentId, created.length, false⟩
      match document.or (db.document? handling.documentId) with
      | none => .next (.finished created false result) none
      | some document =>
          if document.pageCount = created.length then .next (.finished created false result) none
          else .next (.finished created true result)
            (some (.setPageCount handling.documentId created.length))
  | .alreadySplit _ | .finished _ _ _ => .done

def SplitLocals.statement (originals : Originals) (locals : SplitLocals) (now : Instant)
    (db : Split) : Statement SplitLocals SplitWrite :=
  match handleStatement originals locals.handling now db locals.phase with
  | .done => .done
  | .fail => .fail
  | .next phase write => .next { locals with phase := phase } write

def handlings (originals : Originals) : System Split Handling SplitLocals SplitWrite Instant where
  init handling := ⟨handling, .received⟩
  statement := SplitLocals.statement originals
  apply := SplitWrite.apply
  clash write held := write.rowKey = held.rowKey
  violates write db := write.violates db

abbrev SplitCommits := Shared Split SplitLocals Instant

def triageMessagesFor (db : Split) (page : SplitPageRow) : List TriageMessage :=
  db.messages.filter fun message =>
    message.queue = triageQueue && message.envelope.payload.id = page.id

/-- A document has each page once, and a message for each; its page count is right once
its message has been handled. -/
structure SplitOnce (v : SplitCommits) : Prop where
  once : (v.committed.pages.map fun page => (page.documentId, page.index)).Nodup
  told : ∀ page ∈ v.committed.pages, (triageMessagesFor v.committed page).length = 1
  only : ∀ message ∈ v.committed.messages, ∃ page ∈ v.committed.pages,
    message.envelope.payload.id = page.id
  counted : ∀ locals ∈ v.log, ∀ document ∈ v.committed.document? locals.handling.documentId,
    document.pageCount = (v.committed.pagesOf locals.handling.documentId).length

def SplitPhase.created : SplitPhase → Created
  | .splitting _ created _ | .pageAdded _ created _ _ | .finished created _ _ => created
  | _ => []

def StillUnsplit (v : SplitCommits) (txn : Txn SplitLocals SplitWrite) : Prop :=
  txn.locals.phase.created ≠ [] → v.committed.pagesOf txn.locals.handling.documentId = []

end LandRecords.Ingest
