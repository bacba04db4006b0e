import LandRecords.Ingest.Consumer
import Mathlib

/-! What the consumer leaves behind, however often messages are delivered and wherever the store,
sessions, commits and acks fail. The pages of a document are those of one message about it, whole
and in order, and each has its object, its entry and its message for triage. -/
namespace LandRecords.Ingest

open Audit Datetime Outbox Queue Text Worker
open Backend (Appended Batch Stamp)

/-! ## What is there of a document -/

def Keeps (objects objects' : Objects) : Prop :=
  ∀ key data, objects key = some data → objects' key = some data

structure PageStored (objects : Objects) (documentId : Text) (splitPage : SplitPage)
    (row : SplitPageRow) : Prop where
  document : row.documentId = documentId
  index : row.index = splitPage.index
  uri : row.storageUri = some (keyFor (digestOf splitPage.data))
  object : objects (keyFor (digestOf splitPage.data)) = some splitPage.data

def Tells (message : TriageMessage) (row : SplitPageRow) : Prop :=
  ∃ (handling : Handling) (nth : ℕ) (now : Instant),
    handling.documentId = row.documentId ∧ message = triageMessage handling nth row now

def SplitFrom (frames : Text → Content → Option (List Content)) (message : IngestionMessage)
    (tables : IngestionTables) : Prop :=
  ∃ documentId key mime original pages, message = ⟨some documentId, some key, some mime⟩ ∧
    tables.objects key = some original ∧ splitStream frames mime original = some pages ∧
    List.Forall₂ (PageStored tables.objects documentId) pages (tables.split.pagesOf documentId)

def ingestedEntries (tables : IngestionTables) : List AuditEntry :=
  tables.backend.audit.rows.filter fun entry => entry.action = pageIngested

structure SplitAsAsked (frames : Text → Content → Option (List Content))
    (past : List IngestionMessage) (tables : IngestionTables) : Prop where
  keys : (tables.split.pages.map fun page => page.id).Nodup
  asked : ∀ page ∈ tables.split.pages, ∃ message ∈ past,
    message.documentId = some page.documentId ∧ SplitFrom frames message tables
  told : List.Forall₂ Tells tables.split.messages tables.split.pages
  recorded : List.Forall₂ (fun entry (page : SplitPageRow) => Backend.Recorded entry
    (recordPageIngested page.id (districtFor tables page.documentId)))
    (ingestedEntries tables) tables.split.pages
  owned : ∀ page ∈ tables.split.pages,
    page.documentId ∈ tables.split.documents.map fun document => document.id
  counted : ∀ document ∈ tables.split.documents,
    document.pageCount = (tables.split.pagesOf document.id).length
  placed : ∀ document ∈ tables.split.documents,
    (tables.backend.batch? document.batchId).isSome = true

def SplitFor (frames : Text → Content → Option (List Content)) (message : IngestionMessage)
    (tables : IngestionTables) : Prop :=
  ∃ asked : IngestionMessage, asked.documentId = message.documentId ∧ SplitFrom frames asked tables

def splitting (frames : Text → Content → Option (List Content)) :
    Purpose IngestionMessage IngestionTables where
  invariant := SplitAsAsked frames
  done := SplitFor frames
  logged args tables := ∃ entry ∈ tables.backend.audit.rows, Backend.Recorded entry args

section Facts

variable {frames : Text → Content → Option (List Content)} {past : List IngestionMessage}
variable {tables tables' : IngestionTables} {objects objects' : Objects} {documentId : Text}
variable {message : IngestionMessage} {splitPage : SplitPage} {row : SplitPageRow}

theorem Keeps.refl (objects : Objects) : Keeps objects objects := fun _ _ h => h

theorem Keeps.trans {objects'' : Objects} (h : Keeps objects objects')
    (h' : Keeps objects' objects'') : Keeps objects objects'' :=
  fun key data hdata => h' key data (h key data hdata)

theorem keeps_update {key : Text} {data : Content} (h : objects key = none) :
    Keeps objects (Function.update objects key (some data)) := by
  intro other held hheld
  have hother : other ≠ key := by
    rintro rfl
    rw [h] at hheld
    cases hheld
  rw [Function.update_of_ne hother, hheld]

theorem PageStored.keep (h : PageStored objects documentId splitPage row)
    (hkeeps : Keeps objects objects') :
    PageStored objects' documentId splitPage row :=
  ⟨h.document, h.index, h.uri, hkeeps _ _ h.object⟩

theorem SplitFrom.keep (h : SplitFrom frames message tables)
    (hobjects : Keeps tables.objects tables'.objects)
    (hpages : ∀ documentId, message.documentId = some documentId →
      tables'.split.pagesOf documentId = tables.split.pagesOf documentId) :
    SplitFrom frames message tables' := by
  obtain ⟨documentId, key, mime, original, pages, rfl, horiginal, hsplit, hheld⟩ := h
  refine ⟨documentId, key, mime, original, pages, rfl, hobjects _ _ horiginal, hsplit, ?_⟩
  rw [hpages documentId rfl]
  exact hheld.imp fun _ _ hrow => hrow.keep hobjects

theorem splitting_extends (hobjects : Keeps tables.objects tables'.objects)
    (hpages : ∀ documentId, tables'.split.pagesOf documentId = tables.split.pagesOf documentId ∨
      ∃ asked : IngestionMessage, asked.documentId = some documentId ∧
        SplitFrom frames asked tables')
    (hrows : tables.backend.audit.rows ⊆ tables'.backend.audit.rows) :
    (splitting frames).Extends tables tables' := by
  constructor
  · rintro message ⟨asked, hasked, hsplit⟩
    obtain ⟨documentId, key, mime, original, pages, rfl, hrest⟩ := hsplit
    rcases hpages documentId with hsame | ⟨later, hlater, hagain⟩
    · refine ⟨_, hasked, SplitFrom.keep ⟨documentId, key, mime, original, pages, rfl, hrest⟩
        hobjects fun other hother => ?_⟩
      rw [← Option.some.inj hother]
      exact hsame
    · exact ⟨later, hlater.trans hasked, hagain⟩
  · rintro args ⟨entry, hentry, hrecorded⟩
    exact ⟨entry, hrows hentry, hrecorded⟩

end Facts

/-! ## The steps of a delivery -/

section Steps

variable {session session' : Connection IngestionTables} {u : Unit}

theorem executeWrite_returned {write : SplitWrite}
    (h : executeWrite write session = (.returned u, session')) :
    write.violates session.current.split = false ∧ session' =
      ⟨session.durable, { session.current with split := write.apply session.current.split }⟩ := by
  obtain ⟨split, hrun, rfl⟩ := Fallible.within_returned.mp h
  split at hrun
  · cases hrun
  · rename_i hvalid
    cases hrun
    exact ⟨Bool.not_eq_true _ ▸ hvalid, rfl⟩

theorem recordEntry_returned {stamp : Stamp} {args : AppendArgs}
    (h : recordEntry stamp args session = (.returned u, session')) :
    ∃ table entry, Backend.Recorded entry args ∧
      table.rows = session.current.backend.audit.rows ++ [entry] ∧ session' =
        ⟨session.durable,
          { session.current with backend := session.current.backend.withAudit table }⟩ := by
  obtain ⟨backend, hrun, rfl⟩ := Fallible.within_returned.mp h
  obtain ⟨htable, entries, hrows, hrecorded⟩ := Backend.auditAppend_returned hrun
  cases hrecorded with
  | cons hentry hnone =>
    cases hnone
    exact ⟨backend.audit, _, hentry, hrows, by rw [← htable]⟩

theorem storePage_returned {fault : Fault IngestionError} {data : Content} {key : Text}
    (h : storePage fault data session = (.returned key, session')) :
    ∃ objects, objects (keyFor (digestOf data)) = some data ∧
      Keeps session.current.objects objects ∧
      session'.current = { session.current with objects } := by
  unfold storePage at h
  rw [Fallible.read_bind] at h
  cases hheld : session.current.objects (keyFor (digestOf data)) with
  | some held =>
    rw [hheld] at h
    dsimp only at h
    split at h
    · cases h
    · rename_i hsame
      rw [not_not.mp hsame] at hheld
      cases fault with
      | none =>
        cases h
        exact ⟨_, hheld, .refl _, rfl⟩
      | raises tookEffect error => cases h
      | crashes tookEffect => cases h
  | none =>
    rw [hheld] at h
    cases fault with
    | none =>
      cases h
      exact ⟨_, Function.update_self .., keeps_update hheld, rfl⟩
    | raises tookEffect error => cases h
    | crashes tookEffect => cases h

structure PagesAdded (documentId : Text) (district : Option Text) (splitPages : List SplitPage)
    (rows : List SplitPageRow) (tables tables' : IngestionTables) : Prop where
  objects : Keeps tables.objects tables'.objects
  held : List.Forall₂ (PageStored tables'.objects documentId) splitPages rows
  pages : tables'.split.pages = tables.split.pages ++ rows
  keys : (tables.split.pages.map fun page => page.id).Nodup →
    (tables'.split.pages.map fun page => page.id).Nodup
  told : ∃ messages, tables'.split.messages = tables.split.messages ++ messages ∧
    List.Forall₂ Tells messages rows
  recorded : ∃ entries, tables'.backend.audit.rows = tables.backend.audit.rows ++ entries ∧
    List.Forall₂ (fun entry (row : SplitPageRow) =>
      Backend.Recorded entry (recordPageIngested row.id district)) entries rows
  documents : tables'.split.documents = tables.split.documents
  batches : tables'.backend.batches = tables.backend.batches
  owned : ∀ row ∈ rows, row.documentId ∈ tables.split.documents.map fun document => document.id

theorem PagesAdded.none (documentId : Text) (district : Option Text) (tables : IngestionTables) :
    PagesAdded documentId district [] [] tables tables where
  objects := .refl _
  held := .nil
  pages := (List.append_nil _).symm
  keys := id
  told := ⟨[], (List.append_nil _).symm, .nil⟩
  recorded := ⟨[], (List.append_nil _).symm, .nil⟩
  documents := rfl
  batches := rfl
  owned _ hrow := nomatch hrow

theorem PagesAdded.trans {documentId : Text} {district : Option Text}
    {first rest : List SplitPage} {rows rows' : List SplitPageRow}
    {tables tables' tables'' : IngestionTables}
    (h : PagesAdded documentId district first rows tables tables')
    (h' : PagesAdded documentId district rest rows' tables' tables'') :
    PagesAdded documentId district (first ++ rest) (rows ++ rows') tables tables'' := by
  obtain ⟨messages, hmessages, htold⟩ := h.told
  obtain ⟨messages', hmessages', htold'⟩ := h'.told
  obtain ⟨entries, hentries, hrecorded⟩ := h.recorded
  obtain ⟨entries', hentries', hrecorded'⟩ := h'.recorded
  constructor
  · exact h.objects.trans h'.objects
  · exact List.rel_append (h.held.imp fun _ _ hrow => hrow.keep h'.objects) h'.held
  · rw [h'.pages, h.pages, List.append_assoc]
  · exact fun hkeys => h'.keys (h.keys hkeys)
  · exact ⟨messages ++ messages', by rw [hmessages', hmessages, List.append_assoc],
      List.rel_append htold htold'⟩
  · exact ⟨entries ++ entries', by rw [hentries', hentries, List.append_assoc],
      List.rel_append hrecorded hrecorded'⟩
  · rw [h'.documents, h.documents]
  · rw [h'.batches, h.batches]
  · intro row hrow
    rcases List.mem_append.mp hrow with hold | hnew
    · exact h.owned row hold
    · rw [← h.documents]
      exact h'.owned row hnew

theorem addPage_returned {seed : IngestionSeed} {documentId : Text} {district : Option Text}
    {nth : ℕ} {splitPage : SplitPage}
    (h : addPage seed documentId district nth splitPage session = (.returned u, session')) :
    PagesAdded documentId district [splitPage] [newPage ⟨documentId, seed.ids⟩ nth splitPage]
      session.current session'.current := by
  unfold addPage at h
  obtain ⟨key, stored, hstored, h⟩ := Fallible.bind_eq_returned.mp h
  obtain ⟨objects, hobject, hkeeps, hstored⟩ := storePage_returned hstored
  obtain ⟨_, added, hadded, h⟩ := Fallible.bind_eq_returned.mp h
  obtain ⟨hvalid, rfl⟩ := executeWrite_returned hadded
  obtain ⟨_, recorded, hrecorded, h⟩ := Fallible.bind_eq_returned.mp h
  obtain ⟨table, entry, hentry, hrows, rfl⟩ := recordEntry_returned hrecorded
  obtain ⟨_, rfl⟩ := executeWrite_returned h
  rw [hstored] at hvalid hrows ⊢
  rw [SplitWrite.violates, decide_eq_false_iff_not, not_or] at hvalid
  constructor
  · exact hkeeps
  · exact .cons ⟨rfl, rfl, rfl, hobject⟩ .nil
  · rfl
  · intro hkeys
    exact Rows.nodup_append_row hkeys hvalid.1
  · exact ⟨_, rfl, .cons ⟨_, nth, _, rfl, rfl⟩ .nil⟩
  · exact ⟨[entry], hrows, .cons hentry .nil⟩
  · rfl
  · rfl
  · intro row hrow
    rw [List.mem_singleton.mp hrow]
    exact not_not.mp hvalid.2

theorem addPages_returned {seed : IngestionSeed} {documentId : Text} {district : Option Text}
    {nth : ℕ} {splitPages : List SplitPage}
    (h : addPages seed documentId district nth splitPages session = (.returned u, session')) :
    ∃ rows, PagesAdded documentId district splitPages rows session.current session'.current := by
  induction splitPages generalizing nth session with
  | nil =>
    cases h
    exact ⟨[], .none documentId district _⟩
  | cons splitPage rest ih =>
    obtain ⟨_, middle, hfirst, hrest⟩ := Fallible.bind_eq_returned.mp h
    obtain ⟨rows, hrows⟩ := ih hrest
    exact ⟨_, (addPage_returned hfirst).trans hrows⟩

theorem payloadText_returned {name value : Text} {entry : Option Text}
    (h : payloadText name entry session = (.returned value, session')) :
    entry = some value ∧ session' = session := by
  cases entry with
  | none => cases h
  | some found =>
    cases h
    exact ⟨rfl, rfl⟩

theorem openOriginal_returned {fault : Fault IngestionError} {key : Text} {data : Content}
    (h : openOriginal fault key session = (.returned data, session')) :
    session.current.objects key = some data ∧ session' = session := by
  unfold openOriginal at h
  rw [Fallible.read_bind] at h
  cases hheld : session.current.objects key with
  | none =>
    rw [hheld] at h
    cases h
  | some held =>
    rw [hheld] at h
    cases fault with
    | none =>
      cases h
      exact ⟨rfl, rfl⟩
    | raises tookEffect error => cases h
    | crashes tookEffect => cases h

theorem handle_returned {frames : Text → Content → Option (List Content)}
    {message : IngestionMessage} {seed : IngestionSeed} {tables : IngestionTables}
    {result : HandleResult}
    (h : handle frames message seed ⟨tables, tables⟩ = (.returned result, session)) :
    ∃ documentId key mime, message = ⟨some documentId, some key, some mime⟩ ∧
      ((tables.split.pagesOf documentId ≠ [] ∧ session = ⟨tables, tables⟩) ∨
        (tables.split.pagesOf documentId = [] ∧ ∃ original pages rows added,
          tables.objects key = some original ∧ splitStream frames mime original = some pages ∧
          PagesAdded documentId (districtFor tables documentId) pages rows tables added ∧
          session.current = { added with split :=
            (SplitWrite.setPageCount documentId pages.length).apply added.split })) := by
  unfold handle at h
  obtain ⟨documentId, _, hid, h⟩ := Fallible.bind_eq_returned.mp h
  obtain ⟨hdocumentId, rfl⟩ := payloadText_returned hid
  obtain ⟨key, _, hkey, h⟩ := Fallible.bind_eq_returned.mp h
  obtain ⟨hstorageKey, rfl⟩ := payloadText_returned hkey
  obtain ⟨mime, _, hmime, h⟩ := Fallible.bind_eq_returned.mp h
  obtain ⟨hmimeEntry, rfl⟩ := payloadText_returned hmime
  have hmessage : message = ⟨some documentId, some key, some mime⟩ := by
    rw [← hdocumentId, ← hstorageKey, ← hmimeEntry]
  refine ⟨documentId, key, mime, hmessage, ?_⟩
  rw [Fallible.read_bind] at h
  dsimp only at h
  split at h
  · rename_i hsplit
    cases h
    exact .inl ⟨hsplit, rfl⟩
  · rename_i hunsplit
    rw [Fallible.read_bind] at h
    obtain ⟨original, _, hopened, h⟩ := Fallible.bind_eq_returned.mp h
    obtain ⟨horiginal, rfl⟩ := openOriginal_returned hopened
    cases hpages : splitStream frames mime original with
    | none =>
      rw [hpages] at h
      cases h
    | some pages =>
      rw [hpages] at h
      obtain ⟨_, added, hadded, h⟩ := Fallible.bind_eq_returned.mp h
      obtain ⟨rows, hrows⟩ := addPages_returned hadded
      obtain ⟨_, counted, hcounted, h⟩ := Fallible.bind_eq_returned.mp h
      obtain ⟨_, rfl⟩ := executeWrite_returned hcounted
      cases h
      exact .inr ⟨not_not.mp hunsplit, original, pages, rows, added.current, horiginal, hpages, hrows,
        rfl⟩

end Steps

/-! ## What a session that is rolled back leaves -/

structure Stored (tables tables' : IngestionTables) : Prop where
  objects : Keeps tables.objects tables'.objects
  split : tables'.split = tables.split
  backend : tables'.backend = tables.backend

def StoresOnly (tables : IngestionTables) (session : Connection IngestionTables) : Prop :=
  Stored tables session.durable ∧ session.current.objects = session.durable.objects

section Durable

variable {tables : IngestionTables}

theorem preserves_storePage (fault : Fault IngestionError) (data : Content) :
    Fallible.Preserves (StoresOnly tables) (storePage fault data) := by
  intro session hsession
  unfold storePage
  rw [Fallible.read_bind]
  cases hheld : session.current.objects (keyFor (digestOf data)) with
  | some held =>
    have hkept : Fallible.Preserves (StoresOnly tables)
        (if held ≠ data then
          Fallible.raise (.objectAlreadyExistsWithDifferentContent (keyFor (digestOf data)))
        else Fallible.perform fault fun session => (keyFor (digestOf data), session)) := by
      split
      · exact Fallible.triple_raise fun _ h => h
      · exact Fallible.preserves_perform fun _ h => h
    exact hkept session hsession
  | none =>
    have hwritten : StoresOnly tables (writeObject (keyFor (digestOf data)) data session) := by
      have hnone : session.durable.objects (keyFor (digestOf data)) = none :=
        hsession.2 ▸ hheld
      refine ⟨⟨hsession.1.objects.trans (keeps_update hnone), hsession.1.split,
        hsession.1.backend⟩, ?_⟩
      exact congrArg (fun objects : Objects =>
        Function.update objects (keyFor (digestOf data)) (some data)) hsession.2
    have hkept : Fallible.Triple (· = session)
        (Fallible.perform fault fun session =>
          (keyFor (digestOf data), writeObject (keyFor (digestOf data)) data session))
        (fun _ => StoresOnly tables) (fun _ => StoresOnly tables) (StoresOnly tables) := by
      apply Fallible.triple_perform_establishes
      · intro s hs
        exact hs ▸ hsession
      · intro s hs
        exact hs ▸ hwritten
      · exact fun _ _ h => h
    exact hkept session rfl

theorem preserves_openOriginal (fault : Fault IngestionError) (key : Text) :
    Fallible.Preserves (StoresOnly tables) (openOriginal fault key) := by
  apply Fallible.preserves_bind (fun _ h => h)
  intro held
  cases held with
  | none => exact Fallible.triple_raise fun _ h => h
  | some data => exact Fallible.preserves_perform fun _ h => h

theorem preserves_executeWrite (write : SplitWrite) :
    Fallible.Preserves (StoresOnly tables) (executeWrite write) :=
  Fallible.triple_within (R := fun _ => True) Fallible.triple_true (fun _ _ => trivial) (fun _ _ _ h _ => h)
    (fun _ _ _ h _ => h) fun _ _ h _ => h

theorem preserves_recordEntry (stamp : Stamp) (args : AppendArgs) :
    Fallible.Preserves (StoresOnly tables) (recordEntry stamp args) :=
  Fallible.triple_within (R := fun _ => True) Fallible.triple_true (fun _ _ => trivial) (fun _ _ _ h _ => h)
    (fun _ _ _ h _ => h) fun _ _ h _ => h

theorem preserves_addPages (seed : IngestionSeed) (documentId : Text) (district : Option Text)
    (nth : ℕ) (splitPages : List SplitPage) :
    Fallible.Preserves (StoresOnly tables) (addPages seed documentId district nth splitPages) := by
  induction splitPages generalizing nth with
  | nil => exact Fallible.preserves_pure ()
  | cons splitPage rest ih =>
    apply Fallible.preserves_bind
    · apply Fallible.preserves_bind (preserves_storePage _ _)
      intro key
      apply Fallible.preserves_bind (preserves_executeWrite _)
      intro _
      apply Fallible.preserves_bind (preserves_recordEntry _ _)
      intro _
      exact preserves_executeWrite _
    · exact fun _ => ih (nth + 1)

theorem preserves_payloadText (name : Text) (entry : Option Text) :
    Fallible.Preserves (StoresOnly tables) (payloadText name entry) := by
  cases entry with
  | none => exact Fallible.triple_raise fun _ h => h
  | some value => exact Fallible.preserves_pure value

/-- Wherever a handling ends, it has committed objects only. -/
theorem handle_storesOnly (tables : IngestionTables)
    (frames : Text → Content → Option (List Content)) (message : IngestionMessage)
    (seed : IngestionSeed) :
    StoresOnly tables (handle frames message seed ⟨tables, tables⟩).2 := by
  have hpreserves : Fallible.Preserves (StoresOnly tables) (handle frames message seed) := by
    unfold handle
    apply Fallible.preserves_bind (preserves_payloadText _ _)
    intro documentId
    apply Fallible.preserves_bind (preserves_payloadText _ _)
    intro storageKey
    apply Fallible.preserves_bind (preserves_payloadText _ _)
    intro mime
    apply Fallible.preserves_bind (fun _ h => h)
    intro split
    split
    · exact Fallible.preserves_pure _
    · apply Fallible.preserves_bind (fun _ h => h)
      intro district
      apply Fallible.preserves_bind (preserves_openOriginal _ _)
      intro original
      split
      · exact Fallible.triple_raise fun _ h => h
      · apply Fallible.preserves_bind (preserves_addPages _ _ _ _ _)
        intro _
        apply Fallible.preserves_bind (preserves_executeWrite _)
        intro _
        exact Fallible.preserves_pure _
  exact hpreserves.world ⟨⟨.refl _, rfl, rfl⟩, rfl⟩

end Durable

/-! ## What every step keeps -/

structure Grown (tables tables' : IngestionTables) : Prop where
  objects : Keeps tables.objects tables'.objects
  pages : tables'.split.pages = tables.split.pages
  messages : tables'.split.messages = tables.split.messages
  documents : ∃ arrived, tables'.split.documents = tables.split.documents ++ arrived ∧
    ∀ document ∈ arrived, document.pageCount = 0 ∧
      document.id ∉ tables.split.documents.map (fun document => document.id) ∧
      (tables'.backend.batch? document.batchId).isSome = true
  batches : ∃ opened, tables'.backend.batches = tables.backend.batches ++ opened
  rows : tables.backend.audit.rows ⊆ tables'.backend.audit.rows
  entries : ingestedEntries tables' = ingestedEntries tables

section Kept

variable {frames : Text → Content → Option (List Content)} {past : List IngestionMessage}
variable {tables tables' added : IngestionTables} {documentId key mime : Text}
variable {message : IngestionMessage} {pages : List SplitPage} {rows : List SplitPageRow}

theorem Stored.grown (h : Stored tables tables') : Grown tables tables' where
  objects := h.objects
  pages := by rw [h.split]
  messages := by rw [h.split]
  documents := ⟨[], by rw [h.split, List.append_nil], fun _ harrived => nomatch harrived⟩
  batches := ⟨[], by rw [h.backend, List.append_nil]⟩
  rows := by rw [h.backend]; exact List.Subset.refl _
  entries := by rw [ingestedEntries, ingestedEntries, h.backend]

theorem find?_append_left {R : Type} {p : R → Bool} {rows later : List R}
    (h : (rows.find? p).isSome = true) : (rows ++ later).find? p = rows.find? p := by
  obtain ⟨row, hrow⟩ := Option.isSome_iff_exists.mp h
  rw [List.find?_append, hrow, Option.some_or]

theorem document?_isSome (h : documentId ∈ tables.split.documents.map fun document => document.id) :
    (tables.split.document? documentId).isSome = true := by
  obtain ⟨document, hmem, rfl⟩ := List.mem_map.mp h
  exact List.find?_isSome.mpr ⟨document, hmem, decide_eq_true rfl⟩

theorem Grown.districtFor_eq (h : Grown tables tables')
    (howned : documentId ∈ tables.split.documents.map fun document => document.id)
    (hplaced : ∀ document ∈ tables.split.documents,
      (tables.backend.batch? document.batchId).isSome = true) :
    districtFor tables' documentId = districtFor tables documentId := by
  obtain ⟨arrived, harrived, _⟩ := h.documents
  obtain ⟨opened, hopened⟩ := h.batches
  have hdocument : tables'.split.document? documentId = tables.split.document? documentId := by
    unfold Split.document?
    rw [harrived]
    exact find?_append_left (document?_isSome howned)
  unfold districtFor
  rw [hdocument]
  cases hfound : tables.split.document? documentId with
  | none => rfl
  | some document =>
    have hbatch : tables'.backend.batch? document.batchId =
        tables.backend.batch? document.batchId := by
      unfold Backend.Database.batch?
      rw [hopened]
      exact find?_append_left (hplaced document (List.mem_of_find?_eq_some hfound))
    dsimp only [Option.bind_eq_bind, Option.bind_some]
    rw [hbatch]

theorem forall₂_mem_right {α β : Type} {R : α → β → Prop} {as : List α} {bs : List β}
    (h : List.Forall₂ R as bs) : List.Forall₂ (fun a b => b ∈ bs ∧ R a b) as bs := by
  induction h with
  | nil => exact .nil
  | cons hab _ ih =>
    exact .cons ⟨List.mem_cons_self, hab⟩
      (ih.imp fun _ _ hlater => ⟨List.mem_cons_of_mem _ hlater.1, hlater.2⟩)

theorem Grown.pagesOf (h : Grown tables tables') (documentId : Text) :
    tables'.split.pagesOf documentId = tables.split.pagesOf documentId := by
  rw [Split.pagesOf, h.pages, Split.pagesOf]

theorem Grown.extends (h : Grown tables tables') : (splitting frames).Extends tables tables' :=
  splitting_extends h.objects (fun documentId => .inl (h.pagesOf documentId)) h.rows

theorem SplitAsAsked.grown (h : SplitAsAsked frames past tables) (hgrown : Grown tables tables') :
    SplitAsAsked frames past tables' := by
  obtain ⟨arrived, harrived, hnew⟩ := hgrown.documents
  constructor
  · rw [hgrown.pages]
    exact h.keys
  · intro page hpage
    rw [hgrown.pages] at hpage
    obtain ⟨message, hmessage, hdocument, hsplit⟩ := h.asked page hpage
    exact ⟨message, hmessage, hdocument, hsplit.keep hgrown.objects fun documentId _ =>
      hgrown.pagesOf documentId⟩
  · rw [hgrown.messages, hgrown.pages]
    exact h.told
  · rw [hgrown.entries, hgrown.pages]
    apply (forall₂_mem_right h.recorded).imp
    intro entry page hentry
    rw [hgrown.districtFor_eq (h.owned page hentry.1) h.placed]
    exact hentry.2
  · intro page hpage
    rw [hgrown.pages] at hpage
    rw [harrived, List.map_append]
    exact List.mem_append_left _ (h.owned page hpage)
  · intro document hdocument
    rw [harrived] at hdocument
    rw [hgrown.pagesOf]
    rcases List.mem_append.mp hdocument with hold | hlater
    · exact h.counted document hold
    · obtain ⟨hcount, hfresh, _⟩ := hnew document hlater
      have hnone : tables.split.pagesOf document.id = [] := by
        apply List.filter_eq_nil_iff.mpr
        intro page hpage hown
        exact hfresh (of_decide_eq_true hown ▸ h.owned page hpage)
      rw [hcount, hnone, List.length_nil]
  · intro document hdocument
    rw [harrived] at hdocument
    rcases List.mem_append.mp hdocument with hold | hlater
    · obtain ⟨opened, hopened⟩ := hgrown.batches
      have hplaced := h.placed document hold
      unfold Backend.Database.batch? at hplaced ⊢
      rw [hopened, find?_append_left hplaced]
      exact hplaced
    · exact (hnew document hlater).2.2

theorem SplitAsAsked.remember (h : SplitAsAsked frames past tables) (message : IngestionMessage) :
    SplitAsAsked frames (past ++ [message]) tables :=
  ⟨h.keys, fun page hpage => by
    obtain ⟨asked, hasked, hsplit⟩ := h.asked page hpage
    exact ⟨asked, List.mem_append_left _ hasked, hsplit⟩,
    h.told, h.recorded, h.owned, h.counted, h.placed⟩

theorem SplitAsAsked.splitFor (h : SplitAsAsked frames past tables)
    (hsome : tables.split.pagesOf documentId ≠ [])
    (hmessage : message.documentId = some documentId) : SplitFor frames message tables := by
  obtain ⟨page, hpage⟩ := List.exists_mem_of_ne_nil _ hsome
  obtain ⟨hmem, hown⟩ := List.mem_filter.mp hpage
  obtain ⟨asked, _, hasked, hsplit⟩ := h.asked page hmem
  rw [of_decide_eq_true hown, ← hmessage] at hasked
  exact ⟨asked, hasked, hsplit⟩

theorem PagesAdded.document {district : Option Text}
    (h : PagesAdded documentId district pages rows tables added) :
    ∀ row ∈ rows, row.documentId = documentId := by
  have hheld := h.held
  clear h
  induction hheld with
  | nil => exact fun row hrow => nomatch hrow
  | cons hfirst _ ih =>
    intro row hrow
    rcases List.mem_cons.mp hrow with rfl | hlater
    · exact hfirst.document
    · exact ih row hlater

theorem PagesAdded.pagesOf_own {district : Option Text}
    (h : PagesAdded documentId district pages rows tables added)
    (hnone : tables.split.pagesOf documentId = []) : added.split.pagesOf documentId = rows := by
  have hown : rows.filter (fun row => row.documentId = documentId) = rows :=
    List.filter_eq_self.mpr fun row hrow => decide_eq_true (h.document row hrow)
  unfold Split.pagesOf at hnone ⊢
  rw [h.pages, List.filter_append, hnone, List.nil_append, hown]

theorem PagesAdded.pagesOf_other {district : Option Text} {other : Text}
    (h : PagesAdded documentId district pages rows tables added) (hother : other ≠ documentId) :
    added.split.pagesOf other = tables.split.pagesOf other := by
  have hforeign : rows.filter (fun row => row.documentId = other) = [] := by
    apply List.filter_eq_nil_iff.mpr
    intro row hrow hsame
    exact hother ((of_decide_eq_true hsame).symm.trans (h.document row hrow))
  unfold Split.pagesOf
  rw [h.pages, List.filter_append, hforeign, List.append_nil]

theorem PagesAdded.ingestedEntries {district : Option Text}
    (h : PagesAdded documentId district pages rows tables added) :
    ∃ entries, ingestedEntries added = Ingest.ingestedEntries tables ++ entries ∧
      List.Forall₂ (fun entry (row : SplitPageRow) =>
        Backend.Recorded entry (recordPageIngested row.id district)) entries rows := by
  obtain ⟨entries, hentries, hrecorded⟩ := h.recorded
  refine ⟨entries, ?_, hrecorded⟩
  have hall : entries.filter (fun entry => entry.action = pageIngested) = entries := by
    apply List.filter_eq_self.mpr
    clear hentries h
    induction hrecorded with
    | nil => exact fun entry hentry => nomatch hentry
    | cons hfirst _ ih =>
      intro entry hentry
      rcases List.mem_cons.mp hentry with rfl | hlater
      · exact decide_eq_true hfirst.action
      · exact ih entry hlater
  rw [Ingest.ingestedEntries, hentries, List.filter_append, hall]
  rfl

def IngestionTables.withCount (documentId : Text) (count : ℕ) (tables : IngestionTables) :
    IngestionTables :=
  { tables with split := (SplitWrite.setPageCount documentId count).apply tables.split }

theorem districtFor_withCount (count : ℕ) (other : Text) :
    districtFor (tables.withCount documentId count) other = districtFor tables other := by
  have hdocument : (tables.withCount documentId count).split.document? other =
      (tables.split.document? other).map fun document =>
        if document.id = documentId then { document with pageCount := count } else document := by
    change (Rows.updateAt (fun document => document.id) documentId
      (fun document => { document with pageCount := count }) tables.split.documents).find?
        (fun document => document.id = other) = _
    rw [Rows.find?_updateAt]
    · rfl
    · exact fun _ => rfl
  unfold districtFor
  rw [hdocument]
  cases tables.split.document? other with
  | none => rfl
  | some document =>
    dsimp only [Option.bind_eq_bind, Option.map_some, Option.bind_some]
    split <;> rfl

theorem PagesAdded.districtFor {district : Option Text}
    (h : PagesAdded documentId district pages rows tables added) (other : Text) :
    districtFor added other = Ingest.districtFor tables other := by
  unfold Ingest.districtFor Split.document? Backend.Database.batch?
  rw [h.documents, h.batches]

theorem PagesAdded.splitFrom {district : Option Text} {original : Content}
    (h : PagesAdded documentId district pages rows tables added)
    (hnone : tables.split.pagesOf documentId = []) (horiginal : tables.objects key = some original)
    (hpages : splitStream frames mime original = some pages) :
    SplitFrom frames ⟨some documentId, some key, some mime⟩
      (added.withCount documentId pages.length) := by
  refine ⟨documentId, key, mime, original, pages, rfl, h.objects _ _ horiginal, hpages, ?_⟩
  have hrows : (added.withCount documentId pages.length).split.pagesOf documentId = rows :=
    h.pagesOf_own hnone
  rw [hrows]
  exact h.held

theorem SplitAsAsked.split {original : Content} (h : SplitAsAsked frames past tables)
    (hadded : PagesAdded documentId (districtFor tables documentId) pages rows tables added)
    (hnone : tables.split.pagesOf documentId = []) (horiginal : tables.objects key = some original)
    (hpages : splitStream frames mime original = some pages) :
    SplitAsAsked frames (past ++ [⟨some documentId, some key, some mime⟩])
      (added.withCount documentId pages.length) := by
  have hsplit := hadded.splitFrom hnone horiginal hpages
  obtain ⟨messages, hmessages, htold⟩ := hadded.told
  obtain ⟨entries, hentries, hrecorded⟩ := hadded.ingestedEntries
  have hdistrict (other : Text) : districtFor (added.withCount documentId pages.length) other =
      districtFor tables other :=
    (districtFor_withCount pages.length other).trans (hadded.districtFor other)
  have hids : (added.withCount documentId pages.length).split.documents.map
      (fun document => document.id) = tables.split.documents.map fun document => document.id := by
    rw [← hadded.documents]
    change (Rows.updateAt (fun document => document.id) documentId
      (fun document => { document with pageCount := pages.length }) added.split.documents).map
        (fun document => document.id) = _
    rw [Rows.map_updateAt]
    exact fun _ => rfl
  have hdocuments : ∀ document ∈ (added.withCount documentId pages.length).split.documents,
      ∃ before ∈ tables.split.documents, document =
        if before.id = documentId then { before with pageCount := pages.length } else before := by
    intro document hdocument
    obtain ⟨before, hbefore, hsame⟩ := List.mem_map.mp hdocument
    rw [hadded.documents] at hbefore
    exact ⟨before, hbefore, hsame.symm⟩
  constructor
  · exact hadded.keys h.keys
  · intro page hpage
    have hpage : page ∈ tables.split.pages ++ rows := hadded.pages ▸ hpage
    rcases List.mem_append.mp hpage with hold | hnew
    · obtain ⟨message, hmessage, hdocument, hfrom⟩ := h.asked page hold
      have hother : page.documentId ≠ documentId := by
        intro hsame
        have hmem : page ∈ tables.split.pagesOf documentId :=
          List.mem_filter.mpr ⟨hold, decide_eq_true hsame⟩
        rw [hnone] at hmem
        cases hmem
      refine ⟨message, List.mem_append_left _ hmessage, hdocument,
        hfrom.keep hadded.objects fun other hasked => ?_⟩
      rw [hdocument] at hasked
      rw [← Option.some.inj hasked]
      exact hadded.pagesOf_other hother
    · exact ⟨_, List.mem_append_right _ List.mem_cons_self,
        congrArg some (hadded.document page hnew).symm, hsplit⟩
  · change List.Forall₂ Tells added.split.messages added.split.pages
    rw [hmessages, hadded.pages]
    exact List.rel_append h.told htold
  · change List.Forall₂ _ (ingestedEntries added) added.split.pages
    rw [hentries, hadded.pages]
    apply List.rel_append
    · apply h.recorded.imp
      intro entry page hentry
      rw [hdistrict]
      exact hentry
    · apply (forall₂_mem_right hrecorded).imp
      intro entry page hentry
      rw [hdistrict, hadded.document page hentry.1]
      exact hentry.2
  · intro page hpage
    rw [hids]
    have hpage : page ∈ tables.split.pages ++ rows := hadded.pages ▸ hpage
    rcases List.mem_append.mp hpage with hold | hnew
    · exact h.owned page hold
    · exact hadded.owned page hnew
  · intro document hdocument
    obtain ⟨before, hbefore, rfl⟩ := hdocuments document hdocument
    change _ = (added.split.pagesOf _).length
    by_cases hown : before.id = documentId
    · rw [if_pos hown, hown, hadded.pagesOf_own hnone, hadded.held.length_eq]
    · rw [if_neg hown, hadded.pagesOf_other hown]
      exact h.counted before hbefore
  · intro document hdocument
    obtain ⟨before, hbefore, rfl⟩ := hdocuments document hdocument
    have hbatch := h.placed before hbefore
    have hbatches : added.backend.batch? before.batchId = tables.backend.batch? before.batchId := by
      unfold Backend.Database.batch?
      rw [hadded.batches]
    have hsame : (if before.id = documentId then { before with pageCount := pages.length }
        else before).batchId = before.batchId := by
      split <;> rfl
    rw [hsame]
    change (added.backend.batch? before.batchId).isSome = true
    rw [hbatches]
    exact hbatch

theorem PagesAdded.extends {district : Option Text} {original : Content}
    {durable : IngestionTables} (h : PagesAdded documentId district pages rows tables added)
    (hstored : Stored tables durable) (hobjects : added.objects = durable.objects)
    (hnone : tables.split.pagesOf documentId = []) (horiginal : tables.objects key = some original)
    (hpages : splitStream frames mime original = some pages) :
    (splitting frames).Extends durable (added.withCount documentId pages.length) := by
  apply splitting_extends
  · change Keeps durable.objects added.objects
    rw [hobjects]
    exact .refl _
  · intro other
    by_cases hown : other = documentId
    · exact .inr ⟨_, congrArg some hown.symm, h.splitFrom hnone horiginal hpages⟩
    · rw [hstored.split]
      exact .inl (h.pagesOf_other hown)
  · obtain ⟨entries, hentries, _⟩ := h.recorded
    change durable.backend.audit.rows ⊆ added.backend.audit.rows
    rw [hstored.backend, hentries]
    exact List.subset_append_left _ _

end Kept

theorem Grown.refl (tables : IngestionTables) : Grown tables tables :=
  Stored.grown ⟨.refl _, rfl, rfl⟩

theorem appendLetter_grown (tables : IngestionTables) (stamp : Stamp) {args : AppendArgs}
    (hforeign : args.action ≠ pageIngested) :
    Grown tables (appendLetter stamp args tables).2 ∧
      ((appendLetter stamp args tables).1 = .returned () →
        ∃ entry ∈ (appendLetter stamp args tables).2.backend.audit.rows,
          Backend.Recorded entry args) := by
  cases hrun : appendLetter stamp args tables with
  | mk exit after =>
    cases exit with
    | returned u =>
      obtain ⟨backend, happended, rfl⟩ := Fallible.within_returned.mp hrun
      obtain ⟨htable, entries, hrows, hrecorded⟩ := Backend.auditAppend_returned happended
      cases hrecorded with
      | @cons entry _ _ _ hentry hnone =>
        cases hnone
        refine ⟨⟨.refl _, rfl, rfl, ⟨[], (List.append_nil _).symm, fun _ h => nomatch h⟩, ?_, ?_,
          ?_⟩, fun _ => ⟨entry, ?_, hentry⟩⟩
        · refine ⟨[], ?_⟩
          rw [htable, List.append_nil]
          rfl
        · rw [hrows]
          exact List.subset_append_left _ _
        · have hother : [entry].filter (fun entry => entry.action = pageIngested) = [] :=
            List.filter_cons_of_neg fun hsame =>
              hforeign (hentry.action.symm.trans (of_decide_eq_true hsame))
          unfold ingestedEntries
          rw [hrows, List.filter_append, hother, List.append_nil]
        · rw [hrows]
          exact List.mem_append_right _ List.mem_cons_self
    | raised e =>
      have hsame : after = tables := by
        unfold appendLetter Fallible.within Backend.auditAppend at hrun
        split at hrun
        · rename_i hreturned
          cases hrun
        · rename_i hraised
          split at hraised
          · cases hraised
            cases hrun
            rfl
          · cases hraised
        · cases hrun
      subst hsame
      exact ⟨.refl _, fun hreturned => nomatch hreturned⟩
    | crashed =>
      unfold appendLetter Fallible.within Backend.auditAppend at hrun
      split at hrun
      · cases hrun
      · cases hrun
      · rename_i hcrashed
        split at hcrashed
        · cases hcrashed
        · cases hcrashed

theorem CustodyWrite.apply_grown (tables : IngestionTables) (write : CustodyWrite) :
    Grown tables (write.apply tables) := by
  cases write with
  | batch row =>
    unfold CustodyWrite.apply
    dsimp only
    split
    · exact .refl _
    · exact ⟨.refl _, rfl, rfl, ⟨[], (List.append_nil _).symm, fun _ h => nomatch h⟩, ⟨[row], rfl⟩,
        List.Subset.refl _, rfl⟩
  | document upload =>
    unfold CustodyWrite.apply
    dsimp only
    split
    · rename_i htakes
      unfold IngestionTables.takesUpload at htakes
      rw [Bool.and_eq_true, Bool.and_eq_true] at htakes
      refine ⟨?_, rfl, rfl, ⟨[newDocument upload], rfl, ?_⟩, ⟨[], (List.append_nil _).symm⟩,
        List.Subset.refl _, rfl⟩
      · cases hheld : tables.objects (putStream upload.content).key with
        | none => exact keeps_update hheld
        | some held =>
          have hsame := htakes.1.1
          rw [hheld, Option.all_some, decide_eq_true_eq] at hsame
          intro other data hdata
          change Function.update tables.objects _ _ other = some data
          by_cases hother : other = (putStream upload.content).key
          · rw [hother, Function.update_self, ← hsame, ← hheld, ← hother, hdata]
          · rw [Function.update_of_ne hother, hdata]
      · intro document hdocument
        rw [List.mem_singleton.mp hdocument]
        exact ⟨rfl, of_decide_eq_true htakes.1.2, htakes.2⟩
    · exact .refl _
  | entry stamp args =>
    unfold CustodyWrite.apply
    dsimp only
    split
    · exact .refl _
    · rename_i hforeign
      exact (appendLetter_grown tables stamp hforeign).1

end LandRecords.Ingest
