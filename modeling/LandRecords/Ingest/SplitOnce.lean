import LandRecords.Ingest.PageSplit

/-! Documents are split once exactly as long as no handling commits pages of a document
that has got its pages in the meantime. -/
namespace LandRecords.Ingest

open Datetime Outbox ReadCommitted Text

variable {originals : Originals} {v : SplitCommits} {txn : Txn SplitLocals SplitWrite}

def additions (created : Created) : List SplitWrite :=
  created.flatMap fun added => [.addPage added.1, .addMessage added.2]

def SplitPhase.writes (documentId : Text) : SplitPhase → List SplitWrite
  | .splitting _ created _ => additions created
  | .pageAdded _ created page _ => additions created ++ [.addPage page]
  | .finished created true _ => additions created ++ [.setPageCount documentId created.length]
  | .finished created false _ => additions created
  | _ => []

def SplitPhase.pages : SplitPhase → List SplitPageRow
  | .pageAdded _ created page _ => created.map Prod.fst ++ [page]
  | phase => phase.created.map Prod.fst

def SplitPhase.rest : SplitPhase → List SplitPage
  | .splitting _ _ rest | .pageAdded _ _ _ rest => rest
  | _ => []

def SplitPhase.started : SplitPhase → Bool
  | .splitting _ _ _ | .pageAdded _ _ _ _ | .finished _ _ _ => true
  | _ => false

def CountedAs (db : Split) (documentId : Text) (count : Nat) : Prop :=
  ∀ document ∈ db.document? documentId, document.pageCount = count

def SplitPhase.Knows (db : Split) (documentId : Text) (total : Nat) : SplitPhase → Prop
  | .alreadySplit _ => db.pagesOf documentId ≠ []
  | .splitting document _ _ | .pageAdded document _ _ _ =>
      ∀ loaded ∈ document, loaded.pageCount = total → CountedAs db documentId total
  | .finished _ false _ => CountedAs db documentId total
  | _ => True

structure SplitProgress (originals : Originals) (v : SplitCommits)
    (txn : Txn SplitLocals SplitWrite) : Prop where
  writes : txn.writes = txn.locals.phase.writes txn.locals.handling.documentId
  index : txn.locals.phase.started = true →
    txn.locals.phase.pages.map (fun page => page.index) ++
        txn.locals.phase.rest.map SplitPage.index =
      List.range (originals.total txn.locals.handling.documentId)
  document : ∀ page ∈ txn.locals.phase.pages, page.documentId = txn.locals.handling.documentId
  keys : (txn.locals.phase.pages.map fun page => page.id).Nodup
  paired : ∀ added ∈ txn.locals.phase.created,
    added.2.queue = triageQueue ∧ added.2.envelope.payload.id = added.1.id
  fresh : ∀ page ∈ txn.locals.phase.pages, page.id ∉ v.committed.pages.map fun page => page.id
  knows : txn.locals.phase.Knows v.committed txn.locals.handling.documentId
    (originals.total txn.locals.handling.documentId)

structure SplitKept (originals : Originals) (v : SplitCommits) : Prop where
  once : (v.committed.pages.map fun page => (page.documentId, page.index)).Nodup
  keys : (v.committed.pages.map fun page => page.id).Nodup
  paired : (v.committed.messages.map fun message => message.envelope.payload.id) =
    v.committed.pages.map fun page => page.id
  queues : ∀ message ∈ v.committed.messages, message.queue = triageQueue
  first : ∀ page ∈ v.committed.pages, ∃ other ∈ v.committed.pages,
    other.documentId = page.documentId ∧ other.index = 0
  handled : ∀ page ∈ v.committed.pages,
    page.documentId ∈ v.log.map fun locals => locals.handling.documentId
  complete : ∀ locals ∈ v.log,
    (v.committed.pagesOf locals.handling.documentId).length =
        originals.total locals.handling.documentId ∧
      CountedAs v.committed locals.handling.documentId
        (originals.total locals.handling.documentId)

section Contents

theorem SplitKept.triageMessagesFor_length (h : SplitKept originals v) {page : SplitPageRow}
    (hpage : page ∈ v.committed.pages) : (triageMessagesFor v.committed page).length = 1 := by
  have hown : ∀ message ∈ v.committed.messages,
      (decide (message.queue = triageQueue) && decide (message.envelope.payload.id = page.id)) =
        decide (message.envelope.payload.id = page.id) := by
    intro message hmessage
    rw [decide_eq_true (h.queues message hmessage), Bool.true_and]
  rw [triageMessagesFor, List.filter_congr hown]
  have hone := Rows.length_filter_paired h.keys h.paired hpage
  exact hone

theorem SplitKept.splitOnce (h : SplitKept originals v) : SplitOnce v := by
  refine ⟨h.once, fun _ hpage => h.triageMessagesFor_length hpage, ?_, ?_⟩
  · intro message hmessage
    have hid := List.mem_map_of_mem (f := fun message : TriageMessage =>
      message.envelope.payload.id) hmessage
    rw [h.paired] at hid
    obtain ⟨page, hpage, hsame⟩ := List.mem_map.mp hid
    exact ⟨page, hpage, hsame.symm⟩
  · intro locals hlocals document hdocument
    obtain ⟨hpages, hcount⟩ := h.complete locals hlocals
    rw [hpages]
    exact hcount document hdocument

end Contents

section Views

theorem view_additions (created : Created) (db : Split) :
    (additions created).foldl (fun db write => write.apply db) db =
      { db with
        pages := db.pages ++ created.map Prod.fst
        messages := db.messages ++ created.map Prod.snd } := by
  induction created generalizing db with
  | nil => simp [additions]
  | cons added created ih =>
    refine (ih _).trans ?_
    simp [SplitWrite.apply]

def SplitPhase.documents (documentId : Text) : SplitPhase → List StoredDocument → List StoredDocument
  | .finished created true _ => setPageCount documentId created.length
  | _ => id

theorem apply_writes (documentId : Text) (phase : SplitPhase) (db : Split) :
    (phase.writes documentId).foldl (fun db write => write.apply db) db =
      { documents := phase.documents documentId db.documents
        pages := db.pages ++ phase.pages
        messages := db.messages ++ phase.created.map Prod.snd } := by
  cases phase with
  | splitting document created rest => exact view_additions created db
  | pageAdded document created page rest =>
    rw [SplitPhase.writes, List.foldl_append, view_additions]
    simp [SplitWrite.apply, SplitPhase.pages, SplitPhase.documents, SplitPhase.created]
  | finished created counted result =>
    cases counted with
    | false => exact view_additions created db
    | true =>
      rw [SplitPhase.writes, List.foldl_append, view_additions]
      rfl
  | _ => simp [SplitPhase.writes, SplitPhase.documents, SplitPhase.pages, SplitPhase.created]

theorem SplitProgress.view_eq (h : SplitProgress originals v txn) :
    view (handlings originals) txn v.committed =
      { documents :=
          txn.locals.phase.documents txn.locals.handling.documentId v.committed.documents
        pages := v.committed.pages ++ txn.locals.phase.pages
        messages := v.committed.messages ++ txn.locals.phase.created.map Prod.snd } := by
  rw [view, h.writes]
  exact apply_writes ..

theorem Split.document?_id {db : Split} {id : Text} {document : StoredDocument}
    (h : db.document? id = some document) : document.id = id := by
  unfold Split.document? at h
  have hfound := Rows.find?_key h
  exact hfound

theorem document?_documents (documentId : Text) (phase : SplitPhase) (db : Split) (id : Text)
    (pages : List SplitPageRow) (messages : List TriageMessage) :
    Split.document? ⟨phase.documents documentId db.documents, pages, messages⟩ id =
      (db.document? id).map fun document =>
        match phase with
        | .finished created true _ =>
            if document.id = documentId then { document with pageCount := created.length }
            else document
        | _ => document := by
  cases phase with
  | finished created counted result =>
    cases counted with
    | true =>
      have hid : ∀ document : StoredDocument,
          ({ document with pageCount := created.length } : StoredDocument).id = document.id :=
        fun _ => rfl
      exact Rows.find?_updateAt hid db.documents documentId id
    | false => exact (Option.map_id' ..).symm
  | _ => exact (Option.map_id' ..).symm

theorem CountedAs.documents {db : Split} {documentId id : Text} {phase : SplitPhase}
    {pages : List SplitPageRow} {messages : List TriageMessage}
    (h : CountedAs db id (originals.total id))
    (hcreated : ∀ created result, phase = .finished created true result →
      created.length = originals.total documentId) :
    CountedAs ⟨phase.documents documentId db.documents, pages, messages⟩ id
      (originals.total id) := by
  intro document hdocument
  rw [document?_documents, Option.mem_def, Option.map_eq_some_iff] at hdocument
  obtain ⟨before, hbefore, rfl⟩ := hdocument
  have hbeforeId := Split.document?_id hbefore
  have hcount := h before hbefore
  split
  · split
    · rename_i created result hown
      rw [← hbeforeId, hown]
      exact hcreated created result rfl
    · exact hcount
  · exact hcount

theorem countedAs_set {db : Split} {documentId : Text} {created : Created} {result : HandleResult}
    {pages : List SplitPageRow} {messages : List TriageMessage} :
    CountedAs ⟨(SplitPhase.finished created true result).documents documentId db.documents, pages,
      messages⟩ documentId created.length := by
  intro document hdocument
  rw [document?_documents, Option.mem_def, Option.map_eq_some_iff] at hdocument
  obtain ⟨before, hbefore, rfl⟩ := hdocument
  have hbeforeId := Split.document?_id hbefore
  simp only [if_pos hbeforeId]

end Views

section Statements

variable {handling : Handling} {now : Instant} {db : Split} {phase : SplitPhase}
variable {write : Option SplitWrite}

theorem SplitLocals.statement_next {locals locals' : SplitLocals}
    (h : locals.statement originals now db = .next locals' write) :
    handleStatement originals locals.handling now db locals.phase = .next locals'.phase write ∧
      locals' = ⟨locals.handling, locals'.phase⟩ := by
  unfold SplitLocals.statement at h
  split at h
  · cases h
  · cases h
  · rename_i phase update hhandle
    cases h
    exact ⟨hhandle, rfl⟩

theorem handleStatement_received
    (h : handleStatement originals handling now db .received = .next phase write) :
    write = none ∧ (phase = .unsplit ∨
      ∃ result, phase = .alreadySplit result ∧ db.pagesOf handling.documentId ≠ []) := by
  simp only [handleStatement] at h
  split at h
  · rename_i hpages
    cases h
    exact ⟨rfl, .inr ⟨_, rfl, hpages⟩⟩
  · cases h
    exact ⟨rfl, .inl rfl⟩

theorem handleStatement_unsplit
    (h : handleStatement originals handling now db .unsplit = .next phase write) :
    write = none ∧ ∃ pages, phase = .splitting (db.document? handling.documentId) [] pages ∧
      pages.map SplitPage.index = List.range (originals.total handling.documentId) := by
  simp only [handleStatement] at h
  split at h
  · cases h
  · rename_i pages hpages
    cases h
    refine ⟨rfl, pages, rfl, ?_⟩
    obtain ⟨data, -, hsplit⟩ := Option.bind_eq_some_iff.mp hpages
    rw [splitStream_index hsplit, Originals.total, hpages, Option.getD_some]

theorem handleStatement_split {document : Option StoredDocument} {created : Created}
    (h : handleStatement originals handling now db (.splitting document created []) =
      .next phase write) :
    ∃ result, (phase = .finished created false result ∧ write = none ∧
        ∀ loaded ∈ document.or (db.document? handling.documentId),
          loaded.pageCount = created.length) ∨
      (phase = .finished created true result ∧
        write = some (.setPageCount handling.documentId created.length)) := by
  simp only [handleStatement] at h
  split at h
  · rename_i hnone
    cases h
    refine ⟨_, .inl ⟨rfl, rfl, fun loaded hloaded => ?_⟩⟩
    rw [hnone] at hloaded
    cases hloaded
  · rename_i loaded hloaded
    split at h
    · rename_i hcount
      cases h
      refine ⟨_, .inl ⟨rfl, rfl, fun other hother => ?_⟩⟩
      rw [← Option.some.inj (hloaded.symm.trans hother)]
      exact hcount
    · cases h
      exact ⟨_, .inr ⟨rfl, rfl⟩⟩

theorem SplitProgress.pageAdded {document : Option StoredDocument} {created : Created}
    {splitPage : SplitPage} {rest : List SplitPage} {writes : List SplitWrite}
    (h : SplitProgress originals v ⟨⟨handling, .splitting document created (splitPage :: rest)⟩, writes⟩)
    (hfresh : (newPage handling created.length splitPage).id ∉
      (v.committed.pages ++ created.map Prod.fst).map fun page => page.id) :
    SplitProgress originals v
      ⟨⟨handling, .pageAdded document created (newPage handling created.length splitPage) rest⟩,
        writes ++ [.addPage (newPage handling created.length splitPage)]⟩ := by
  rw [List.map_append, List.mem_append, not_or] at hfresh
  refine ⟨?_, fun _ => ?_, fun page hpage => ?_, ?_, h.paired, fun page hpage => ?_, h.knows⟩
  · exact congrArg (fun before => before ++ [_]) h.writes
  · simpa [SplitPhase.pages, SplitPhase.created, SplitPhase.rest, newPage] using h.index rfl
  · rcases List.mem_append.mp hpage with hold | hnew
    · exact h.document page hold
    · rw [List.mem_singleton.mp hnew]
      rfl
  · exact Rows.nodup_append_row h.keys hfresh.2
  · rcases List.mem_append.mp hpage with hold | hnew
    · exact h.fresh page hold
    · rw [List.mem_singleton.mp hnew]
      exact hfresh.1

theorem SplitProgress.messageAdded {document : Option StoredDocument} {created : Created}
    {page : SplitPageRow} {rest : List SplitPage} {writes : List SplitWrite} {now : Instant}
    (h : SplitProgress originals v ⟨⟨handling, .pageAdded document created page rest⟩, writes⟩) :
    SplitProgress originals v
      ⟨⟨handling, .splitting document
        (created ++ [(page, triageMessage handling created.length page now)]) rest⟩,
        writes ++ [.addMessage (triageMessage handling created.length page now)]⟩ := by
  have hpages : (SplitPhase.splitting document
      (created ++ [(page, triageMessage handling created.length page now)]) rest).pages =
      (SplitPhase.pageAdded document created page rest).pages := by
    simp [SplitPhase.pages, SplitPhase.created]
  refine ⟨?_, fun _ => hpages ▸ h.index rfl, hpages ▸ h.document, hpages ▸ h.keys,
    fun added hadded => ?_, hpages ▸ h.fresh, h.knows⟩
  · refine (congrArg (fun before => before ++ [_]) h.writes).trans ?_
    simp [SplitPhase.writes, additions]
  · rcases List.mem_append.mp hadded with hold | hnew
    · exact h.paired added hold
    · rw [List.mem_singleton.mp hnew]
      exact ⟨rfl, rfl⟩

theorem SplitProgress.pages_index (h : SplitProgress originals v txn)
    (hstarted : txn.locals.phase.started = true) (hrest : txn.locals.phase.rest = []) :
    txn.locals.phase.pages.map (fun page => page.index) =
      List.range (originals.total txn.locals.handling.documentId) := by
  have hindex := h.index hstarted
  rwa [hrest, List.map_nil, List.append_nil] at hindex

theorem SplitProgress.pages_length (h : SplitProgress originals v txn)
    (hstarted : txn.locals.phase.started = true) (hrest : txn.locals.phase.rest = []) :
    txn.locals.phase.pages.length = originals.total txn.locals.handling.documentId := by
  have hlength := congrArg List.length (h.pages_index hstarted hrest)
  rwa [List.length_map, List.length_range] at hlength

theorem SplitProgress.counted {document : Option StoredDocument} {created : Created}
    {writes : List SplitWrite}
    (h : SplitProgress originals v ⟨⟨handling, .splitting document created []⟩, writes⟩)
    (hcount : ∀ loaded ∈ document.or (v.committed.document? handling.documentId),
      loaded.pageCount = originals.total handling.documentId) :
    CountedAs v.committed handling.documentId (originals.total handling.documentId) := by
  cases document with
  | none => exact hcount
  | some loaded => exact h.knows loaded rfl (hcount loaded rfl)

theorem SplitProgress.next (h : SplitProgress originals v txn) {locals : SplitLocals}
    (hnext : txn.locals.statement originals v.now (view (handlings originals) txn v.committed) =
      .next locals write)
    (hvalid : ∀ update ∈ write,
      update.violates (view (handlings originals) txn v.committed) = false) :
    SplitProgress originals v ⟨locals, txn.writes ++ write.toList⟩ := by
  rw [h.view_eq] at hnext hvalid
  obtain ⟨⟨handling, phase⟩, writes⟩ := txn
  obtain ⟨hhandle, hlocals⟩ := SplitLocals.statement_next hnext
  obtain rfl : writes = phase.writes handling.documentId := h.writes
  rw [hlocals]
  cases phase with
  | received =>
    obtain ⟨rfl, hphase | ⟨result, hphase, hpages⟩⟩ := handleStatement_received hhandle
    · rw [hphase]
      exact ⟨rfl, (fun h => nomatch h), (fun _ h => nomatch h), List.nodup_nil,
        (fun _ h => nomatch h), (fun _ h => nomatch h), trivial⟩
    · rw [hphase]
      refine ⟨rfl, (fun h => nomatch h), (fun _ h => nomatch h), List.nodup_nil,
        (fun _ h => nomatch h), (fun _ h => nomatch h), ?_⟩
      change v.committed.pagesOf handling.documentId ≠ []
      simpa only [Split.pagesOf, SplitPhase.pages, SplitPhase.created, List.map_nil,
        List.append_nil] using hpages
  | unsplit =>
    obtain ⟨rfl, pages, hphase, hindex⟩ := handleStatement_unsplit hhandle
    rw [hphase]
    refine ⟨rfl, fun _ => hindex, (fun _ h => nomatch h), List.nodup_nil,
      (fun _ h => nomatch h), (fun _ h => nomatch h), fun loaded hloaded hcount document hdocument => ?_⟩
    rw [← Option.some.inj (hloaded.symm.trans hdocument)]
    exact hcount
  | splitting document created rest =>
    cases rest with
    | cons splitPage rest =>
      cases hnext
      exact h.pageAdded (not_or.mp (of_decide_eq_false (hvalid _ rfl))).1
    | nil =>
      have hlength : created.length = originals.total handling.documentId :=
        (List.length_map Prod.fst).symm.trans (h.pages_length rfl rfl)
      obtain ⟨result, ⟨hphase, rfl, hcount⟩ | ⟨hphase, rfl⟩⟩ := handleStatement_split hhandle
      · rw [hlength] at hcount
        rw [hphase]
        exact ⟨List.append_nil _, h.index, h.document, h.keys, h.paired, h.fresh,
          h.counted hcount⟩
      · rw [hphase]
        exact ⟨rfl, h.index, h.document, h.keys, h.paired, h.fresh, trivial⟩
  | pageAdded document created page rest =>
    cases hnext
    exact h.messageAdded
  | alreadySplit result => cases hhandle
  | finished created counted result => cases hhandle

end Statements

section Publishes

theorem SplitLocals.statement_done {locals : SplitLocals} {now : Instant} {db : Split}
    (h : locals.statement originals now db = .done) :
    (∃ result, locals.phase = .alreadySplit result) ∨
      ∃ created counted result, locals.phase = .finished created counted result := by
  obtain ⟨handling, phase⟩ := locals
  cases phase with
  | alreadySplit result => exact .inl ⟨result, rfl⟩
  | finished created counted result => exact .inr ⟨created, counted, result, rfl⟩
  | _ =>
    unfold SplitLocals.statement handleStatement at h
    grind

theorem SplitProgress.sets (h : SplitProgress originals v txn) (created : Created)
    (result : HandleResult) (hphase : txn.locals.phase = .finished created true result) :
    created.length = originals.total txn.locals.handling.documentId := by
  have hlength := h.pages_length (by rw [hphase]; rfl) (by rw [hphase]; rfl)
  rw [hphase] at hlength
  exact (List.length_map Prod.fst).symm.trans hlength

theorem pagesOf_publish (h : SplitProgress originals v txn) (documentId : Text) :
    (publish (handlings originals) txn v).committed.pagesOf documentId =
      v.committed.pagesOf documentId ++
        if txn.locals.handling.documentId = documentId then txn.locals.phase.pages else [] := by
  rw [publish, h.view_eq, Split.pagesOf, List.filter_append]
  apply congrArg
  split
  · rename_i hown
    apply List.filter_eq_self.mpr
    exact fun page hpage => decide_eq_true ((h.document page hpage).trans hown)
  · rename_i hother
    apply List.filter_eq_nil_iff.mpr
    exact fun page hpage hsame => hother ((h.document page hpage).symm.trans (of_decide_eq_true hsame))

theorem CountedAs.publish (h : SplitProgress originals v txn) {documentId : Text}
    (hcount : CountedAs v.committed documentId (originals.total documentId)) :
    CountedAs (publish (handlings originals) txn v).committed documentId
      (originals.total documentId) := by
  rw [ReadCommitted.publish, h.view_eq]
  exact hcount.documents h.sets

theorem SplitProgress.countedAs (h : SplitProgress originals v txn) {created : Created}
    {counted : Bool} {result : HandleResult}
    (hphase : txn.locals.phase = .finished created counted result) :
    CountedAs (publish (handlings originals) txn v).committed txn.locals.handling.documentId
      (originals.total txn.locals.handling.documentId) := by
  cases counted with
  | false =>
    have hknows := h.knows
    rw [hphase] at hknows
    exact CountedAs.publish h hknows
  | true =>
    rw [← h.sets created result hphase, publish, h.view_eq, hphase]
    exact countedAs_set

theorem SplitProgress.first (h : SplitProgress originals v txn) {created : Created}
    {counted : Bool} {result : HandleResult}
    (hphase : txn.locals.phase = .finished created counted result)
    {page : SplitPageRow} (hpage : page ∈ txn.locals.phase.pages) :
    ∃ other ∈ txn.locals.phase.pages, other.index = 0 := by
  have hlength := h.pages_length (by rw [hphase]; rfl) (by rw [hphase]; rfl)
  have hzero : 0 ∈ List.range (originals.total txn.locals.handling.documentId) :=
    List.mem_range.mpr (hlength ▸ List.length_pos_of_mem hpage)
  rw [← h.pages_index (by rw [hphase]; rfl) (by rw [hphase]; rfl)] at hzero
  exact List.mem_map.mp hzero

theorem SplitKept.unsplit (hkept : SplitKept originals v) (h : SplitProgress originals v txn)
    {created : Created} {counted : Bool} {result : HandleResult}
    (hphase : txn.locals.phase = .finished created counted result) (hunsplit : StillUnsplit v txn) :
    v.committed.pagesOf txn.locals.handling.documentId = [] := by
  by_cases hempty : created = []
  · rw [List.eq_nil_iff_forall_not_mem]
    intro page hpage
    have hlength := h.pages_length (by rw [hphase]; rfl) (by rw [hphase]; rfl)
    obtain ⟨hmem, hown⟩ := List.mem_filter.mp hpage
    obtain ⟨locals, hlocals, hsame⟩ := List.mem_map.mp (hkept.handled page hmem)
    have htotal := (hkept.complete locals hlocals).1
    rw [hsame, of_decide_eq_true hown, ← hlength, hphase, hempty] at htotal
    rw [List.length_eq_zero_iff.mp htotal] at hpage
    cases hpage
  · exact hunsplit (by rw [hphase]; exact hempty)

theorem SplitKept.once_publish (hkept : SplitKept originals v) (h : SplitProgress originals v txn)
    {created : Created} {counted : Bool} {result : HandleResult}
    (hphase : txn.locals.phase = .finished created counted result)
    (hnone : v.committed.pagesOf txn.locals.handling.documentId = []) :
    ((v.committed.pages ++ txn.locals.phase.pages).map
      fun page => (page.documentId, page.index)).Nodup := by
  rw [List.map_append]
  apply List.Nodup.append hkept.once
  · apply List.Nodup.of_map Prod.snd
    rw [List.map_map]
    exact h.pages_index (by rw [hphase]; rfl) (by rw [hphase]; rfl) ▸ List.nodup_range
  · intro pair hold hnew
    obtain ⟨page, hpage, rfl⟩ := List.mem_map.mp hold
    obtain ⟨other, hother, hsame⟩ := List.mem_map.mp hnew
    have hown := (Prod.mk.inj hsame).1.symm.trans (h.document other hother)
    have hmem : page ∈ v.committed.pagesOf txn.locals.handling.documentId :=
      List.mem_filter.mpr ⟨hpage, decide_eq_true hown⟩
    rw [hnone] at hmem
    cases hmem

/-- A commit that finds its document without pages splits it once. -/
theorem SplitKept.publish_finished (hkept : SplitKept originals v)
    (h : SplitProgress originals v txn) {created : Created} {counted : Bool} {result : HandleResult}
    (hphase : txn.locals.phase = .finished created counted result) (hunsplit : StillUnsplit v txn) :
    SplitKept originals (publish (handlings originals) txn v) := by
  have hnone := hkept.unsplit h hphase hunsplit
  have hpages : (publish (handlings originals) txn v).committed.pages =
      v.committed.pages ++ txn.locals.phase.pages := by rw [publish, h.view_eq]
  have hmessages : (publish (handlings originals) txn v).committed.messages =
      v.committed.messages ++ created.map Prod.snd := by
    rw [publish, h.view_eq, hphase]
    rfl
  have hpaired := h.paired
  rw [hphase] at hpaired
  refine ⟨?_, ?_, ?_, ?_, ?_, ?_, ?_⟩
  · rw [hpages]
    exact hkept.once_publish h hphase hnone
  · rw [hpages, List.map_append]
    apply List.Nodup.append hkept.keys h.keys
    intro id hold hnew
    obtain ⟨page, hpage, rfl⟩ := List.mem_map.mp hnew
    exact h.fresh page hpage hold
  · rw [hpages, hmessages, List.map_append, List.map_append, hkept.paired, hphase]
    apply congrArg
    change (created.map Prod.snd).map _ = (created.map Prod.fst).map _
    rw [List.map_map, List.map_map]
    exact List.map_congr_left fun added hadded => (hpaired added hadded).2
  · intro message hmessage
    rw [hmessages] at hmessage
    rcases List.mem_append.mp hmessage with hold | hnew
    · exact hkept.queues message hold
    · obtain ⟨added, hadded, rfl⟩ := List.mem_map.mp hnew
      exact (hpaired added hadded).1
  · intro page hpage
    rw [hpages] at hpage ⊢
    rcases List.mem_append.mp hpage with hold | hnew
    · obtain ⟨other, hother, hfirst⟩ := hkept.first page hold
      exact ⟨other, List.mem_append_left _ hother, hfirst⟩
    · obtain ⟨other, hother, hzero⟩ := h.first hphase hnew
      exact ⟨other, List.mem_append_right _ hother,
        (h.document other hother).trans (h.document page hnew).symm, hzero⟩
  · intro page hpage
    rw [hpages] at hpage
    rw [publish, List.map_append]
    rcases List.mem_append.mp hpage with hold | hnew
    · exact List.mem_append_left _ (hkept.handled page hold)
    · exact List.mem_append_right _ (List.mem_singleton.mpr (h.document page hnew))
  · intro locals hlocals
    rw [pagesOf_publish h]
    by_cases hown : txn.locals.handling.documentId = locals.handling.documentId
    · rw [if_pos hown, ← hown, hnone, List.nil_append]
      exact ⟨h.pages_length (by rw [hphase]; rfl) (by rw [hphase]; rfl), h.countedAs hphase⟩
    · rw [if_neg hown, List.append_nil]
      rcases List.mem_append.mp hlocals with hold | hnew
      · obtain ⟨hlength, hcount⟩ := hkept.complete locals hold
        exact ⟨hlength, hcount.publish h⟩
      · rw [List.mem_singleton.mp hnew] at hown
        exact absurd rfl hown

theorem SplitKept.publish_alreadySplit (hkept : SplitKept originals v)
    (h : SplitProgress originals v txn) {result : HandleResult}
    (hphase : txn.locals.phase = .alreadySplit result) :
    SplitKept originals (publish (handlings originals) txn v) := by
  have hcommitted : (publish (handlings originals) txn v).committed = v.committed := by
    rw [publish, h.view_eq, hphase]
    simp [SplitPhase.documents, SplitPhase.pages, SplitPhase.created]
  have hknows := h.knows
  rw [hphase] at hknows
  obtain ⟨page, hpage⟩ := List.exists_mem_of_ne_nil _ hknows
  obtain ⟨hmem, hown⟩ := List.mem_filter.mp hpage
  obtain ⟨earlier, hearlier, hsame⟩ := List.mem_map.mp (hkept.handled page hmem)
  rw [of_decide_eq_true hown] at hsame
  refine ⟨hcommitted ▸ hkept.once, hcommitted ▸ hkept.keys, hcommitted ▸ hkept.paired,
    hcommitted ▸ hkept.queues, hcommitted ▸ hkept.first, ?_, ?_⟩
  · intro page hpage
    rw [hcommitted] at hpage
    rw [publish, List.map_append]
    exact List.mem_append_left _ (hkept.handled page hpage)
  · intro locals hlocals
    rw [hcommitted]
    rcases List.mem_append.mp hlocals with hold | hnew
    · exact hkept.complete locals hold
    · rw [List.mem_singleton.mp hnew, ← hsame]
      exact hkept.complete earlier hearlier

theorem addPage_mem (documentId : Text) {phase : SplitPhase} {page : SplitPageRow}
    (h : page ∈ phase.pages) : .addPage page ∈ phase.writes documentId := by
  have hadditions : ∀ created : Created, page ∈ created.map Prod.fst →
      .addPage page ∈ additions created := by
    intro created hpage
    obtain ⟨added, hadded, rfl⟩ := List.mem_map.mp hpage
    exact List.mem_flatMap.mpr ⟨added, hadded, List.mem_cons_self⟩
  cases phase with
  | splitting document created rest => exact hadditions created h
  | pageAdded document created added rest =>
    rcases List.mem_append.mp h with hold | hnew
    · exact List.mem_append_left _ (hadditions created hold)
    · exact List.mem_append_right _ (List.mem_singleton.mpr (by rw [List.mem_singleton.mp hnew]))
  | finished created counted result =>
    cases counted with
    | false => exact hadditions created h
    | true => exact List.mem_append_left _ (hadditions created h)
  | _ => cases h

theorem SplitProgress.publish {other : Txn SplitLocals SplitWrite}
    (h : SplitProgress originals v txn) (hother : SplitProgress originals v other)
    (hapart : Apart (handlings originals) txn other) :
    SplitProgress originals (ReadCommitted.publish (handlings originals) txn v) other := by
  refine ⟨hother.writes, hother.index, hother.document, hother.keys, hother.paired, ?_, ?_⟩
  · intro page hpage
    rw [ReadCommitted.publish, h.view_eq, List.map_append, List.mem_append]
    refine not_or.mpr ⟨hother.fresh page hpage, fun hsame => ?_⟩
    obtain ⟨mine, hmine, hid⟩ := List.mem_map.mp hsame
    have hclash := hapart _ (h.writes ▸ addPage_mem _ hmine) _ (hother.writes ▸ addPage_mem _ hpage)
    exact of_decide_eq_false hclash (congrArg SplitKey.page hid)
  · have hcounted (hcount : CountedAs v.committed other.locals.handling.documentId
        (originals.total other.locals.handling.documentId)) := CountedAs.publish h hcount
    have hknows := hother.knows
    cases hphase : other.locals.phase with
    | alreadySplit result =>
      rw [hphase] at hknows
      intro hnone
      rw [pagesOf_publish h] at hnone
      exact hknows (List.append_eq_nil_iff.mp hnone).1
    | splitting document created rest =>
      rw [hphase] at hknows
      exact fun loaded hloaded hcount => hcounted (hknows loaded hloaded hcount)
    | pageAdded document created page rest =>
      rw [hphase] at hknows
      exact fun loaded hloaded hcount => hcounted (hknows loaded hloaded hcount)
    | finished created counted result =>
      rw [hphase] at hknows
      cases counted with
      | false => exact hcounted hknows
      | true => trivial
    | _ => trivial

theorem handlings_guarantee :
    Guarantee (handlings originals) (SplitKept originals) (SplitProgress originals)
      StillUnsplit where
  symm write held := decide_eq_decide.mpr eq_comm
  begins v handling hkept := ⟨rfl, (fun h => nomatch h), (fun _ h => nomatch h), List.nodup_nil,
    (fun _ h => nomatch h), (fun _ h => nomatch h), trivial⟩
  reads v txn locals hkept h hnext := by
    have hprogress := h.next hnext fun _ hnone => nomatch hnone
    rwa [Option.toList_none, List.append_nil] at hprogress
  writes v txn locals write hkept h hnext hvalid := h.next hnext (by rintro _ ⟨⟩; exact hvalid)
  commits v txn hkept h hdone hunsplit := by
    refine ⟨?_, fun other hother hapart => h.publish hother hapart⟩
    obtain ⟨result, hphase⟩ | ⟨created, counted, result, hphase⟩ :=
      SplitLocals.statement_done hdone
    · exact hkept.publish_alreadySplit h hphase
    · exact hkept.publish_finished h hphase hunsplit
  advances v now hnow hkept :=
    ⟨⟨hkept.once, hkept.keys, hkept.paired, hkept.queues, hkept.first, hkept.handled,
      hkept.complete⟩, fun other hother => ⟨hother.writes, hother.index, hother.document,
      hother.keys, hother.paired, hother.fresh, hother.knows⟩⟩

end Publishes

/-- Throughout a run of handlings every document is split once exactly when each handling
that has added pages commits while its document has none. -/
theorem splitOnce_iff_stillUnsplit (originals : Originals) (documents : List StoredDocument)
    (now : Instant) (steps : List (ReadCommitted.Step Handling Instant)) :
    Runs.Throughout (step (handlings originals)) (fun s => SplitOnce s.shared)
        { shared := { committed := { documents := documents }, now := now } } steps ↔
      Runs.AllSteps (step (handlings originals)) (CommitsWhen StillUnsplit)
        { shared := { committed := { documents := documents }, now := now } } steps := by
  apply handlings_guarantee.throughout_iff
  · apply Invariant.start
    exact ⟨List.nodup_nil, List.nodup_nil, rfl, (fun _ h => nomatch h), (fun _ h => nomatch h),
      (fun _ h => nomatch h), fun _ h => nomatch h⟩
  · exact fun v hkept => hkept.splitOnce
  · intro v txn hkept h hdone honce hcreated
    by_contra hpages
    obtain ⟨page, hpage⟩ := List.exists_mem_of_ne_nil _ hpages
    obtain ⟨hmem, hown⟩ := List.mem_filter.mp hpage
    obtain ⟨old, hold, holdDocument, holdIndex⟩ := hkept.first page hmem
    obtain ⟨result, hphase⟩ | ⟨created, counted, result, hphase⟩ :=
      SplitLocals.statement_done hdone
    · rw [hphase] at hcreated
      exact hcreated rfl
    · rw [hphase] at hcreated
      obtain ⟨added, hadded⟩ := List.exists_mem_of_ne_nil _ hcreated
      have hpage : added.1 ∈ txn.locals.phase.pages := by
        rw [hphase]
        exact List.mem_map_of_mem hadded
      obtain ⟨new, hnew, hnewIndex⟩ := h.first hphase hpage
      have hnodup := honce.once
      rw [publish, h.view_eq, List.map_append] at hnodup
      refine List.disjoint_of_nodup_append hnodup (List.mem_map_of_mem hold)
        (List.mem_map.mpr ⟨new, hnew, ?_⟩)
      rw [h.document new hnew, holdDocument, of_decide_eq_true hown, holdIndex, hnewIndex]

def deedPhoto : StoredDocument where
  id := "d1".toList
  batchId := "b1".toList
  sha256 := digestOf [0xff, 0xd8]
  storageUri := keyFor (digestOf [0xff, 0xd8])
  mime := "image/jpeg".toList
  pageCount := 0

def photos : Originals where
  storageKey := fun _ => deedPhoto.storageUri
  mime := fun _ => "image/jpeg".toList
  stored := fun _ => some [0xff, 0xd8]
  frames := fun _ _ => none

def bothHandle : List (ReadCommitted.Step Handling Instant) :=
  [.begin ⟨"d1".toList, fun _ => ⟨"p1".toList, "n1".toList, "o1".toList⟩⟩,
    .begin ⟨"d1".toList, fun _ => ⟨"p2".toList, "n2".toList, "o2".toList⟩⟩,
    .execute 0, .execute 1, .execute 0, .execute 0, .execute 0, .execute 0, .commit 0,
    .execute 1, .execute 1, .execute 1, .execute 1, .commit 1]

theorem bothHandle_two_pages :
    ¬ Runs.Throughout (step (handlings photos)) (fun s => SplitOnce s.shared)
      { shared := { committed := { documents := [deedPhoto] }, now := newYear 1 } } bothHandle := by
  intro h
  have htwo : (Runs.run (step (handlings photos))
      { shared := { committed := { documents := [deedPhoto] }, now := newYear 1 } } bothHandle).any
        (fun s => ¬ (s.shared.committed.pages.map fun page => (page.documentId, page.index)).Nodup) =
      true := by
    decide +kernel
  obtain ⟨s, hrun, hs⟩ := (Option.any_eq_true _ _).mp htwo
  exact of_decide_eq_true hs (h.at_run hrun).once

end LandRecords.Ingest
