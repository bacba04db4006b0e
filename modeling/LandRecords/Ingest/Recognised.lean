import LandRecords.Ingest.Custody
import Mathlib

/-! Re-uploads are recognised exactly as long as no upload commits a document whose
digest another one has committed in the meantime. -/
namespace LandRecords.Ingest

open Datetime Outbox ReadCommitted Text

def Phase.writes (upload : Upload) : Phase → List Write
  | .documentAdded => [.addDocument (newDocument upload)]
  | .queued message _ => [.addDocument (newDocument upload), .addMessage message]
  | _ => []

structure Progress (v : Commits) (txn : Txn Locals Write) : Prop where
  writes : txn.writes = txn.locals.phase.writes txn.locals.upload
  fresh : txn.locals.phase.adds = true →
    txn.locals.upload.documentId ∉ v.committed.documents.map fun document => document.id
  linked : ∀ result, txn.locals.phase = .linked result →
    digestOf txn.locals.upload.content ∈ v.committed.documents.map StoredDocument.sha256
  queued : ∀ message result, txn.locals.phase = .queued message result →
    message.queue = ingestionQueue ∧
      message.envelope.payload.documentId = txn.locals.upload.documentId

structure Kept (v : Commits) : Prop where
  once : (v.committed.documents.map StoredDocument.sha256).Nodup
  keys : (v.committed.documents.map fun document => document.id).Nodup
  paired : (v.committed.messages.map fun message => message.envelope.payload.documentId) =
    v.committed.documents.map fun document => document.id
  queues : ∀ message ∈ v.committed.messages, message.queue = ingestionQueue
  digests : ∀ digest, digest ∈ v.committed.documents.map StoredDocument.sha256 ↔
    digest ∈ (contents v).map digestOf

section Contents

variable {v : Commits}

theorem Kept.ingestionMessages_eq (h : Kept v) :
    ingestionMessages v.committed = v.committed.messages :=
  List.filter_eq_self.mpr fun message hmessage => decide_eq_true (h.queues message hmessage)

theorem Kept.messagesFor_length (h : Kept v) {content : Content} (hcontent : content ∈ contents v) :
    (messagesFor v.committed content).length = 1 := by
  obtain ⟨document, hdocument, hdigest⟩ :=
    List.mem_map.mp ((h.digests _).mpr (List.mem_map_of_mem hcontent))
  have hown : ∀ message ∈ v.committed.messages,
      (v.committed.documents.any fun row => row.id = message.envelope.payload.documentId &&
        row.sha256 = digestOf content) =
        decide (message.envelope.payload.documentId = document.id) := by
    intro message hmessage
    rw [Bool.eq_iff_iff, List.any_eq_true, decide_eq_true_eq]
    constructor
    · rintro ⟨row, hrow, hmatch⟩
      rw [Bool.and_eq_true, decide_eq_true_eq, decide_eq_true_eq] at hmatch
      obtain ⟨hid, hsame⟩ := hmatch
      rw [← hid, List.inj_on_of_nodup_map h.once hrow hdocument (hsame.trans hdigest.symm)]
    · intro hid
      refine ⟨document, hdocument, ?_⟩
      rw [Bool.and_eq_true, decide_eq_true_eq, decide_eq_true_eq]
      exact ⟨hid.symm, hdigest⟩
  rw [messagesFor, h.ingestionMessages_eq, List.filter_congr hown]
  have hone := Rows.length_filter_paired h.keys h.paired hdocument
  exact hone

/-- Without a collision there are as many messages as contents. -/
theorem Kept.ingestionMessages_length (h : Kept v) (hfree : CollisionFree digestOf (contents v)) :
    (ingestionMessages v.committed).length = (contents v).dedup.length := by
  have hdistinct : ((contents v).dedup.map digestOf).Nodup := by
    apply List.Nodup.map_on _ (List.nodup_dedup _)
    intro content hcontent other hother heq
    exact hfree.eq (List.mem_dedup.mp hcontent) (List.mem_dedup.mp hother) heq
  have hperm : (v.committed.documents.map StoredDocument.sha256).Perm
      ((contents v).dedup.map digestOf) := by
    rw [List.perm_ext_iff_of_nodup h.once hdistinct]
    intro digest
    rw [h.digests digest]
    simp only [List.mem_map, List.mem_dedup]
  have hpaired := congrArg List.length h.paired
  rw [List.length_map, List.length_map] at hpaired
  have hlength := hperm.length_eq
  rw [List.length_map, List.length_map] at hlength
  rw [h.ingestionMessages_eq, hpaired, hlength]

theorem Kept.recognised (h : Kept v) : Recognised v :=
  ⟨h.once, fun _ hcontent => h.messagesFor_length hcontent, h.ingestionMessages_length⟩

end Contents

section Statements

variable {v : Commits} {txn : Txn Locals Write} {locals : Locals} {write : Option Write}

theorem Locals.statement_next {locals locals' : Locals} {now : Instant} {db : Custody}
    (h : locals.statement now db = .next locals' write) :
    ingestStatement locals.upload now db locals.phase = .next locals'.phase write ∧
      locals' = ⟨locals.upload, locals'.phase⟩ := by
  unfold Locals.statement at h
  split at h
  · cases h
  · cases h
  · rename_i phase update hingest
    cases h
    exact ⟨hingest, rfl⟩

theorem Locals.statement_done {locals : Locals} {now : Instant} {db : Custody}
    (h : locals.statement now db = .done) :
    ingestStatement locals.upload now db locals.phase = .done := by
  unfold Locals.statement at h
  split at h
  · assumption
  · cases h
  · cases h

theorem ingestStatement_received_ne {upload : Upload} {now : Instant} {db : Custody} :
    ingestStatement upload now db .received ≠ .done := by
  intro h
  simp only [ingestStatement] at h
  split at h
  · cases h
  · split at h
    · cases h
    · cases h

theorem ingestStatement_received {upload : Upload} {now : Instant} {db : Custody} {phase : Phase}
    (h : ingestStatement upload now db .received = .next phase write) :
    write = none ∧ (phase = .unseen ∨ ∃ result, phase = .linked result ∧
      digestOf upload.content ∈ db.documents.map StoredDocument.sha256) := by
  simp only [ingestStatement] at h
  split at h
  · cases h
  · split at h
    · rename_i existing hfound
      cases h
      have hdigest : existing.sha256 = digestOf upload.content := Rows.find?_key hfound
      refine ⟨rfl, .inr ⟨_, rfl, List.mem_map.mpr ⟨existing, List.mem_of_find?_eq_some hfound, ?_⟩⟩⟩
      exact hdigest
    · cases h
      exact ⟨rfl, .inl rfl⟩

theorem Progress.next (h : Progress v txn)
    (hnext : txn.locals.statement v.now (view uploads txn v.committed) = .next locals write)
    (hvalid : ∀ update ∈ write, update.violates (view uploads txn v.committed) = false) :
    Progress v ⟨locals, txn.writes ++ write.toList⟩ := by
  obtain ⟨⟨upload, phase⟩, writes⟩ := txn
  obtain ⟨hingest, hlocals⟩ := Locals.statement_next hnext
  obtain rfl : writes = phase.writes upload := h.writes
  rw [hlocals]
  cases phase with
  | received =>
    obtain ⟨rfl, hphase | ⟨result, hphase, hdigest⟩⟩ := ingestStatement_received hingest
    · rw [hphase]
      exact ⟨rfl, (fun h => nomatch h), (fun _ h => nomatch h), fun _ _ h => nomatch h⟩
    · rw [hphase]
      exact ⟨rfl, (fun h => nomatch h), fun _ _ => hdigest, fun _ _ h => nomatch h⟩
  | unseen =>
    cases hnext
    have hfresh := hvalid _ rfl
    exact ⟨rfl, fun _ => of_decide_eq_false hfresh, (fun _ h => nomatch h), fun _ _ h => nomatch h⟩
  | documentAdded =>
    cases hnext
    refine ⟨rfl, fun _ => h.fresh rfl, (fun _ h => nomatch h), fun message result hqueued => ?_⟩
    cases hqueued
    exact ⟨rfl, rfl⟩
  | linked result => cases hingest
  | queued message result => cases hingest

theorem Kept.publish_queued (hkept : Kept v) {upload : Upload} {message : SplitMessage}
    {result : IngestResult}
    (h : Progress v ⟨⟨upload, .queued message result⟩, Phase.writes upload (.queued message result)⟩)
    (hunknown : digestOf upload.content ∉ v.committed.documents.map StoredDocument.sha256) :
    Kept (publish uploads
      ⟨⟨upload, .queued message result⟩, Phase.writes upload (.queued message result)⟩ v) := by
  obtain ⟨hqueue, hdocument⟩ := h.queued message result rfl
  refine ⟨?_, ?_, ?_, ?_, ?_⟩
  · exact Rows.nodup_append_row hkept.once hunknown
  · have hfresh : (newDocument upload).id ∉
        v.committed.documents.map fun document : StoredDocument => document.id := h.fresh rfl
    have hkeys := Rows.nodup_append_row hkept.keys hfresh
    exact hkeys
  · change (v.committed.messages ++ [message]).map _ =
      (v.committed.documents ++ [newDocument upload]).map _
    rw [List.map_append, List.map_append, hkept.paired, List.map_singleton, List.map_singleton,
      hdocument]
    rfl
  · intro other hother
    rcases List.mem_append.mp hother with hold | hnew
    · exact hkept.queues other hold
    · rw [List.mem_singleton.mp hnew]
      exact hqueue
  · intro digest
    change digest ∈ (v.committed.documents ++ [newDocument upload]).map _ ↔
      digest ∈ ((v.log ++ [_]).map _).map _
    simp only [List.map_append, List.mem_append, hkept.digests, List.map_singleton]
    rfl

/-- A commit that finds its digest unknown, or has found it known, keeps it the only
one. -/
theorem Kept.publish (hkept : Kept v) (h : Progress v txn)
    (hdone : txn.locals.statement v.now (view uploads txn v.committed) = .done)
    (hunknown : StillUnknown v txn) : Kept (ReadCommitted.publish uploads txn v) := by
  obtain ⟨⟨upload, phase⟩, writes⟩ := txn
  obtain rfl : writes = phase.writes upload := h.writes
  cases phase with
  | linked result =>
    refine ⟨hkept.once, hkept.keys, hkept.paired, hkept.queues, fun digest => ?_⟩
    have hknown := (hkept.digests _).mp (h.linked result rfl)
    refine (hkept.digests digest).trans ?_
    change _ ↔ digest ∈ ((v.log ++ [_]).map _).map _
    simp only [List.map_append, List.mem_append, List.map_singleton, List.mem_singleton]
    refine ⟨.inl, fun hdigest => hdigest.elim id ?_⟩
    rintro rfl
    exact hknown
  | queued message result => exact hkept.publish_queued h (hunknown rfl)
  | received => exact absurd (Locals.statement_done hdone) ingestStatement_received_ne
  | unseen => cases hdone
  | documentAdded => cases hdone

theorem addDocument_mem (upload : Upload) {phase : Phase} (h : phase.adds = true) :
    .addDocument (newDocument upload) ∈ phase.writes upload := by
  cases phase with
  | documentAdded => exact List.mem_cons_self
  | queued message result => exact List.mem_cons_self
  | _ => cases h

theorem Progress.publish {other : Txn Locals Write} (h : Progress v txn)
    (hother : Progress v other) (hapart : Apart uploads txn other) :
    Progress (ReadCommitted.publish uploads txn v) other := by
  obtain ⟨⟨upload, phase⟩, writes⟩ := txn
  obtain rfl : writes = phase.writes upload := h.writes
  have hdocuments :
      (ReadCommitted.publish uploads ⟨⟨upload, phase⟩, phase.writes upload⟩ v).committed.documents =
      v.committed.documents ++ if phase.adds = true then [newDocument upload] else [] := by
    cases phase <;> first | rfl | exact (List.append_nil _).symm
  refine ⟨hother.writes, fun hadds => ?_, fun result hlinked => ?_, hother.queued⟩
  · rw [hdocuments, List.map_append, List.mem_append]
    refine not_or.mpr ⟨hother.fresh hadds, fun hsame => ?_⟩
    by_cases hown : phase.adds = true
    · rw [if_pos hown, List.map_singleton, List.mem_singleton] at hsame
      have htheirs := hother.writes ▸ addDocument_mem other.locals.upload hadds
      have hclash := hapart _ (addDocument_mem upload hown) _ htheirs
      exact of_decide_eq_false hclash (congrArg RowKey.sourceDocument hsame.symm)
    · rw [if_neg hown] at hsame
      cases hsame
  · rw [hdocuments, List.map_append]
    exact List.mem_append_left _ (hother.linked result hlinked)

theorem uploads_guarantee : Guarantee uploads Kept Progress StillUnknown where
  symm write held := decide_eq_decide.mpr eq_comm
  begins v upload hkept :=
    ⟨rfl, (fun h => nomatch h), (fun _ h => nomatch h), fun _ _ h => nomatch h⟩
  reads v txn locals hkept h hnext := by
    have hprogress := h.next hnext fun _ hnone => nomatch hnone
    rwa [Option.toList_none, List.append_nil] at hprogress
  writes v txn locals write hkept h hnext hvalid := h.next hnext (by rintro _ ⟨⟩; exact hvalid)
  commits v txn hkept h hdone hunknown :=
    ⟨hkept.publish h hdone hunknown, fun other hother hapart => h.publish hother hapart⟩
  advances v now hnow hkept := ⟨⟨hkept.once, hkept.keys, hkept.paired, hkept.queues, hkept.digests⟩,
    fun other hother => ⟨hother.writes, hother.fresh, hother.linked, hother.queued⟩⟩

end Statements

/-- Throughout a run of uploads every content has one document and one message exactly
when each upload that has added a document commits while its digest is unknown. -/
theorem recognised_iff_stillUnknown (now : Instant) (steps : List (ReadCommitted.Step Upload Instant)) :
    Runs.Throughout (step uploads) (fun s => Recognised s.shared)
        { shared := { committed := {}, now := now } } steps ↔
      Runs.AllSteps (step uploads) (CommitsWhen StillUnknown)
        { shared := { committed := {}, now := now } } steps := by
  apply uploads_guarantee.throughout_iff
  · apply Invariant.start
    exact ⟨List.nodup_nil, List.nodup_nil, rfl, (fun _ h => nomatch h), fun digest => Iff.rfl⟩
  · exact fun v hkept => hkept.recognised
  · intro v txn hkept h hdone hrecognised hadds
    obtain ⟨⟨upload, phase⟩, writes⟩ := txn
    obtain rfl : writes = phase.writes upload := h.writes
    have honce := hrecognised.once
    cases phase with
    | queued message result =>
      change ((v.committed.documents ++ [newDocument upload]).map _).Nodup at honce
      rw [List.map_append, List.map_singleton, List.nodup_append] at honce
      exact fun hknown => honce.2.2 _ hknown _ (List.mem_singleton_self _) rfl
    | documentAdded => cases hdone
    | _ => cases hadds

def deedScan (documentId envelopeId messageId : String) : Upload where
  batchId := "b1".toList
  content := [0x25, 0x50, 0x44, 0x46]
  mime := "application/pdf".toList
  documentId := documentId.toList
  envelopeId := envelopeId.toList
  messageId := messageId.toList

def bothUpload : List (ReadCommitted.Step Upload Instant) :=
  [.begin (deedScan "d1" "n1" "o1"), .begin (deedScan "d2" "n2" "o2"), .execute 0, .execute 1,
    .execute 0, .execute 0, .commit 0, .execute 1, .execute 1, .commit 1]

set_option maxRecDepth 10000 in
theorem bothUpload_two_documents :
    ¬ Runs.Throughout (step uploads) (fun s => Recognised s.shared)
      { shared := { committed := {}, now := newYear 1 } } bothUpload := by
  intro h
  have htwo : (Runs.run (step uploads) { shared := { committed := {}, now := newYear 1 } }
      bothUpload).any (fun s =>
        ¬ (s.shared.committed.documents.map StoredDocument.sha256).Nodup) = true := by
    decide +kernel
  obtain ⟨s, hrun, hs⟩ := (Option.any_eq_true _ _).mp htwo
  exact of_decide_eq_true hs (h.at_run hrun).once

end LandRecords.Ingest
