import LandRecords.Ingest.DropFolder

/-! What happens to a file between its sidecar and its commit. Custody only grows, the files
are left alone, and what is returned has been recorded; what is raised says where it stopped. -/
namespace LandRecords.Ingest

open Fallible Text

structure IntakeDb.Extends (before after : IntakeDb) : Prop where
  batches : before.batches ⊆ after.batches
  documents : before.custody.documents ⊆ after.custody.documents
  audit : before.audit ⊆ after.audit

def Objects.Extends (before after : Objects) : Prop :=
  ∀ key content, before key = some content → after key = some content

structure Grows (before after : Intake) : Prop where
  committed : before.committed.Extends after.committed
  primary : before.primary.Extends after.primary
  secondary : before.secondary.Extends after.secondary

/-- Custody grows, the session is ahead of what is committed, and the files are left alone. -/
structure Working (start now : Intake) : Prop extends Grows start now where
  session : now.committed.Extends now.session
  folder : now.folder = start.folder
  rejectedFiles : now.rejectedFiles = start.rejectedFiles
  moved : now.moved = start.moved

theorem IntakeDb.Extends.refl (db : IntakeDb) : db.Extends db :=
  ⟨fun _ h => h, fun _ h => h, fun _ h => h⟩

theorem IntakeDb.Extends.trans {a b c : IntakeDb} (h : a.Extends b) (h' : b.Extends c) :
    a.Extends c :=
  ⟨List.Subset.trans h.batches h'.batches, List.Subset.trans h.documents h'.documents,
    List.Subset.trans h.audit h'.audit⟩

theorem Objects.Extends.refl (objects : Objects) : objects.Extends objects := fun _ _ h => h

theorem Objects.Extends.trans {a b c : Objects} (h : a.Extends b) (h' : b.Extends c) :
    a.Extends c :=
  fun key content hheld => h' key content (h key content hheld)

theorem Objects.extends_update {objects : Objects} {key : Text} {content : Content}
    (h : objects key = none) : objects.Extends (Function.update objects key (some content)) := by
  intro other held hheld
  by_cases hother : other = key
  · subst hother
    rw [h] at hheld
    cases hheld
  · rw [Function.update_of_ne hother]
    exact hheld

theorem Grows.refl (intake : Intake) : Grows intake intake :=
  ⟨.refl _, .refl _, .refl _⟩

theorem Grows.trans {a b c : Intake} (h : Grows a b) (h' : Grows b c) : Grows a c :=
  ⟨h.committed.trans h'.committed, h.primary.trans h'.primary, h.secondary.trans h'.secondary⟩

theorem Working.refl {intake : Intake} (h : intake.committed.Extends intake.session) :
    Working intake intake where
  toGrows := .refl intake
  session := h
  folder := rfl
  rejectedFiles := rfl
  moved := rfl

theorem Working.trans {a b c : Intake} (h : Working a b) (h' : Working b c) : Working a c where
  toGrows := h.toGrows.trans h'.toGrows
  session := h'.session
  folder := h'.folder.trans h.folder
  rejectedFiles := h'.rejectedFiles.trans h.rejectedFiles
  moved := h'.moved.trans h.moved

section Session

variable {start now : Intake} (h : Working start now)
include h

theorem Working.updated {update : IntakeDb → IntakeDb}
    (hupdate : now.session.Extends (update now.session)) :
    Working start (withSession update now) :=
  { h with session := h.session.trans hupdate }

theorem Working.appendEntry (args : Audit.AppendArgs) : Working start (appendEntry args now) :=
  h.updated ⟨fun _ hb => hb, fun _ hd => hd, List.subset_append_left _ _⟩

theorem Working.addDocument (document : StoredDocument) :
    Working start (addDocument document now) :=
  h.updated ⟨fun _ hb => hb, List.subset_append_left _ _, fun _ ha => ha⟩

theorem Working.addMessage (message : SplitMessage) : Working start (addMessage message now) :=
  h.updated ⟨fun _ hb => hb, fun _ hd => hd, fun _ ha => ha⟩

theorem Working.addBatch (batch : IntakeBatch) :
    Working start (withSession (fun db => { db with batches := db.batches ++ [batch] }) now) :=
  h.updated ⟨List.subset_append_left _ _, fun _ hd => hd, fun _ ha => ha⟩

theorem Working.commit : Working start { now with committed := now.session } :=
  { h with
    committed := h.committed.trans h.session
    session := .refl _ }

theorem Working.rollback : Working start { now with session := now.committed } :=
  { h with session := .refl _ }

end Session

/-! ## Where it stops -/

def IntakeError.refuses : IntakeError → Bool
  | .missingMandatoryBatchField _ | .unsupportedMediaType _ => true
  | _ => false

def batchReached (faults : Faults) (session : IntakeDb) : Value ℚ → Bool
  | .none => faults.addBatch = .none
  | .text id =>
      faults.getBatch = .none &&
        ((session.batches.find? fun batch => batch.id = id).isSome || faults.addBatch = .none)
  | _ => false

def knownDocument (session : IntakeDb) (content : Content) : Option StoredDocument :=
  session.custody.documents.find? fun row => row.sha256 = digestOf content

structure Admits (faults : Faults) (intake : Intake) (content : Content) : Prop where
  configuration : faults.configuration = .none
  primaryPut : faults.primaryPut = .none
  reread : faults.reread = .none
  secondaryPut : faults.secondaryPut = .none
  query : faults.query = .none
  audit : faults.audit = .none
  commit : faults.commit = .none
  fresh : knownDocument intake.session content = none →
    faults.document = .none ∧ faults.outbox = .none
  primary : ∀ held ∈ intake.primary (keyFor (digestOf content)), held = content
  secondary : ∀ held ∈ intake.secondary (keyFor (digestOf content)), held = content

instance (faults : Faults) (intake : Intake) (content : Content) :
    Decidable (Admits faults intake content) :=
  decidable_of_iff (faults.configuration = .none ∧ faults.primaryPut = .none ∧
      faults.reread = .none ∧ faults.secondaryPut = .none ∧ faults.query = .none ∧
      faults.audit = .none ∧ faults.commit = .none ∧
      ((knownDocument intake.session content).isNone →
        faults.document = .none ∧ faults.outbox = .none) ∧
      (∀ held ∈ intake.primary (keyFor (digestOf content)), held = content) ∧
      ∀ held ∈ intake.secondary (keyFor (digestOf content)), held = content)
    ⟨fun ⟨h₁, h₂, h₃, h₄, h₅, h₆, h₇, h₈, h₉, h₁₀⟩ =>
        ⟨h₁, h₂, h₃, h₄, h₅, h₆, h₇, fun h => h₈ (h ▸ rfl), h₉, h₁₀⟩,
      fun h => ⟨h.configuration, h.primaryPut, h.reread, h.secondaryPut, h.query, h.audit,
        h.commit, fun hnone => h.fresh (Option.isNone_iff_eq_none.mp hnone), h.primary,
        h.secondary⟩⟩

def Holds (intake : Intake) (content : Content) : Prop :=
  intake.primary (keyFor (digestOf content)) = some content ∧
    intake.secondary (keyFor (digestOf content)) = some content

def Described (request : BatchRequest) (batch : IntakeBatch) : Prop :=
  batch.metadata = request.metadata ∨ request.batchId = .text batch.id

def dedupeEntry (documentId : Text) : Audit.AppendArgs :=
  ingestEntry "ingest.document.deduped".toList documentId "FR-ING-04".toList

def Recorded (db : IntakeDb) (batch : IntakeBatch) (content : Content) : Prop :=
  ∃ document ∈ db.custody.documents, document.sha256 = digestOf content ∧
    (document.batchId = batch.id ∨ dedupeEntry document.id ∈ db.audit)

/-- What a step that fails leaves behind, where it fails only if `good` does not hold. -/
def Stopped (start : Intake) (good : Prop) (error : IntakeError) (now : Intake) : Prop :=
  Working start now ∧ error.refuses = false ∧ ¬good

def Cut (start : Intake) (good : Prop) (now : Intake) : Prop := Working start now ∧ ¬good

/-- From `P` the program returns in `Q`, or fails, which it does only if `good` does not hold. -/
abbrev Guarded {α : Type} (start : Intake) (good : Prop) (P : Intake → Prop) (m : Watcher α)
    (Q : α → Intake → Prop) : Prop :=
  Triple P m Q (Stopped start good) (Cut start good)

section Triples

variable {α : Type} {P : Intake → Prop} {Q : α → Intake → Prop} {faults : Faults}
  {stamps : IntakeStamps} {start now : Intake} {content : Content} {batch : IntakeBatch}
  {request : BatchRequest} {good : Prop}

theorem guarded_external {fault : Fault Text} {effect : Intake → α × Intake}
    (hgood : good → fault = .none)
    (hworking : ∀ w, P w → Working start w ∧ Working start (effect w).2)
    (hreturned : fault = .none → ∀ w, P w → Q (effect w).1 (effect w).2) :
    Guarded start good P (external fault effect) Q := by
  intro w hw
  have ⟨hbefore, hafter⟩ := hworking w hw
  cases fault with
  | none => exact hreturned rfl w hw
  | raises tookEffect description =>
    have hnot : ¬good := fun h => nomatch hgood h
    cases tookEffect with
    | false => exact ⟨hbefore, rfl, hnot⟩
    | true => exact ⟨hafter, rfl, hnot⟩
  | crashes tookEffect =>
    have hnot : ¬good := fun h => nomatch hgood h
    cases tookEffect with
    | false => exact ⟨hbefore, hnot⟩
    | true => exact ⟨hafter, hnot⟩

/-! ### The batch -/

theorem getOrCreateBatch_invalid {error : IntakeError}
    (h : validateBatchMetadata request.metadata.district = .error error) :
    getOrCreateBatch faults stamps request start = (.raised error, start) := by
  unfold getOrCreateBatch
  rw [h]
  rfl

def InBatch (start : Intake) (batch : IntakeBatch) (now : Intake) : Prop :=
  ∃ batches, start.session.batches ⊆ batches ∧ batch ∈ batches ∧
    now = withSession (fun db => { db with batches := batches }) start

theorem guarded_existingBatch (hstart : start.committed.Extends start.session)
    (batchId : Value ℚ) :
    Guarded start (batchReached faults start.session batchId) (· = start)
      (existingBatch faults batchId)
      (fun answer w => ((∀ batch ∈ answer, batch ∈ start.session.batches ∧
          batchId = .text batch.id ∧ batchReached faults start.session batchId) ∧
        (answer = none → (batchReached faults start.session batchId ↔ faults.addBatch = .none))) ∧
        w = start) := by
  have hworking : Working start start := .refl hstart
  cases batchId with
  | none =>
    intro w hw
    refine ⟨⟨?_, fun _ => decide_eq_true_iff⟩, hw⟩
    intro batch hbatch
    cases hbatch
  | text id =>
    apply guarded_external
    · intro hreached
      simp only [batchReached, Bool.and_eq_true, decide_eq_true_eq] at hreached
      exact hreached.1
    · intro w hw
      subst hw
      exact ⟨hworking, hworking⟩
    · intro hfault w hw
      subst hw
      refine ⟨⟨?_, ?_⟩, rfl⟩
      · intro batch hbatch
        dsimp only at hbatch
        have hfound := List.find?_some hbatch
        have hid : batch.id = id := of_decide_eq_true hfound
        exact ⟨List.mem_of_find?_eq_some hbatch, congrArg Value.text hid.symm,
          by simp [batchReached, hfault, Option.mem_def.mp hbatch]⟩
      · intro hmissing
        dsimp only at hmissing
        simp [batchReached, hfault, hmissing]
  | number n =>
    intro w hw
    subst hw
    exact ⟨hworking, rfl, Bool.noConfusion⟩
  | list items =>
    intro w hw
    subst hw
    exact ⟨hworking, rfl, Bool.noConfusion⟩
  | dict entries =>
    intro w hw
    subst hw
    exact ⟨hworking, rfl, Bool.noConfusion⟩

theorem guarded_getOrCreateBatch (hstart : start.committed.Extends start.session)
    (hvalid : validateBatchMetadata request.metadata.district = .ok ()) :
    Guarded start (batchReached faults start.session request.batchId) (· = start)
      (getOrCreateBatch faults stamps request)
      (fun batch now => (batchReached faults start.session request.batchId ∧
        Described request batch) ∧ InBatch start batch now) := by
  unfold getOrCreateBatch
  rw [hvalid]
  apply triple_bind (R := fun _ w => w = start)
  · exact triple_pure fun w hw => hw
  intro _
  apply triple_bind (guarded_existingBatch hstart request.batchId)
  intro answer
  apply triple_fact
  rintro ⟨hfound, hmissing⟩
  cases answer with
  | some batch =>
    have ⟨hmem, hid, hreached⟩ := hfound batch rfl
    exact triple_pure fun w hw =>
      ⟨⟨hreached, .inr hid⟩, start.session.batches, fun _ h => h, hmem, hw⟩
  | none =>
    have hreached := hmissing rfl
    apply guarded_external hreached.mp
    · intro w hw
      subst hw
      exact ⟨.refl hstart, (Working.refl hstart).addBatch _⟩
    · intro hfault w hw
      subst hw
      exact ⟨⟨hreached.mpr hfault, .inl rfl⟩, _, List.subset_append_left _ _, by simp, rfl⟩

/-! ### The stores -/

theorem guarded_putObject {fault : Fault Text} {objects : Intake → Objects}
    {update : Objects → Intake → Intake} {Q : PutResult → Intake → Prop}
    (hgood : good → fault = .none ∧
      ∀ held ∈ objects now (keyFor (digestOf content)), held = content)
    (hworking : Working start now)
    (hheld : objects now (keyFor (digestOf content)) = some content → Q (putStream content) now)
    (hnew : objects now (keyFor (digestOf content)) = none →
      let after := update
        (Function.update (objects now) (keyFor (digestOf content)) (some content)) now
      Working start after ∧ Q (putStream content) after) :
    Guarded start good (· = now) (putObject fault objects update content) Q := by
  unfold putObject
  apply triple_read_bind (b := objects now (keyFor (digestOf content)))
  · intro w hw
    rw [hw]
    rfl
  cases hobject : objects now (keyFor (digestOf content)) with
  | none =>
    have ⟨hafter, hQ⟩ := hnew hobject
    apply guarded_external fun h => (hgood h).1
    · intro w hw
      subst hw
      exact ⟨hworking, hafter⟩
    · intro _ w hw
      subst hw
      exact hQ
  | some held =>
    dsimp only
    split
    case isTrue hne =>
      apply triple_raise
      intro w hw
      subst hw
      exact ⟨hworking, rfl, fun h => hne ((hgood h).2 held hobject)⟩
    case isFalse hsame =>
      have hheld := hheld (hobject.trans (congrArg some (not_not.mp hsame)))
      apply guarded_external fun h => (hgood h).1
      · intro w hw
        subst hw
        exact ⟨hworking, hworking⟩
      · intro _ w hw
        subst hw
        exact hheld

structure InPrimary (start : Intake) (content : Content) (now : Intake) : Prop
    extends Working start now where
  sameSession : now.session = start.session
  sameSecondary : now.secondary = start.secondary
  held : now.primary (keyFor (digestOf content)) = some content

structure InStores (start : Intake) (content : Content) (now : Intake) : Prop
    extends Working start now where
  sameSession : now.session = start.session
  holds : Holds now content

structure InSession (start : Intake) (batch : IntakeBatch) (content : Content) (now : Intake) :
    Prop extends Working start now where
  sameBatches : now.session.batches = start.session.batches
  holds : Holds now content
  recorded : Recorded now.session batch content

theorem guarded_putPrimary (hstart : start.committed.Extends start.session) :
    Guarded start (Admits faults start content) (· = start)
      (putPrimary faults.primaryPut content)
      (fun put now => put = putStream content ∧ InPrimary start content now) := by
  have hworking : Working start start := .refl hstart
  apply guarded_putObject fun h => ⟨h.primaryPut, h.primary⟩
  · exact hworking
  · exact fun hheld => ⟨rfl, hworking, rfl, rfl, hheld⟩
  · intro hnone
    have hafter : Working start { start with
        primary := Function.update start.primary (keyFor (digestOf content)) (some content) } :=
      { hworking with primary := Objects.extends_update hnone }
    exact ⟨hafter, rfl, hafter, rfl, rfl, Function.update_self _ _ _⟩

theorem guarded_openPrimary :
    Guarded start (Admits faults start content) (InPrimary start content)
      (openPrimary faults.reread (keyFor (digestOf content)))
      (fun reread now => reread = content ∧ InPrimary start content now) := by
  unfold openPrimary
  apply triple_bind (R := fun found now => found = some content ∧ InPrimary start content now)
  · apply guarded_external fun h => h.reread
    · exact fun w hw => ⟨hw.toWorking, hw.toWorking⟩
    · exact fun _ w hw => ⟨hw.held, hw⟩
  intro found
  apply triple_fact
  intro hfound
  subst hfound
  exact triple_pure fun w hw => ⟨rfl, hw⟩

theorem guarded_putSecondary :
    Guarded start (Admits faults start content) (InPrimary start content)
      (putSecondary faults.secondaryPut content) (fun _ now => InStores start content now) := by
  apply triple_pointwise
  intro w hw
  apply guarded_putObject
  · exact fun h => ⟨h.secondaryPut, hw.sameSecondary ▸ h.secondary⟩
  · exact hw.toWorking
  · exact fun hheld => ⟨hw.toWorking, hw.sameSession, hw.held, hheld⟩
  · intro hnone
    have hafter : Working start { w with
        secondary := Function.update w.secondary (keyFor (digestOf content)) (some content) } :=
      { hw.toWorking with
        secondary := hw.toWorking.secondary.trans (Objects.extends_update hnone) }
    exact ⟨hafter, hafter, hw.sameSession, hw.held, Function.update_self _ _ _⟩

/-! ### The document -/

theorem ingestDocument_invalid {mime : Value ℚ} {error : IntakeError}
    (h : validateMime mime = .error error) :
    ingestDocument faults stamps batch content mime start = (.raised error, start) := by
  unfold ingestDocument
  rw [h]
  rfl

theorem digest_of_known {session : IntakeDb} {document : StoredDocument}
    (h : knownDocument session content = some document) :
    document ∈ session.custody.documents ∧ document.sha256 = digestOf content := by
  have hfound := List.find?_some h
  exact ⟨List.mem_of_find?_eq_some h, of_decide_eq_true hfound⟩

theorem Recorded.imp {db db' : IntakeDb} (h : Recorded db batch content) (hext : db.Extends db') :
    Recorded db' batch content := by
  have ⟨document, hmem, hdigest, hbatch⟩ := h
  exact ⟨document, hext.documents hmem, hdigest, hbatch.imp_right fun h => hext.audit h⟩

theorem guarded_dedupe {existing : StoredDocument} {result : IngestResult}
    (hknown : knownDocument start.session content = some existing) :
    Guarded start (Admits faults start content) (InStores start content)
      (do
        external faults.audit fun intake => ((), appendEntry (dedupeEntry existing.id) intake)
        return result)
      (fun _ now => InSession start batch content now) := by
  have ⟨hmem, hdigest⟩ := digest_of_known hknown
  apply triple_bind (R := fun _ now => InSession start batch content now)
  · apply guarded_external fun h => h.audit
    · exact fun w hw => ⟨hw.toWorking, hw.toWorking.appendEntry _⟩
    · intro _ w hw
      have hbatches : w.session.batches = start.session.batches := by rw [hw.sameSession]
      have hthere : existing ∈ w.session.custody.documents := by rwa [hw.sameSession]
      have hentry : dedupeEntry existing.id ∈ w.session.audit ++ [dedupeEntry existing.id] :=
        List.mem_append_right _ (List.mem_singleton_self _)
      exact ⟨hw.toWorking.appendEntry _, hbatches, hw.holds, existing, hthere, hdigest, .inr hentry⟩
  · exact fun _ => triple_pure fun w hw => hw

theorem guarded_create (hfresh : knownDocument start.session content = none) {upload : Upload}
    {args : Audit.AppendArgs} {clock : Datetime.Instant} {result : IngestResult}
    (hcontent : upload.content = content) (hbatch : upload.batchId = batch.id) :
    Guarded start (Admits faults start content) (InStores start content)
      (do
        external faults.document fun intake => ((), addDocument (newDocument upload) intake)
        external faults.outbox fun intake => ((), addMessage (splitMessage upload clock) intake)
        external faults.audit fun intake => ((), appendEntry args intake)
        return result)
      (fun _ now => InSession start batch content now) := by
  apply triple_bind (R := fun _ now => InSession start batch content now)
  · apply guarded_external fun h => (h.fresh hfresh).1
    · exact fun w hw => ⟨hw.toWorking, hw.toWorking.addDocument _⟩
    · intro _ w hw
      have hbatches : w.session.batches = start.session.batches := by rw [hw.sameSession]
      have hthere : newDocument upload ∈ w.session.custody.documents ++ [newDocument upload] :=
        List.mem_append_right _ (List.mem_singleton_self _)
      have hdigest : (newDocument upload).sha256 = digestOf content := congrArg digestOf hcontent
      exact ⟨hw.toWorking.addDocument _, hbatches, hw.holds, newDocument upload, hthere, hdigest,
        .inl hbatch⟩
  intro _
  apply triple_bind (R := fun _ now => InSession start batch content now)
  · apply guarded_external fun h => (h.fresh hfresh).2
    · exact fun w hw => ⟨hw.toWorking, hw.toWorking.addMessage _⟩
    · exact fun _ w hw => ⟨hw.toWorking.addMessage _, hw.sameBatches, hw.holds, hw.recorded⟩
  intro _
  apply triple_bind (R := fun _ now => InSession start batch content now)
  · apply guarded_external fun h => h.audit
    · exact fun w hw => ⟨hw.toWorking, hw.toWorking.appendEntry _⟩
    · intro _ w hw
      refine ⟨hw.toWorking.appendEntry _, hw.sameBatches, hw.holds, hw.recorded.imp ?_⟩
      exact ⟨fun _ h => h, fun _ h => h, List.subset_append_left _ _⟩
  · exact fun _ => triple_pure fun w hw => hw

theorem guarded_ingestDocument {mime : Value ℚ} {accepted : Text}
    (hstart : start.committed.Extends start.session) (hmime : validateMime mime = .ok accepted) :
    Guarded start (Admits faults start content) (· = start)
      (ingestDocument faults stamps batch content mime)
      (fun _ now => InSession start batch content now) := by
  have hworking : Working start start := .refl hstart
  unfold ingestDocument
  rw [hmime]
  apply triple_bind (R := fun value now => value = accepted ∧ now = start)
  · exact triple_pure fun w hw => ⟨rfl, hw⟩
  intro value
  apply triple_fact
  intro hvalue
  subst hvalue
  apply triple_bind (R := fun _ now => now = start)
  · apply guarded_external fun h => h.configuration
    · intro w hw
      subst hw
      exact ⟨hworking, hworking⟩
    · exact fun _ w hw => hw
  intro _
  apply triple_bind (guarded_putPrimary hstart)
  intro put
  apply triple_fact
  intro hput
  subst hput
  apply triple_bind guarded_openPrimary
  intro reread
  apply triple_fact
  intro hreread
  subst hreread
  apply triple_bind guarded_putSecondary
  intro _
  apply triple_bind (R := fun existing now =>
    existing = knownDocument start.session reread ∧ InStores start reread now)
  · apply guarded_external fun h => h.query
    · exact fun w hw => ⟨hw.toWorking, hw.toWorking⟩
    · intro _ w hw
      refine ⟨?_, hw⟩
      rw [hw.sameSession]
      rfl
  intro existing
  apply triple_fact
  intro hexisting
  cases existing with
  | some existing => exact guarded_dedupe hexisting.symm
  | none => exact guarded_create hexisting.symm rfl rfl

end Triples

end LandRecords.Ingest
