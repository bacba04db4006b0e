import LandRecords.Ingest.IntakeCustody

/-! What a scan does with one file. The file enters custody, or it is moved to the rejected
ones where its sidecar or its type is refused, or it stays. -/
namespace LandRecords.Ingest

open Fallible Text

def Ingested (request : BatchRequest) (content : Content) (now : Intake) : Prop :=
  Holds now content ∧ ∃ batch ∈ now.committed.batches,
    Described request batch ∧ Recorded now.committed batch content

structure Ready (faults : Faults) (intake : Intake) (name : Text) (request : BatchRequest) :
    Prop where
  district : validateBatchMetadata request.metadata.district = .ok ()
  mime : ∃ accepted, validateMime request.mime = .ok accepted
  batch : batchReached faults intake.session request.batchId
  content : ∃ content, intake.folder.lookup name = some content ∧ Admits faults intake content

def turnsAway (faults : Faults) (session : IntakeDb) (request : BatchRequest) : Bool :=
  match validateBatchMetadata request.metadata.district with
  | .error error => error.refuses
  | .ok () =>
      batchReached faults session request.batchId &&
        match validateMime request.mime with
        | .error error => error.refuses
        | .ok _ => false

def rejects (library : Library) (faults : Faults) (intake : Intake) (name : Text) : Bool :=
  !decide (rejectedName ∈ intake.folder.map Prod.fst) &&
    match intake.folder.lookup (sidecarOf name) with
    | none => true
    | some bytes =>
        match library.loads bytes with
        | .error (.decodeError _) => true
        | .error (.undecodable _) => false
        | .ok sidecar =>
            match batchRequest library name sidecar with
            | .error _ => false
            | .ok request => turnsAway faults intake.session request && faults.rollback = .none

def Failed (faults : Faults) (start : Intake) (name : Text) (request : BatchRequest)
    (error : IntakeError) (now : Intake) : Prop :=
  Working start now ∧ (error.refuses → turnsAway faults start.session request) ∧
    ¬Ready faults start name request

section Body

variable {library : Library} {faults : Faults} {stamps : IntakeStamps} {start now : Intake}
  {name : Text} {content : Content} {request : BatchRequest}

theorem Holds.grows (h : Holds start content) (hgrows : Grows start now) : Holds now content :=
  ⟨hgrows.primary _ _ h.1, hgrows.secondary _ _ h.2⟩

theorem Ingested.grows (h : Ingested request content start) (hgrows : Grows start now) :
    Ingested request content now := by
  have ⟨hholds, batch, hbatch, hdescribed, hrecorded⟩ := h
  exact ⟨hholds.grows hgrows, batch, hgrows.committed.batches hbatch, hdescribed,
    hrecorded.imp hgrows.committed⟩

theorem InSession.commit {batch : IntakeBatch} (h : InSession start batch content now)
    (hbatch : batch ∈ start.session.batches) (hdescribed : Described request batch) :
    Ingested request content { now with committed := now.session } :=
  ⟨h.holds, batch, h.sameBatches ▸ hbatch, hdescribed, h.recorded⟩

theorem openFile_found (h : start.folder.lookup name = some content) :
    openFile name start = (.returned content, start) := by
  unfold openFile
  rw [read_bind, h]
  rfl

theorem openFile_missing (h : start.folder.lookup name = none) :
    openFile name start = (.raised .fileNotFound, start) := by
  unfold openFile
  rw [read_bind, h]
  rfl

theorem InBatch.working {batch : IntakeBatch} (h : InBatch start batch now)
    (hstart : start.committed.Extends start.session) : Working start now := by
  have ⟨batches, hgrown, _, hnow⟩ := h
  subst hnow
  exact (Working.refl hstart).updated ⟨hgrown, fun _ h => h, fun _ h => h⟩

theorem InBatch.admits {batch : IntakeBatch} (h : InBatch start batch now)
    (hadmits : Admits faults start content) : Admits faults now content := by
  have ⟨batches, _, _, hnow⟩ := h
  subst hnow
  exact { hadmits with }

theorem Guarded.failed {α : Type} {good : Prop} {P : Intake → Prop} {m : Watcher α}
    {Q : α → Intake → Prop} (h : Guarded now good P m Q) (hworking : Working start now)
    (hgood : Ready faults start name request → good) :
    Triple P m Q (Failed faults start name request)
      (fun now => Working start now ∧ ¬Ready faults start name request) := by
  apply Triple.imp h (fun _ hw => hw) (fun _ _ hw => hw)
  · intro error w hw
    have ⟨hafter, hother, hnot⟩ := hw
    refine ⟨hworking.trans hafter, fun hrefuses => ?_, fun hready => hnot (hgood hready)⟩
    rw [hother] at hrefuses
    cases hrefuses
  · exact fun w hw => ⟨hworking.trans hw.1, fun hready => hw.2 (hgood hready)⟩

theorem triple_enter {batch : IntakeBatch} (hstart : start.committed.Extends start.session)
    (hvalid : validateBatchMetadata request.metadata.district = .ok ())
    (hreached : batchReached faults start.session request.batchId)
    (hdescribed : Described request batch) :
    Triple (InBatch start batch)
      (do
        let content ← openFile name
        let _ ← ingestDocument faults stamps batch content request.mime
        commitSession faults.commit
        return true)
      (fun done now => done = true ∧ Working start now ∧
        ∃ content, start.folder.lookup name = some content ∧ Ingested request content now)
      (Failed faults start name request)
      (fun now => Working start now ∧ ¬Ready faults start name request) := by
  apply triple_pointwise
  intro w hw
  have hworking := hw.working hstart
  cases hfile : start.folder.lookup name with
  | none =>
    apply triple_bind_raised (openFile_missing ((congrArg _ hworking.folder).trans hfile))
    refine ⟨hworking, Bool.noConfusion, fun hready => ?_⟩
    have ⟨_, hthere, _⟩ := hready.content
    rw [hfile] at hthere
    cases hthere
  | some content =>
    apply triple_bind_returned (openFile_found ((congrArg _ hworking.folder).trans hfile))
    cases hmime : validateMime request.mime with
    | error error =>
      apply triple_bind_raised (ingestDocument_invalid hmime)
      refine ⟨hworking, fun hrefuses => ?_, fun hready => ?_⟩
      · simp only [turnsAway, hvalid, hreached, hmime, hrefuses, Bool.and_true]
      · have ⟨_, haccepted⟩ := hready.mime
        rw [hmime] at haccepted
        cases haccepted
    | ok accepted =>
      have hadmits (hready : Ready faults start name request) : Admits faults w content := by
        have ⟨_, hthere, hadmits⟩ := hready.content
        rw [hfile] at hthere
        cases hthere
        exact hw.admits hadmits
      have hbatch : batch ∈ w.session.batches := by
        have ⟨_, _, hmem, hnow⟩ := hw
        rw [hnow]
        exact hmem
      apply triple_bind ((guarded_ingestDocument hworking.session hmime).failed hworking hadmits)
      intro _
      apply triple_bind (R := fun _ now => Working start now ∧ Ingested request content now)
      · have hcommit : Guarded w (Admits faults w content) (InSession w batch content)
            (commitSession faults.commit)
            (fun _ now => Working start now ∧ Ingested request content now) := by
          apply guarded_external fun h => h.commit
          · exact fun v hv => ⟨hv.toWorking, hv.toWorking.commit⟩
          · exact fun _ v hv =>
              ⟨hworking.trans hv.toWorking.commit, hv.commit hbatch hdescribed⟩
        exact hcommit.failed hworking hadmits
      · exact fun _ => triple_pure fun v hv => ⟨rfl, hv.1, content, rfl, hv.2⟩

theorem triple_body (hstart : start.committed.Extends start.session) :
    Triple (· = start)
      (do
        let batch ← getOrCreateBatch faults stamps request
        let content ← openFile name
        let _ ← ingestDocument faults stamps batch content request.mime
        commitSession faults.commit
        return true)
      (fun done now => done = true ∧ Working start now ∧
        ∃ content, start.folder.lookup name = some content ∧ Ingested request content now)
      (Failed faults start name request)
      (fun now => Working start now ∧ ¬Ready faults start name request) := by
  cases hvalid : validateBatchMetadata request.metadata.district with
  | error error =>
    apply triple_bind_raised (getOrCreateBatch_invalid hvalid)
    refine ⟨.refl hstart, fun hrefuses => ?_, fun hready => ?_⟩
    · simp only [turnsAway, hvalid, hrefuses]
    · have hdistrict := hready.district
      rw [hvalid] at hdistrict
      cases hdistrict
  | ok _ =>
    apply triple_bind ((guarded_getOrCreateBatch hstart hvalid).failed (.refl hstart)
      fun hready => hready.batch)
    intro batch
    apply triple_fact
    intro h
    exact triple_enter hstart hvalid h.1 h.2

end Body

/-! ## Rejection -/

structure Moves (library : Library) (name : Text) (start now : Intake) : Prop
    extends Grows start now where
  session : now.committed.Extends now.session
  folder : now.folder = start.folder.remove name
  moved : now.moved = start.moved ++ [name]
  rejectedFiles : ∃ content reasonCode detail, start.folder.lookup name = some content ∧
    now.rejectedFiles = Dict.set (reasonOf name) (library.dumps reasonCode detail)
      (Dict.set name content start.rejectedFiles)

section Reject

variable {library : Library} {faults : Faults} {stamps : IntakeStamps} {start now : Intake}
  {name : Text} {request : BatchRequest}

theorem Moves.after (hworking : Working start now) {last : Intake}
    (h : Moves library name now last) : Moves library name start last := by
  have ⟨content, reasonCode, detail, hfile, hrejected⟩ := h.rejectedFiles
  refine ⟨hworking.toGrows.trans h.toGrows, h.session, ?_, ?_, content, reasonCode, detail, ?_, ?_⟩
  · rw [h.folder, hworking.folder]
  · rw [h.moved, hworking.moved]
  · rw [← hworking.folder]
    exact hfile
  · rw [hrejected, hworking.rejectedFiles]

theorem triple_reject {reasonCode detail : Text}
    (hstart : start.committed.Extends start.session) :
    Triple (· = start) (reject library name reasonCode detail)
      (fun _ now => rejectedName ∉ start.folder.map Prod.fst ∧ Moves library name start now)
      (fun _ now => Working start now) (fun _ => False) := by
  intro w hw
  subst hw
  unfold reject
  by_cases hfree : rejectedName ∈ w.folder.map Prod.fst
  · rw [if_pos hfree]
    exact Working.refl hstart
  · rw [if_neg hfree]
    cases hfile : w.folder.lookup name with
    | none => exact { Working.refl hstart with rejectedFiles := rfl }
    | some content =>
      exact ⟨hfree, ⟨.refl _, .refl _, .refl _⟩, hstart, rfl, rfl, content, reasonCode, detail, hfile, rfl⟩

theorem triple_rollbackReject {reasonCode detail : Text} :
    Triple (Working start)
      (do
        rollbackSession faults.rollback
        reject library name reasonCode detail
        return false)
      (fun done now => (done = false ∧ faults.rollback = .none ∧
        rejectedName ∉ start.folder.map Prod.fst) ∧ Moves library name start now)
      (fun _ now => Working start now) (Working start) := by
  apply triple_bind (R := fun _ now => faults.rollback = .none ∧ Working start now)
  · have hrollback : Guarded start (faults.rollback = .none) (Working start)
        (rollbackSession faults.rollback)
        (fun _ now => faults.rollback = .none ∧ Working start now) := by
      apply guarded_external fun h => h
      · exact fun w hw => ⟨hw, hw.rollback⟩
      · exact fun hfault w hw => ⟨hfault, hw.rollback⟩
    exact hrollback.imp (fun _ h => h) (fun _ _ h => h) (fun _ _ h => h.1) fun _ h => h.1
  intro _
  apply triple_fact
  intro hrollback
  apply triple_bind (R := fun _ now => rejectedName ∉ start.folder.map Prod.fst ∧
    Moves library name start now)
  · apply triple_pointwise
    intro w hw
    apply (triple_reject hw.session).imp (fun _ h => h)
    · intro _ v hv
      rw [hw.folder] at hv
      exact ⟨hv.1, hv.2.after hw⟩
    · exact fun _ v hv => hw.trans hv
    · exact fun _ hv => hv.elim
  · exact fun _ => triple_pure fun w hw => ⟨⟨rfl, hrollback, hw.1⟩, hw.2⟩

theorem triple_refuse {error : IntakeError}
    (hrefused : error.refuses → turnsAway faults start.session request) :
    Triple (Working start) (refuse library faults name error)
      (fun done now => (done = false ∧ (turnsAway faults start.session request ∧
        faults.rollback = .none) ∧ rejectedName ∉ start.folder.map Prod.fst) ∧
        Moves library name start now)
      (fun _ now => Working start now) (Working start) := by
  have hrollback (reasonCode detail : Text) (hrefuses : error.refuses) :
      Triple (Working start)
        (do
          rollbackSession faults.rollback
          reject library name reasonCode detail
          return false)
        (fun done now => (done = false ∧ (turnsAway faults start.session request ∧
          faults.rollback = .none) ∧ rejectedName ∉ start.folder.map Prod.fst) ∧
          Moves library name start now)
        (fun _ now => Working start now) (Working start) := by
    apply triple_rollbackReject.imp (fun _ h => h) _ (fun _ _ h => h) fun _ h => h
    intro done w hw
    have ⟨⟨hdone, hfault, hfree⟩, hmoves⟩ := hw
    exact ⟨⟨hdone, ⟨hrefused hrefuses, hfault⟩, hfree⟩, hmoves⟩
  cases error with
  | missingMandatoryBatchField field => exact hrollback _ _ rfl
  | unsupportedMediaType mime => exact hrollback _ _ rfl
  | alreadyExistsWithDifferentContent key => exact triple_raise fun _ hw => hw
  | keyError key => exact triple_raise fun _ hw => hw
  | fileExists => exact triple_raise fun _ hw => hw
  | fileNotFound => exact triple_raise fun _ hw => hw
  | undecodable message => exact triple_raise fun _ hw => hw
  | raised error => exact triple_raise fun _ hw => hw
  | failure description => exact triple_raise fun _ hw => hw

theorem triple_takeIn (hstart : start.committed.Extends start.session) :
    Triple (· = start) (takeIn library faults stamps name request)
      (fun done now =>
        (done = true ∧ Working start now ∧ ∃ content, start.folder.lookup name = some content ∧
          Ingested request content now) ∨
        (done = false ∧ ¬Ready faults start name request ∧
          (turnsAway faults start.session request ∧ faults.rollback = .none) ∧
          rejectedName ∉ start.folder.map Prod.fst ∧ Moves library name start now))
      (fun _ now => Working start now ∧ ¬Ready faults start name request)
      (fun now => Working start now ∧ ¬Ready faults start name request) := by
  apply triple_handle ((triple_body hstart).imp (fun _ h => h) (fun _ _ h => .inl h)
    (fun _ _ h => h) fun _ h => h)
  intro error
  apply triple_pointwise
  intro w hw
  have ⟨hworking, hrefused, hnot⟩ := hw
  apply (triple_refuse hrefused).imp (fun v (hv : v = w) => hv ▸ hworking)
  · intro done v hv
    have ⟨⟨hdone, hturned, hfree⟩, hmoves⟩ := hv
    exact .inr ⟨hdone, hnot, hturned, hfree, hmoves⟩
  · exact fun _ _ h => ⟨h, hnot⟩
  · exact fun _ h => ⟨h, hnot⟩

end Reject

/-! ## One file -/

structure Leaves (name : Text) (start now : Intake) : Prop extends Grows start now where
  session : now.committed.Extends now.session
  others : ∀ other, other ≠ name → other ≠ sidecarOf name →
    now.folder.lookup other = start.folder.lookup other

structure Stays (name : Text) (start now : Intake) : Prop extends Leaves name start now where
  file : now.folder.lookup name = start.folder.lookup name
  rejectedFiles : now.rejectedFiles = start.rejectedFiles
  moved : now.moved = start.moved

structure Enters (name : Text) (request : BatchRequest) (start now : Intake) : Prop
    extends Leaves name start now where
  file : now.folder.lookup name = none
  rejectedFiles : now.rejectedFiles = start.rejectedFiles
  moved : now.moved = start.moved
  ingested : ∃ content, start.folder.lookup name = some content ∧ Ingested request content now

structure TurnsOut (library : Library) (name : Text) (start now : Intake) : Prop
    extends Leaves name start now where
  file : now.folder.lookup name = none
  moved : now.moved = start.moved ++ [name]
  rejectedFiles : ∃ content reasonCode detail, start.folder.lookup name = some content ∧
    now.rejectedFiles = Dict.set (reasonOf name) (library.dumps reasonCode detail)
      (Dict.set name content start.rejectedFiles)

section File

variable {library : Library} {faults : Faults} {stamps : IntakeStamps} {start now : Intake}
  {name : Text} {content : Content} {request : BatchRequest}

theorem Leaves.of_sidecar (h : Leaves name (removeFile (sidecarOf name) start) now) :
    Leaves name start now where
  committed := h.committed
  primary := h.primary
  secondary := h.secondary
  session := h.session
  others other hname hsidecar :=
    (h.others other hname hsidecar).trans (Directory.lookup_remove_other hsidecar)

theorem Leaves.cleanup (h : Leaves name start now) :
    Leaves name start (removeFile (sidecarOf name) now) where
  committed := h.committed
  primary := h.primary
  secondary := h.secondary
  session := h.session
  others other hname hsidecar :=
    (Directory.lookup_remove_other hsidecar).trans (h.others other hname hsidecar)

theorem lookup_file_of_sidecar :
    (removeFile (sidecarOf name) start).folder.lookup name = start.folder.lookup name :=
  Directory.lookup_remove_other sidecarOf_ne_self.symm

theorem Stays.of_sidecar (h : Stays name (removeFile (sidecarOf name) start) now) :
    Stays name start now where
  toLeaves := h.toLeaves.of_sidecar
  file := h.file.trans lookup_file_of_sidecar
  rejectedFiles := h.rejectedFiles
  moved := h.moved

theorem Stays.cleanup (h : Stays name start now) :
    Stays name start (removeFile (sidecarOf name) now) where
  toLeaves := h.toLeaves.cleanup
  file := lookup_file_of_sidecar.trans h.file
  rejectedFiles := h.rejectedFiles
  moved := h.moved

theorem Enters.of_sidecar (h : Enters name request (removeFile (sidecarOf name) start) now) :
    Enters name request start now where
  toLeaves := h.toLeaves.of_sidecar
  file := h.file
  rejectedFiles := h.rejectedFiles
  moved := h.moved
  ingested := by
    rw [← lookup_file_of_sidecar]
    exact h.ingested

theorem TurnsOut.of_sidecar (h : TurnsOut library name (removeFile (sidecarOf name) start) now) :
    TurnsOut library name start now where
  toLeaves := h.toLeaves.of_sidecar
  file := h.file
  moved := h.moved
  rejectedFiles := by
    rw [← lookup_file_of_sidecar]
    exact h.rejectedFiles

theorem TurnsOut.cleanup (h : TurnsOut library name start now) :
    TurnsOut library name start (removeFile (sidecarOf name) now) where
  toLeaves := h.toLeaves.cleanup
  file := lookup_file_of_sidecar.trans h.file
  moved := h.moved
  rejectedFiles := h.rejectedFiles

theorem Working.stays (h : Working start now) : Stays name start now where
  toGrows := h.toGrows
  session := h.session
  others other _ _ := congrArg (List.lookup other) h.folder
  file := congrArg (List.lookup name) h.folder
  rejectedFiles := h.rejectedFiles
  moved := h.moved

theorem Working.enters (h : Working start now) (hfile : start.folder.lookup name = some content)
    (hingested : Ingested request content now) :
    Enters name request start (removeFile name now) where
  committed := h.committed
  primary := h.primary
  secondary := h.secondary
  session := h.session
  others other hname _ :=
    (Directory.lookup_remove_other hname).trans (congrArg (List.lookup other) h.folder)
  file := Directory.lookup_remove_self
  rejectedFiles := h.rejectedFiles
  moved := h.moved
  ingested := ⟨content, hfile, hingested⟩

theorem Moves.turnsOut (h : Moves library name start now) : TurnsOut library name start now where
  toGrows := h.toGrows
  session := h.session
  others other hname _ := by
    rw [h.folder]
    exact Directory.lookup_remove_other hname
  file := by
    rw [h.folder]
    exact Directory.lookup_remove_self
  moved := h.moved
  rejectedFiles := h.rejectedFiles

theorem Ready.of_sidecar (h : Ready faults start name request) :
    Ready faults (removeFile (sidecarOf name) start) name request := by
  have ⟨content, hfile, hadmits⟩ := h.content
  exact ⟨h.district, h.mime, h.batch, content, lookup_file_of_sidecar.trans hfile,
    { hadmits with }⟩

theorem triple_removeFile_bind {α : Type} {f : Unit → Watcher α} {Q : α → Intake → Prop}
    {E : IntakeError → Intake → Prop} {C : Intake → Prop} {other : Text}
    (h : Triple (· = removeFile other start) (f ()) Q E C) :
    Triple (· = start) (write (removeFile other) >>= f) Q E C :=
  triple_bind_returned rfl h

theorem triple_described {bytes : Content} {sidecar : Value ℚ}
    (hstart : start.committed.Extends start.session)
    (hsidecar : start.folder.lookup (sidecarOf name) = some bytes)
    (hloads : library.loads bytes = .ok sidecar)
    (hrequest : batchRequest library name sidecar = .ok request) :
    Triple (· = start) (ingestOne library faults stamps name)
      (fun _ now => Enters name request start now ∨
        (¬Ready faults start name request ∧ rejects library faults start name ∧
          TurnsOut library name start now))
      (fun _ now => Stays name start now ∧ ¬Ready faults start name request)
      (fun now => Stays name start now ∧ ¬Ready faults start name request) := by
  unfold ingestOne
  apply triple_read_bind (b := some bytes)
  · intro w hw
    rw [hw]
    exact hsidecar
  simp only [hloads, hrequest]
  apply triple_removeFile_bind
  apply triple_bind_returned rfl
  apply triple_bind (R := fun done now =>
    (done = true ∧ Enters name request start (removeFile name now)) ∨
    (done = false ∧ ¬Ready faults start name request ∧ rejects library faults start name ∧
      TurnsOut library name start now))
  · have hopened : (removeFile (sidecarOf name) start).committed.Extends
        (removeFile (sidecarOf name) start).session := hstart
    apply (triple_takeIn hopened).imp (fun _ h => h)
    · intro done w hw
      cases hw with
      | inl h =>
        have ⟨hdone, hworking, _, hfile, hingested⟩ := h
        exact .inl ⟨hdone, (hworking.enters hfile hingested).of_sidecar⟩
      | inr h =>
        have ⟨hdone, hnot, ⟨hturned, hrollback⟩, hfree, hmoves⟩ := h
        have hnowhere : rejectedName ∉ start.folder.map Prod.fst := fun hmem =>
          hfree ((Directory.mem_remove (ne_sidecarOf_of_candidate rejectedName_candidate)).mpr hmem)
        have hrejects : rejects library faults start name := by
          simp only [rejects, hsidecar, hloads, hrequest, hnowhere, hrollback, decide_true,
            decide_false, Bool.not_false, Bool.true_and, Bool.and_true]
          exact hturned
        exact .inr ⟨hdone, fun h => hnot h.of_sidecar, hrejects, hmoves.turnsOut.of_sidecar⟩
    · exact fun _ w hw => ⟨hw.1.stays.of_sidecar, fun h => hw.2 h.of_sidecar⟩
    · exact fun w hw => ⟨hw.1.stays.of_sidecar, fun h => hw.2 h.of_sidecar⟩
  intro done w hw
  cases hw with
  | inl h =>
    have ⟨hdone, henters⟩ := h
    subst hdone
    exact .inl henters
  | inr h =>
    have ⟨hdone, hturned⟩ := h
    subst hdone
    exact .inr hturned

theorem triple_ensure {α : Type} {P : Intake → Prop} {body : Watcher α} {cleanup : Intake → Intake}
    {Q : α → Intake → Prop} {E : IntakeError → Intake → Prop} {C : Intake → Prop}
    (h : Triple P body (fun a now => Q a (cleanup now)) (fun e now => E e (cleanup now)) C) :
    Triple P (ensure body cleanup) Q E C := by
  intro w hw
  have hexit := h w hw
  unfold ensure
  cases hbody : body w with
  | mk exit after =>
    rw [hbody] at hexit
    cases exit with
    | returned a => exact hexit
    | raised e => exact hexit
    | crashed => exact hexit

/-- What a scan does with a file: it enters custody, or it is rejected, or the scan ends and
it stays. -/
theorem triple_ingestOne (hstart : start.committed.Extends start.session) :
    Triple (· = start) (ingestOne library faults stamps name)
      (fun _ now => (∃ request, Enters name request start now) ∨
        (rejects library faults start name ∧ TurnsOut library name start now))
      (fun _ now => Stays name start now) (Stays name start) := by
  cases hsidecar : start.folder.lookup (sidecarOf name) with
  | none =>
    unfold ingestOne
    apply triple_read_bind (b := none)
    · intro w hw
      rw [hw]
      exact hsidecar
    apply (triple_reject hstart).imp (fun _ h => h)
    · intro _ w hw
      have hrejects : rejects library faults start name := by
        simp only [rejects, hsidecar, hw.1, decide_false, Bool.not_false, Bool.and_true]
      exact .inr ⟨hrejects, hw.2.turnsOut⟩
    · exact fun _ _ h => h.stays
    · exact fun _ h => h.elim
  | some bytes =>
    cases hloads : library.loads bytes with
    | error fault =>
      unfold ingestOne
      apply triple_read_bind (b := some bytes)
      · intro w hw
        rw [hw]
        exact hsidecar
      simp only [hloads]
      cases fault with
      | decodeError message =>
        apply triple_ensure
        apply (triple_reject hstart).imp (fun _ h => h)
        · intro _ w hw
          have hrejects : rejects library faults start name := by
            simp only [rejects, hsidecar, hloads, hw.1, decide_false, Bool.not_false,
              Bool.and_true]
          exact .inr ⟨hrejects, hw.2.turnsOut.cleanup⟩
        · exact fun _ _ h => h.stays.cleanup
        · exact fun _ h => h.elim
      | undecodable message =>
        apply triple_removeFile_bind
        apply triple_raise
        intro w hw
        subst hw
        exact (Working.refl hstart).stays.cleanup
    | ok sidecar =>
      cases hrequest : batchRequest library name sidecar with
      | error error =>
        unfold ingestOne
        apply triple_read_bind (b := some bytes)
        · intro w hw
          rw [hw]
          exact hsidecar
        simp only [hloads, hrequest]
        apply triple_removeFile_bind
        apply triple_bind_raised rfl
        exact (Working.refl hstart).stays.cleanup
      | ok request =>
        apply (triple_described hstart hsidecar hloads hrequest).imp (fun _ h => h)
        · intro _ w hw
          cases hw with
          | inl h => exact .inl ⟨request, h⟩
          | inr h => exact .inr h.2
        · exact fun _ _ h => h.1
        · exact fun _ h => h.1

end File

/-! ## Which files are rejected -/

section Rejects

variable {library : Library} {faults : Faults} {stamps : IntakeStamps} {start now : Intake}
  {name : Text} {content : Content} {request : BatchRequest}

theorem Guarded.returns {α : Type} {good : Prop} {P : Intake → Prop} {m : Watcher α}
    {Q : α → Intake → Prop} (h : Guarded start good P m Q) (hgood : good) {w : Intake} (hw : P w) :
    ∃ a w', m w = (.returned a, w') ∧ Q a w' := by
  have htotal : Triple P m Q (fun _ _ => False) fun _ => False :=
    Triple.imp h (fun _ hw => hw) (fun _ _ hw => hw) (fun _ _ hw => hw.2.2 hgood)
      fun _ hw => hw.2 hgood
  exact htotal.returns hw

theorem reject_moves (library : Library) (reasonCode detail : Text)
    (hstart : start.committed.Extends start.session)
    (hfree : rejectedName ∉ start.folder.map Prod.fst)
    (hfile : start.folder.lookup name = some content) :
    ∃ now, reject library name reasonCode detail start = (.returned (), now) ∧
      Moves library name start now := by
  unfold reject
  rw [if_neg hfree, hfile]
  exact ⟨_, rfl, ⟨.refl _, .refl _, .refl _⟩, hstart, rfl, rfl, content, reasonCode, detail, hfile,
    rfl⟩

theorem rollbackReject_moves {reasonCode detail : Text} (hworking : Working start now)
    (hrollback : faults.rollback = .none) (hfree : rejectedName ∉ start.folder.map Prod.fst)
    (hfile : start.folder.lookup name = some content) :
    ∃ last, (do
        rollbackSession faults.rollback
        reject library name reasonCode detail
        return false : Watcher Bool) now = (.returned false, last) ∧
      Moves library name start last := by
  have hrolled : rollbackSession faults.rollback now =
      (.returned (), { now with session := now.committed }) := by
    rw [hrollback]
    rfl
  have hback := hworking.rollback
  have hfreeBack : rejectedName ∉ { now with session := now.committed }.folder.map Prod.fst := by
    rw [hback.folder]
    exact hfree
  have hfileBack : { now with session := now.committed }.folder.lookup name = some content := by
    rw [hback.folder]
    exact hfile
  have ⟨last, hreject, hmoves⟩ :=
    reject_moves library reasonCode detail hback.session hfreeBack hfileBack
  refine ⟨last, ?_, hmoves.after hback⟩
  rw [bind_returned hrolled, bind_returned hreject]
  rfl

theorem refuse_moves (library : Library) {error : IntakeError} (hrefuses : error.refuses)
    (hworking : Working start now) (hrollback : faults.rollback = .none)
    (hfree : rejectedName ∉ start.folder.map Prod.fst)
    (hfile : start.folder.lookup name = some content) :
    ∃ last, refuse library faults name error now = (.returned false, last) ∧
      Moves library name start last := by
  cases error with
  | missingMandatoryBatchField field => exact rollbackReject_moves hworking hrollback hfree hfile
  | unsupportedMediaType mime => exact rollbackReject_moves hworking hrollback hfree hfile
  | _ => cases hrefuses

theorem body_refuses (stamps : IntakeStamps)
    (hstart : start.committed.Extends start.session)
    (hturned : turnsAway faults start.session request)
    (hfile : start.folder.lookup name = some content) :
    ∃ error now, (do
        let batch ← getOrCreateBatch faults stamps request
        let content ← openFile name
        let _ ← ingestDocument faults stamps batch content request.mime
        commitSession faults.commit
        return true) start = (.raised error, now) ∧ error.refuses ∧ Working start now := by
  unfold turnsAway at hturned
  cases hvalid : validateBatchMetadata request.metadata.district with
  | error error =>
    rw [hvalid] at hturned
    exact ⟨error, start, bind_raised (getOrCreateBatch_invalid hvalid), hturned, .refl hstart⟩
  | ok _ =>
    rw [hvalid] at hturned
    have ⟨hreached, hmime⟩ := Bool.and_eq_true_iff.mp hturned
    have hruns : ∃ batch w, getOrCreateBatch faults stamps request start = (.returned batch, w) ∧
        (_ ∧ _) ∧ InBatch start batch w :=
      (guarded_getOrCreateBatch hstart hvalid).returns hreached rfl
    have ⟨batch, w, hbatch, _, hin⟩ := hruns
    have hworking := hin.working hstart
    have hopen : openFile name w = (.returned content, w) :=
      openFile_found ((congrArg _ hworking.folder).trans hfile)
    cases hinvalid : validateMime request.mime with
    | ok _ =>
      rw [hinvalid] at hmime
      cases hmime
    | error error =>
      rw [hinvalid] at hmime
      refine ⟨error, w, ?_, hmime, hworking⟩
      rw [bind_returned hbatch, bind_returned hopen]
      exact bind_raised (ingestDocument_invalid hinvalid)

theorem takeIn_moves (hstart : start.committed.Extends start.session)
    (hturned : turnsAway faults start.session request) (hrollback : faults.rollback = .none)
    (hfree : rejectedName ∉ start.folder.map Prod.fst)
    (hfile : start.folder.lookup name = some content) :
    ∃ now, takeIn library faults stamps name request start = (.returned false, now) ∧
      Moves library name start now := by
  have ⟨error, w, hraised, hrefuses, hworking⟩ := body_refuses stamps hstart hturned hfile
  have ⟨last, hrefuse, hmoves⟩ :=
    refuse_moves library hrefuses hworking hrollback hfree hfile
  exact ⟨last, (handle_raised hraised).trans hrefuse, hmoves⟩

theorem ingestOne_moves (hstart : start.committed.Extends start.session)
    (hrejects : rejects library faults start name)
    (hfile : start.folder.lookup name = some content) :
    (ingestOne library faults stamps name start).2.moved = start.moved ++ [name] := by
  obtain ⟨hnowhere, hsidecar⟩ := Bool.and_eq_true_iff.mp hrejects
  have hfree : rejectedName ∉ start.folder.map Prod.fst := by simpa using hnowhere
  unfold ingestOne
  rw [read_bind]
  cases hbytes : start.folder.lookup (sidecarOf name) with
  | none =>
    obtain ⟨_, hreject, hmoves⟩ := reject_moves library "missing_batch_metadata".toList
      ("expected sidecar ".toList ++ sidecarOf name) hstart hfree hfile
    exact (congrArg (fun run => run.2.moved) hreject).trans hmoves.moved
  | some bytes =>
    rw [hbytes] at hsidecar
    cases hloads : library.loads bytes with
    | error fault =>
      simp only [hloads] at hsidecar ⊢
      cases fault with
      | undecodable message => cases hsidecar
      | decodeError message =>
        obtain ⟨_, hreject, hmoves⟩ := reject_moves library "invalid_batch_metadata".toList message
          hstart hfree hfile
        unfold ensure
        simp only [hreject]
        exact hmoves.moved
    | ok sidecar =>
      simp only [hloads] at hsidecar ⊢
      cases hrequest : batchRequest library name sidecar with
      | error error =>
        rw [hrequest] at hsidecar
        cases hsidecar
      | ok request =>
        rw [hrequest] at hsidecar
        obtain ⟨hturned, hrollback⟩ := Bool.and_eq_true_iff.mp hsidecar
        have hfreeLeft :
            rejectedName ∉ (removeFile (sidecarOf name) start).folder.map Prod.fst := fun hmem =>
          hfree ((Directory.mem_remove (ne_sidecarOf_of_candidate rejectedName_candidate)).mp hmem)
        have hstartLeft : (removeFile (sidecarOf name) start).committed.Extends
            (removeFile (sidecarOf name) start).session := hstart
        have htakeIn : ∃ now, takeIn library faults stamps name request
              (removeFile (sidecarOf name) start) = (.returned false, now) ∧
            Moves library name (removeFile (sidecarOf name) start) now :=
          takeIn_moves hstartLeft hturned (of_decide_eq_true hrollback) hfreeLeft
            (lookup_file_of_sidecar.trans hfile)
        obtain ⟨now, htaken, hmoves⟩ := htakeIn
        have hrequested : raiseIfError (Except.mapError IntakeError.raised (.ok request))
            (removeFile (sidecarOf name) start) =
              (.returned request, removeFile (sidecarOf name) start) := rfl
        rw [write_bind, bind_returned hrequested, bind_returned htaken]
        exact hmoves.moved

/-- A file in the folder is moved to the rejected ones exactly if it is to be rejected. -/
theorem moved_iff_rejects (hstart : start.committed.Extends start.session)
    (hfile : start.folder.lookup name = some content) :
    (ingestOne library faults stamps name start).2.moved = start.moved ++ [name] ↔
      rejects library faults start name := by
  constructor
  · intro hmoved
    by_contra hnot
    have hsame : (ingestOne library faults stamps name start).2.moved = start.moved := by
      apply Triple.world (P := (· = start)) (I := fun now => now.moved = start.moved) _ rfl
      apply (triple_ingestOne hstart).imp (fun _ h => h)
      · intro _ now hnow
        cases hnow with
        | inl henters => exact henters.elim fun _ henters => henters.moved
        | inr hturned => exact absurd hturned.1 hnot
      · exact fun _ _ hstays => hstays.moved
      · exact fun _ hstays => hstays.moved
    rw [hsame] at hmoved
    have hlength := congrArg List.length hmoved
    rw [List.length_append, List.length_singleton] at hlength
    omega
  · exact fun hrejects => ingestOne_moves hstart hrejects hfile

end Rejects

/-! ## One scan -/

def newSession (intake : Intake) : Intake := { intake with session := intake.committed }

def EachFile (library : Library) (plan : ScanPlan) (ok : Text → Intake → Prop) :
    List Text → Intake → Prop
  | [], _ => True
  | name :: rest, intake => ok name intake ∧
      match ingestOne library (plan name).1 (plan name).2 name intake with
      | (.returned _, after) => EachFile library plan ok rest after
      | (.raised _, _) | (.crashed, _) => True

instance decidableEachFile {library : Library} {plan : ScanPlan} {ok : Text → Intake → Prop}
    [∀ name intake, Decidable (ok name intake)] :
    ∀ names intake, Decidable (EachFile library plan ok names intake)
  | [], _ => inferInstanceAs (Decidable True)
  | name :: rest, intake =>
      haveI : ∀ after, Decidable (EachFile library plan ok rest after) :=
        fun after => decidableEachFile rest after
      haveI : Decidable (match ingestOne library (plan name).1 (plan name).2 name intake with
          | (.returned _, after) => EachFile library plan ok rest after
          | (.raised _, _) | (.crashed, _) => True) :=
        match ingestOne library (plan name).1 (plan name).2 name intake with
        | (.returned _, after) => inferInstanceAs (Decidable (EachFile library plan ok rest after))
        | (.raised _, _) | (.crashed, _) => inferInstanceAs (Decidable True)
      inferInstanceAs (Decidable (ok name intake ∧ _))

section Scan

variable {library : Library} {plan : ScanPlan} {ok : Text → Intake → Prop} {I : Intake → Prop}
  {s : Intake}

theorem eachFile_true : ∀ names s, EachFile library plan (fun _ _ => True) names s
  | [], _ => trivial
  | name :: rest, s => by
    refine ⟨trivial, ?_⟩
    split
    · exact eachFile_true rest _
    · trivial
    · trivial

theorem scanFiles_invariant {names : List Text} (hnames : ∀ name ∈ names, isCandidate name)
    (hfile : ∀ name s, isCandidate name → I s → ok name s →
      I (ingestOne library (plan name).1 (plan name).2 name s).2)
    (hs : I s) (hok : EachFile library plan ok names s) : I (scanFiles library plan names s).2 := by
  induction names generalizing s with
  | nil => exact hs
  | cons name rest ih =>
    have ⟨hcandidate, hcandidates⟩ := List.forall_mem_cons.mp hnames
    have ⟨hhere, hrest⟩ := hok
    have hafter := hfile name s hcandidate hs hhere
    unfold scanFiles
    cases hrun : ingestOne library (plan name).1 (plan name).2 name s with
    | mk exit after =>
      rw [hrun] at hafter hrest
      cases exit with
      | returned _ =>
        rw [bind_returned hrun]
        exact ih hcandidates hafter hrest
      | raised e =>
        rw [bind_raised hrun]
        exact hafter
      | crashed =>
        rw [bind_crashed hrun]
        exact hafter

theorem candidates_candidate : ∀ name ∈ candidates s, isCandidate name :=
  fun _ hmem => (List.mem_filter.mp hmem).2

theorem scanOnce_world :
    (scanOnce library plan s).2 = (scanFiles library plan (candidates s) (newSession s)).2 := by
  unfold scanOnce
  rw [write_bind, read_bind]
  exact world_bind (I := fun w => w = (scanFiles library plan (candidates s) (newSession s)).2)
    rfl fun _ => preserves_pure _

theorem scanOnce_invariant
    (hfile : ∀ name s, isCandidate name → I s → ok name s →
      I (ingestOne library (plan name).1 (plan name).2 name s).2)
    (hs : I (newSession s)) (hok : EachFile library plan ok (candidates s) (newSession s)) :
    I (scanOnce library plan s).2 := by
  rw [scanOnce_world]
  exact scanFiles_invariant candidates_candidate hfile hs hok

end Scan

end LandRecords.Ingest
