import LandRecords.Base.Runs
import LandRecords.Base.TwoRuns
import LandRecords.Review.Routes

/-! Audit tasks and their routed twins answer alike, unless somebody submits a verdict that
is none. -/
namespace LandRecords.Review

open Backend Audit Datetime Text Fallible

variable {twins : List Text} {db db' : Database}

def unstreamed (row : Correction) : Correction := { row with stream := .routed }

def unstreamedPending (row : PendingCorrection) : PendingCorrection := { row with stream := .routed }

/-- The states of the two runs. The corrections of the twins differ in their stream. -/
structure TwinStates (twins : List Text) (db db' : Database) : Prop where
  tasks : db'.reviewTasks = db.reviewTasks.map (asRouted twins)
  samples : db'.auditSamples = db.auditSamples.filter fun sample => !ofTwin twins sample
  sampleKeys : (db.auditSamples.map AuditSample.id).Nodup
  sampled : ∀ taskId ∈ twins,
    (db.auditSamples.filter fun sample => sample.reviewTaskId = some taskId).length = 1
  corrections : db'.corrections.map unstreamed = db.corrections.map unstreamed
  pendings : db'.pendingCorrections.map unstreamedPending =
    db.pendingCorrections.map unstreamedPending
  extractions : db'.extractions = db.extractions
  pages : db'.pages = db.pages
  sessions : db'.reviewSessions = db.reviewSessions

theorem AuditTwins.twinStates (h : AuditTwins twins db) :
    TwinStates twins db (routedTwin twins db) :=
  ⟨rfl, rfl, h.sampleKeys, h.sampled, rfl, rfl, rfl, rfl, rfl⟩

abbrev SameEnd {α β : Type} (twins : List Text) (Q : α → β → Prop) (m : Session α) (m' : Session β) :
    Prop :=
  Alike (TwinStates twins) (fun e => e = .integrityError) Q m m'

section Rows

variable {row : ReviewTask}

@[simp] theorem asRouted_id (twins : List Text) (row : ReviewTask) :
    (asRouted twins row).id = row.id := by
  unfold asRouted
  split <;> rfl

@[simp] theorem asRouted_extractionId (twins : List Text) (row : ReviewTask) :
    (asRouted twins row).extractionId = row.extractionId := by
  unfold asRouted
  split <;> rfl

@[simp] theorem asRouted_assignee (twins : List Text) (row : ReviewTask) :
    (asRouted twins row).assignee = row.assignee := by
  unfold asRouted
  split <;> rfl

@[simp] theorem asRouted_closedAt (twins : List Text) (row : ReviewTask) :
    (asRouted twins row).closedAt = row.closedAt := by
  unfold asRouted
  split <;> rfl

@[simp] theorem asRouted_openedAt (twins : List Text) (row : ReviewTask) :
    (asRouted twins row).openedAt = row.openedAt := by
  unfold asRouted
  split <;> rfl

@[simp] theorem strip_asRouted (twins : List Text) (row : ReviewTask) :
    stripReviewTaskInternals (asRouted twins row) = stripReviewTaskInternals row := by
  unfold asRouted
  split <;> rfl

theorem TwinStates.reviewTask? (h : TwinStates twins db db') (id : Text) :
    db'.reviewTask? id = (db.reviewTask? id).map (asRouted twins) := by
  unfold Database.reviewTask?
  rw [h.tasks]
  exact Rows.find?_map_key (asRouted_id twins) db.reviewTasks id

theorem TwinStates.extraction? (h : TwinStates twins db db') (id : Text) :
    db'.extraction? id = db.extraction? id := by
  unfold Database.extraction?
  rw [h.extractions]

theorem TwinStates.page? (h : TwinStates twins db db') (id : Text) : db'.page? id = db.page? id := by
  unfold Database.page?
  rw [h.pages]

theorem TwinStates.filterTasks (h : TwinStates twins db db') {selects : ReviewTask → Bool}
    (hselects : ∀ row, selects (asRouted twins row) = selects row) :
    db'.reviewTasks.filter selects = (db.reviewTasks.filter selects).map (asRouted twins) := by
  rw [h.tasks, List.filter_map]
  congr 1
  exact List.filter_congr fun row _ => hselects row

theorem TwinStates.oldestUnclaimed (h : TwinStates twins db db') :
    Review.oldestUnclaimed db' = (Review.oldestUnclaimed db).map (asRouted twins) := by
  unfold Review.oldestUnclaimed
  rw [h.filterTasks fun row => by simp, orderBy_map (asRouted_openedAt twins), List.head?_map]

theorem TwinStates.listReviewTasks (h : TwinStates twins db db') :
    Review.listReviewTasks db' = Review.listReviewTasks db := by
  unfold Review.listReviewTasks
  rw [h.filterTasks fun row => by simp, orderBy_map (asRouted_openedAt twins), List.map_map]
  exact List.map_congr_left fun row _ => strip_asRouted twins row

theorem TwinStates.claimantOf (h : TwinStates twins db db') (extractionId : Text) :
    Review.claimantOf db' extractionId = Review.claimantOf db extractionId := by
  unfold Review.claimantOf
  rw [h.filterTasks fun row => by simp, List.head?_map, Option.bind_map]
  exact Option.bind_congr fun row _ => asRouted_assignee twins row

theorem TwinStates.mapTask (h : TwinStates twins db db') (taskId : Text)
    {update : ReviewTask → ReviewTask}
    (hupdate : ∀ row, update (asRouted twins row) = asRouted twins (update row)) :
    TwinStates twins (Review.mapTask taskId update db) (Review.mapTask taskId update db') := by
  refine ⟨?_, h.samples, h.sampleKeys, h.sampled, h.corrections, h.pendings, h.extractions, h.pages,
    h.sessions⟩
  change db'.reviewTasks.map _ = (db.reviewTasks.map _).map _
  rw [h.tasks, List.map_map, List.map_map]
  refine List.map_congr_left fun row _ => ?_
  simp only [Function.comp_apply, asRouted_id]
  split
  · exact hupdate row
  · rfl

end Rows

section Pendings

theorem unstreamedPending_id (row : PendingCorrection) : (unstreamedPending row).id = row.id := rfl

theorem TwinStates.pendingCorrection? (h : TwinStates twins db db') (id : Text) :
    (db'.pendingCorrection? id).map unstreamedPending =
      (db.pendingCorrection? id).map unstreamedPending := by
  unfold Database.pendingCorrection?
  rw [← Rows.find?_map_key unstreamedPending_id, h.pendings, Rows.find?_map_key unstreamedPending_id]

theorem map_unstreamedPending_resolve (pendingId actor correctionId : Text) (confirmedAt : Instant)
    (rows : List PendingCorrection) :
    (resolvePending pendingId actor correctionId confirmedAt rows).map unstreamedPending =
      resolvePending pendingId actor correctionId confirmedAt (rows.map unstreamedPending) := by
  unfold resolvePending
  rw [List.map_map, List.map_map]
  refine List.map_congr_left fun row _ => ?_
  rw [Function.comp_apply, Function.comp_apply]
  by_cases hown : row.id = pendingId
  · have hsame : (unstreamedPending row).id = pendingId := hown
    rw [if_pos hown, if_pos hsame]
    rfl
  · have hother : (unstreamedPending row).id ≠ pendingId := hown
    rw [if_neg hown, if_neg hother]

theorem TwinStates.resolved (h : TwinStates twins db db') (pendingId actor correctionId : Text)
    (confirmedAt : Instant) :
    TwinStates twins (withResolved pendingId actor correctionId confirmedAt db)
      (withResolved pendingId actor correctionId confirmedAt db') := by
  refine ⟨h.tasks, h.samples, h.sampleKeys, h.sampled, h.corrections, ?_, h.extractions, h.pages,
    h.sessions⟩
  unfold withResolved
  rw [map_unstreamedPending_resolve, map_unstreamedPending_resolve, h.pendings]

end Pendings

section Programs

theorem sameEnd_auditAppend (entry : Stamp) (args : AppendArgs) :
    SameEnd twins Eq (auditAppend entry args) (auditAppend entry args) := by
  intro db db' h
  unfold auditAppend
  split
  · exact .excusedLeft rfl
  · split
    · exact .excusedRight rfl
    · exact .returned rfl ⟨h.tasks, h.samples, h.sampleKeys, h.sampled, h.corrections, h.pendings,
        h.extractions, h.pages, h.sessions⟩

theorem sameEnd_addRow {taken taken' : Database → Bool} {insert insert' : Database → Database}
    (h : ∀ db db', TwinStates twins db db' → TwinStates twins (insert db) (insert' db')) :
    SameEnd twins Eq (addRow taken insert) (addRow taken' insert') := by
  intro db db' hstates
  unfold addRow
  split
  · exact .excusedLeft rfl
  · split
    · exact .excusedRight rfl
    · exact .returned rfl (h db db' hstates)

theorem sameEnd_addCorrection {row row' : Correction} (h : unstreamed row' = unstreamed row) :
    SameEnd twins Eq (addCorrection row) (addCorrection row') := by
  refine sameEnd_addRow fun db db' hstates => ?_
  refine ⟨hstates.tasks, hstates.samples, hstates.sampleKeys, hstates.sampled, ?_, hstates.pendings,
    hstates.extractions, hstates.pages, hstates.sessions⟩
  change (db'.corrections ++ [row']).map unstreamed = (db.corrections ++ [row]).map unstreamed
  rw [List.map_append, List.map_append, hstates.corrections, List.map_singleton, List.map_singleton, h]

theorem sameEnd_addPendingCorrection {row row' : PendingCorrection}
    (h : unstreamedPending row' = unstreamedPending row) :
    SameEnd twins Eq (addPendingCorrection row) (addPendingCorrection row') := by
  refine sameEnd_addRow fun db db' hstates => ?_
  refine ⟨hstates.tasks, hstates.samples, hstates.sampleKeys, hstates.sampled, hstates.corrections,
    ?_, hstates.extractions, hstates.pages, hstates.sessions⟩
  change (db'.pendingCorrections ++ [row']).map unstreamedPending =
    (db.pendingCorrections ++ [row]).map unstreamedPending
  rw [List.map_append, List.map_append, hstates.pendings, List.map_singleton, List.map_singleton, h]

theorem sameEnd_withSessions (rows : List ReviewSession) :
    SameEnd twins Eq (Fallible.write (withSessions rows)) (Fallible.write (withSessions rows)) :=
  alike_write fun _ _ h => ⟨h.tasks, h.samples, h.sampleKeys, h.sampled, h.corrections, h.pendings,
    h.extractions, h.pages, rfl⟩

theorem TwinStates.addSession (h : TwinStates twins db db') (row : ReviewSession) :
    TwinStates twins (withSessions (db.reviewSessions ++ [row]) db)
      (withSessions (db'.reviewSessions ++ [row]) db') :=
  ⟨h.tasks, h.samples, h.sampleKeys, h.sampled, h.corrections, h.pendings, h.extractions, h.pages,
    congrArg (fun rows => rows ++ [row]) h.sessions⟩

theorem sameEnd_touchSession (actor sessionId : Text) (now : Instant) :
    SameEnd twins Eq (touchSession actor sessionId now) (touchSession actor sessionId now) := by
  refine alike_read_bind (P := Eq) (fun db db' h => ?_) fun current _ hcurrent => ?_
  · unfold openSession
    rw [h.sessions]
  · subst hcurrent
    refine alike_read_bind (P := Eq) (fun db db' h => h.sessions.symm) fun rows _ hrows => ?_
    subst hrows
    have hstart : SameEnd twins Eq
        (addRow (fun db => sessionId ∈ db.reviewSessions.map ReviewSession.id) fun db =>
          withSessions (db.reviewSessions ++ [⟨sessionId, actor, now, now, none⟩]) db)
        (addRow (fun db => sessionId ∈ db.reviewSessions.map ReviewSession.id) fun db =>
          withSessions (db.reviewSessions ++ [⟨sessionId, actor, now, now, none⟩]) db) :=
      sameEnd_addRow fun _ _ h => h.addSession _
    split
    · exact alike_bind (sameEnd_withSessions _) fun _ _ _ => alike_pure rfl
    · split
      · exact alike_bind (sameEnd_withSessions _) fun _ _ _ =>
          alike_bind hstart fun _ _ _ => alike_pure rfl
      · exact alike_bind hstart fun _ _ _ => alike_pure rfl

theorem sameEnd_mapTask (taskId : Text) {update : ReviewTask → ReviewTask}
    (hupdate : ∀ row, update (asRouted twins row) = asRouted twins (update row)) :
    SameEnd twins Eq (Fallible.write (mapTask taskId update))
      (Fallible.write (mapTask taskId update)) :=
  alike_write fun _ _ h => h.mapTask taskId hupdate

theorem claimedBy_asRouted (actor : Text) (hour : Int) (row : ReviewTask) :
    claimedBy actor hour (asRouted twins row) = asRouted twins (claimedBy actor hour row) := by
  by_cases htwin : row.id ∈ twins <;> simp [asRouted, claimedBy, htwin]

theorem released_asRouted (row : ReviewTask) :
    released (asRouted twins row) = asRouted twins (released row) := by
  by_cases htwin : row.id ∈ twins <;> simp [asRouted, released, htwin]

theorem closedOn_asRouted (time : Instant) (row : ReviewTask) :
    closedOn time (asRouted twins row) = asRouted twins (closedOn time row) := by
  by_cases htwin : row.id ∈ twins <;> simp [asRouted, closedOn, htwin]

theorem sameEnd_claimNext (actor sessionId : Text) (now : Instant) :
    SameEnd twins Eq (claimNext actor sessionId now) (claimNext actor sessionId now) := by
  refine alike_read_bind (P := fun task task' => task' = task.map (asRouted twins))
    (fun db db' h => h.oldestUnclaimed) fun task _ htask => ?_
  subst htask
  cases task with
  | none => exact alike_pure rfl
  | some task =>
    simp only [Option.map_some, asRouted_id]
    refine alike_bind (sameEnd_touchSession actor sessionId now) fun hour _ hhour => ?_
    subst hhour
    exact alike_bind (sameEnd_mapTask task.id (claimedBy_asRouted actor hour)) fun _ _ _ =>
      alike_pure rfl

theorem sameEnd_claimedTask (taskId actor : Text) :
    SameEnd twins (fun task task' => task' = asRouted twins task ∧ task.id = taskId)
      (claimedTask taskId actor) (claimedTask taskId actor) := by
  refine alike_read_bind
    (P := fun task task' => task' = task.map (asRouted twins) ∧ ∀ row ∈ task, row.id = taskId)
    (fun db db' h => ⟨h.reviewTask? taskId, fun row hrow => Database.reviewTask?_id hrow⟩)
    fun task _ ⟨htask, hid⟩ => ?_
  subst htask
  cases task with
  | none => exact alike_raise _
  | some task =>
    simp only [Option.map_some, asRouted_closedAt, asRouted_assignee]
    split
    · exact alike_raise _
    · split
      · exact alike_raise _
      · exact alike_pure ⟨rfl, hid task rfl⟩

theorem sameEnd_skip (taskId actor : Text) (entry : Stamp) :
    SameEnd twins Eq (skip taskId actor entry) (skip taskId actor entry) := by
  refine alike_bind (sameEnd_claimedTask taskId actor) fun task _ ⟨htask, _⟩ => ?_
  subst htask
  simp only [asRouted_id]
  exact alike_bind (sameEnd_mapTask task.id released_asRouted) fun _ _ _ => sameEnd_auditAppend _ _

theorem sameEnd_sourcePageDigestFor (page : Option Page) :
    SameEnd twins Eq (sourcePageDigestFor page) (sourcePageDigestFor page) := by
  cases page with
  | none => exact alike_raise _
  | some page =>
    unfold sourcePageDigestFor
    dsimp only
    split
    · exact alike_pure rfl
    · exact alike_raise _

def SameRow : Correction ⊕ PendingCorrection → Correction ⊕ PendingCorrection → Prop
  | .inl row, .inl row' => row.id = row'.id
  | .inr row, .inr row' => row.id = row'.id
  | _, _ => False

theorem sameEnd_submitCorrection (extraction : Extraction) (corrected actor : Text)
    (stream stream' : SourceStream) (row entry : Stamp) :
    SameEnd twins SameRow (submitCorrection extraction corrected actor stream row entry)
      (submitCorrection extraction corrected actor stream' row entry) := by
  refine alike_read_bind (P := Eq) (fun db db' h => (h.page? _).symm) fun page _ hpage => ?_
  subst hpage
  refine alike_bind (sameEnd_sourcePageDigestFor page) fun digest _ hdigest => ?_
  subst hdigest
  split
  · refine alike_bind (sameEnd_addPendingCorrection rfl) fun _ _ _ => ?_
    exact alike_bind (sameEnd_auditAppend _ _) fun _ _ _ => alike_pure rfl
  · refine alike_bind (sameEnd_addCorrection rfl) fun _ _ _ => ?_
    exact alike_bind (sameEnd_auditAppend _ _) fun _ _ _ => alike_pure rfl

theorem sameEnd_confirmPendingCorrection (pendingId actor : Text) (row : Stamp)
    (confirmedAt : Instant) (entry : Stamp) :
    SameEnd twins (fun correction correction' => correction.id = correction'.id)
      (confirmPendingCorrection pendingId actor row confirmedAt entry)
      (confirmPendingCorrection pendingId actor row confirmedAt entry) := by
  refine alike_read_bind
    (P := fun pending pending' => pending'.map unstreamedPending = pending.map unstreamedPending)
    (fun db db' h => h.pendingCorrection? pendingId) fun pending pending' hpending => ?_
  cases pending with
  | none =>
    obtain rfl := Option.map_eq_none_iff.mp hpending
    exact alike_raise _
  | some pending =>
    obtain ⟨pending', rfl, hsame⟩ := Option.map_eq_some_iff.mp hpending
    obtain ⟨id, extractionId, cropUri, predicted, corrected, distance, fieldClass, firstActor,
      modelVersion, configVersion, stream, digest, openedAt, state, confirmedBy, confirmedOn,
      resulting⟩ := pending
    obtain ⟨id', extractionId', cropUri', predicted', corrected', distance', fieldClass', firstActor',
      modelVersion', configVersion', stream', digest', openedAt', state', confirmedBy', confirmedOn',
      resulting'⟩ := pending'
    simp only [unstreamedPending, PendingCorrection.mk.injEq, true_and] at hsame
    obtain ⟨rfl, rfl, rfl, rfl, rfl, rfl, rfl, rfl, rfl, rfl, rfl, rfl, rfl, rfl, rfl, rfl⟩ := hsame
    dsimp only
    split
    · exact alike_raise _
    · refine alike_read_bind (P := Eq) (fun db db' h => (h.claimantOf _).symm) fun claimant _ hclaimant => ?_
      subst hclaimant
      split
      · exact alike_bind (sameEnd_auditAppend _ _) fun _ _ _ => alike_raise _
      · refine alike_bind (sameEnd_addCorrection rfl) fun _ _ _ => ?_
        refine alike_bind (P := Eq) (alike_write fun db db' h => h.resolved ..) fun _ _ _ => ?_
        exact alike_bind (sameEnd_auditAppend _ _) fun _ _ _ => alike_pure rfl

end Programs

section Verdicts

theorem ofTwin_of_task {sample : AuditSample} {taskId : Text} (h : sample.reviewTaskId = some taskId) :
    ofTwin twins sample = decide (taskId ∈ twins) := by
  rw [ofTwin, h]
  rfl

theorem TwinStates.noSample (h : TwinStates twins db db') {taskId : Text} (htwin : taskId ∈ twins) :
    db'.auditSamples.filter (fun sample => sample.reviewTaskId = some taskId) = [] := by
  rw [h.samples, List.filter_filter, List.filter_eq_nil_iff]
  intro sample _ hsample
  rw [Bool.and_eq_true, decide_eq_true_eq] at hsample
  rw [ofTwin_of_task hsample.1, decide_eq_true htwin] at hsample
  exact absurd hsample.2 (by decide)

theorem TwinStates.sameSamples (h : TwinStates twins db db') {taskId : Text}
    (hother : taskId ∉ twins) :
    db'.auditSamples.filter (fun sample => sample.reviewTaskId = some taskId) =
      db.auditSamples.filter fun sample => sample.reviewTaskId = some taskId := by
  rw [h.samples, List.filter_filter]
  refine List.filter_congr fun sample _ => ?_
  by_cases hown : sample.reviewTaskId = some taskId
  · rw [decide_eq_true hown, ofTwin_of_task hown, decide_eq_false hother]
    rfl
  · rw [decide_eq_false hown, Bool.false_and]

def withVerdict (verdict : OfficerVerdict) (row : AuditSample) : AuditSample :=
  { row with officerVerdict := verdict, agreed := some (verdict = .agree) }

theorem mapSample_sampleKeys (sampleId : Text) (verdict : OfficerVerdict) (db : Database) :
    (mapSample sampleId (withVerdict verdict) db).auditSamples.map AuditSample.id =
      db.auditSamples.map AuditSample.id :=
  have hid : ∀ row, (withVerdict verdict row).id = row.id := fun _ => rfl
  Rows.map_updateAt hid db.auditSamples

theorem mapSample_sampled (sampleId : Text) (verdict : OfficerVerdict) (db : Database)
    (taskId : Text) :
    ((mapSample sampleId (withVerdict verdict) db).auditSamples.filter fun sample =>
      sample.reviewTaskId = some taskId).length =
      (db.auditSamples.filter fun sample => sample.reviewTaskId = some taskId).length := by
  have hselects : ∀ row, decide ((withVerdict verdict row).reviewTaskId = some taskId) =
      decide (row.reviewTaskId = some taskId) := fun _ => rfl
  calc ((mapSample sampleId (withVerdict verdict) db).auditSamples.filter fun sample =>
        sample.reviewTaskId = some taskId).length
      = (Rows.updateAt AuditSample.id sampleId (withVerdict verdict)
          (db.auditSamples.filter fun sample => sample.reviewTaskId = some taskId)).length :=
        congrArg List.length (Rows.filter_updateAt hselects db.auditSamples)
    _ = (db.auditSamples.filter fun sample => sample.reviewTaskId = some taskId).length :=
        List.length_map ..

theorem filter_mapSample (sampleId : Text) (verdict : OfficerVerdict) (rows : List AuditSample) :
    (Rows.updateAt AuditSample.id sampleId (withVerdict verdict) rows).filter
        (fun sample => !ofTwin twins sample) =
      Rows.updateAt AuditSample.id sampleId (withVerdict verdict)
        (rows.filter fun sample => !ofTwin twins sample) :=
  have hselects : ∀ row, (!ofTwin twins (withVerdict verdict row)) = !ofTwin twins row :=
    fun _ => rfl
  Rows.filter_updateAt hselects rows

theorem TwinStates.twinVerdict (h : TwinStates twins db db') {sample : AuditSample}
    (hsample : sample ∈ db.auditSamples) (htwin : ofTwin twins sample = true)
    (verdict : OfficerVerdict) :
    TwinStates twins (mapSample sample.id (withVerdict verdict) db) db' := by
  refine ⟨h.tasks, ?_, ?_, fun taskId htask => ?_, h.corrections, h.pendings, h.extractions, h.pages,
    h.sessions⟩
  · have hgone : sample.id ∉
        (db.auditSamples.filter fun sample => !ofTwin twins sample).map AuditSample.id := by
      intro hmem
      obtain ⟨other, hother, hid⟩ := List.mem_map.mp hmem
      obtain ⟨hrow, hkept⟩ := List.mem_filter.mp hother
      obtain rfl := List.inj_on_of_nodup_map h.sampleKeys hrow hsample hid
      rw [htwin] at hkept
      cases hkept
    rw [h.samples]
    exact ((filter_mapSample sample.id verdict db.auditSamples).trans
      (Rows.updateAt_of_notMem hgone)).symm
  · rw [mapSample_sampleKeys]
    exact h.sampleKeys
  · rw [mapSample_sampled]
    exact h.sampled taskId htask

theorem TwinStates.sameVerdict (h : TwinStates twins db db') (sampleId : Text)
    (verdict : OfficerVerdict) :
    TwinStates twins (mapSample sampleId (withVerdict verdict) db)
      (mapSample sampleId (withVerdict verdict) db') := by
  refine ⟨h.tasks, ?_, ?_, fun taskId htask => ?_, h.corrections, h.pendings, h.extractions, h.pages,
    h.sessions⟩
  · change Rows.updateAt AuditSample.id sampleId (withVerdict verdict) db'.auditSamples = _
    rw [h.samples]
    exact (filter_mapSample sampleId verdict db.auditSamples).symm
  · rw [mapSample_sampleKeys]
    exact h.sampleKeys
  · rw [mapSample_sampled]
    exact h.sampled taskId htask

theorem sameEnd_recordOfficerVerdict (sample : AuditSample) (verdict actor : Text) (entry : Stamp) :
    SameEnd twins Eq (recordOfficerVerdict sample verdict actor entry)
      (recordOfficerVerdict sample verdict actor entry) := by
  unfold recordOfficerVerdict
  split
  · exact alike_raise _
  · rename_i officerVerdict _
    exact alike_bind (P := Eq) (alike_write fun db db' h => h.sameVerdict sample.id officerVerdict)
      fun _ _ _ => sameEnd_auditAppend _ _

theorem sameEnd_taskSample {taskId : Text} (hother : taskId ∉ twins) :
    SameEnd twins Eq
      (scalarOneOrNone fun db => db.auditSamples.filter fun row => row.reviewTaskId = some taskId)
      (scalarOneOrNone fun db => db.auditSamples.filter fun row => row.reviewTaskId = some taskId) := by
  intro db db' h
  unfold scalarOneOrNone
  dsimp only
  rw [h.sameSamples hother]
  split
  · exact .returned rfl h
  · exact .returned rfl h
  · exact .raised h

theorem sameEnd_recordSampleVerdict (task : ReviewTask) (verdict : Option Text) (actor : Text)
    (entry : Stamp)
    (hvalid : task.id ∈ twins → ∀ text ∈ verdict, OfficerVerdict.ofText? text ≠ none) :
    SameEnd twins Eq (recordSampleVerdict task verdict actor entry)
      (recordSampleVerdict (asRouted twins task) verdict actor entry) := by
  unfold recordSampleVerdict
  rw [asRouted_id]
  by_cases htwin : task.id ∈ twins
  · intro db db' h
    obtain ⟨sample, hsample⟩ := List.length_eq_one_iff.mp (h.sampled task.id htwin)
    have hmem : sample ∈ db.auditSamples ∧ sample.reviewTaskId = some task.id := by
      have hrow := List.mem_filter.mp (hsample ▸ List.mem_singleton_self sample)
      exact ⟨hrow.1, of_decide_eq_true hrow.2⟩
    have hown : ofTwin twins sample = true := by
      rw [ofTwin_of_task hmem.2, decide_eq_true htwin]
    have hfound : scalarOneOrNone (fun db => db.auditSamples.filter fun row =>
        row.reviewTaskId = some task.id) db = (.returned (some sample), db) :=
      scalarOneOrNone_returned.mpr ⟨hsample, rfl⟩
    have hnone : scalarOneOrNone (fun db => db.auditSamples.filter fun row =>
        row.reviewTaskId = some task.id) db' = (.returned none, db') :=
      scalarOneOrNone_returned.mpr ⟨h.noSample htwin, rfl⟩
    rw [bind_returned hfound, bind_returned hnone]
    cases verdict with
    | none => exact .returned rfl h
    | some text =>
      cases hverdict : OfficerVerdict.ofText? text with
      | none => exact absurd hverdict (hvalid htwin text rfl)
      | some officerVerdict =>
        simp only [recordOfficerVerdict, hverdict, write_bind]
        have hkept := h.twinVerdict hmem.1 hown officerVerdict
        unfold auditAppend
        split
        · exact .excusedLeft rfl
        · exact .returned rfl ⟨hkept.tasks, hkept.samples, hkept.sampleKeys, hkept.sampled,
            hkept.corrections, hkept.pendings, hkept.extractions, hkept.pages, hkept.sessions⟩
  · refine alike_bind (sameEnd_taskSample htwin) fun sample _ hsample => ?_
    subst hsample
    split
    · exact sameEnd_recordOfficerVerdict _ _ actor entry
    · exact alike_pure rfl

theorem submitResult_sameRow (task : ReviewTask) (extraction : Extraction)
    {row row' : Correction ⊕ PendingCorrection} (h : SameRow row row') :
    submitResult task extraction row = submitResult (asRouted twins task) extraction row' := by
  cases row with
  | inl row =>
    cases row' with
    | inl row' =>
      have hid : row.id = row'.id := h
      simp only [submitResult, asRouted_id, hid]
    | inr row' => cases h
  | inr row =>
    cases row' with
    | inl row' => cases h
    | inr row' =>
      have hid : row.id = row'.id := h
      simp only [submitResult, asRouted_id, hid]

theorem sameEnd_submit (taskId actor value : Text) (verdict : Option Text) (stamps : SubmitStamps)
    (hvalid : taskId ∈ twins → ∀ text ∈ verdict, OfficerVerdict.ofText? text ≠ none) :
    SameEnd twins Eq (submit taskId actor value verdict stamps)
      (submit taskId actor value verdict stamps) := by
  refine alike_bind (sameEnd_claimedTask taskId actor) fun task _ ⟨htask, hid⟩ => ?_
  subst htask hid
  simp only [asRouted_id, asRouted_extractionId]
  refine alike_read_bind (P := Eq) (fun db db' h => (h.extraction? _).symm)
    fun extraction _ hextraction => ?_
  subst hextraction
  cases extraction with
  | none => exact alike_raise _
  | some extraction =>
    refine alike_bind (sameEnd_submitCorrection _ _ _ _ _ _ _) fun row row' hrow => ?_
    refine alike_bind (sameEnd_recordSampleVerdict task verdict actor _ hvalid) fun _ _ _ => ?_
    refine alike_bind (sameEnd_mapTask task.id (closedOn_asRouted _)) fun _ _ _ => ?_
    exact alike_bind (sameEnd_auditAppend _ _) fun _ _ _ =>
      alike_pure (submitResult_sameRow task extraction hrow)

end Verdicts

section Routes

variable {signGet : Text → Nat → Text}

theorem sameEnd_fetchCrop (taskId actor : Text) (entry : Stamp) :
    SameEnd twins Eq (fetchCrop signGet taskId actor entry) (fetchCrop signGet taskId actor entry) := by
  refine alike_read_bind (P := fun task task' => task' = task.map (asRouted twins))
    (fun db db' h => h.reviewTask? taskId) fun task _ htask => ?_
  subst htask
  cases task with
  | none => exact alike_pure rfl
  | some task =>
    simp only [Option.map_some, asRouted_assignee, asRouted_id, asRouted_extractionId]
    split
    · exact alike_pure rfl
    · refine alike_read_bind (P := Eq) (fun db db' h => (h.extraction? _).symm)
        fun extraction _ hextraction => ?_
      subst hextraction
      split
      · exact alike_pure rfl
      · refine alike_read_bind (P := Eq) (fun db db' h => ?_) fun page _ hpage => ?_
        · rw [h.page?]
        · subst hpage
          split
          · exact alike_pure rfl
          · exact alike_bind (sameEnd_auditAppend _ _) fun _ _ _ => alike_pure rfl

section InRoute

variable {α : Type} {Q : α → α → Prop} {run run' : Session α}
variable {answer : α → Database → Response} {refuse : Error → Response} {commits : Error → Bool}

theorem inRoute_returned {value : α} {after : Database} (h : run db = (.returned value, after)) :
    inRoute run answer refuse commits db = (.returned (answer value after), after) := by
  rw [inRoute, h]

theorem inRoute_taken {after : Database} (h : run db = (.raised .integrityError, after)) :
    inRoute run answer refuse commits db = (.raised .integrityError, after) := by
  rw [inRoute, h]

theorem inRoute_raised {e : Error} {after : Database} (h : run db = (.raised e, after))
    (he : e ≠ .integrityError) : inRoute run answer refuse commits db =
      (.returned (refuse e), if commits e then after else db) := by
  rw [inRoute, h]
  cases e with
  | integrityError => exact absurd rfl he
  | _ => rfl

theorem inRoute_crashed {after : Database} (h : run db = (.crashed, after)) :
    inRoute run answer refuse commits db = (.crashed, after) := by
  rw [inRoute, h]

theorem endAlike_inRoute (h : TwinStates twins db db')
    (hends : EndAlike (TwinStates twins) (fun e => e = .integrityError) Q (run db) (run' db'))
    (hanswer : ∀ a b db db', Q a b → TwinStates twins db db' → answer a db = answer b db') :
    EndAlike (TwinStates twins) (fun e => e = .integrityError) Eq
      (inRoute run answer refuse commits db) (inRoute run' answer refuse commits db') := by
  cases hx : run db with
  | mk exit after =>
    cases hy : run' db' with
    | mk exit' after' =>
      rw [hx, hy] at hends
      cases hends with
      | returned hvalues hstates =>
        rw [inRoute_returned hx, inRoute_returned hy, hanswer _ _ _ _ hvalues hstates]
        exact .returned rfl hstates
      | @raised e _ _ hstates =>
        by_cases he : e = .integrityError
        · subst he
          rw [inRoute_taken hx]
          exact .excusedLeft rfl
        · rw [inRoute_raised hx he, inRoute_raised hy he]
          refine .returned rfl ?_
          split
          · exact hstates
          · exact h
      | crashed hstates =>
        rw [inRoute_crashed hx, inRoute_crashed hy]
        exact .crashed hstates
      | excusedLeft he =>
        subst he
        rw [inRoute_taken hx]
        exact .excusedLeft rfl
      | excusedRight he =>
        subst he
        rw [inRoute_taken hy]
        exact .excusedRight rfl

end InRoute

theorem claimedTask_fst (taskId actor : Text) (db : Database) : (claimedTask taskId actor db).1 =
    match db.reviewTask? taskId with
    | none => .raised (.keyError "review_task".toList taskId)
    | some task =>
        if task.closedAt ≠ none then .raised (.reviewTaskNotClaimable taskId)
        else if task.assignee ≠ some actor then
          .raised (.notTheClaimant taskId task.assignee actor)
        else .returned task := by
  rw [claimedTask, read_bind]
  cases db.reviewTask? taskId with
  | none => rfl
  | some task =>
    dsimp only
    split
    · rfl
    · split
      · rfl
      · rfl

theorem submittable_iff {taskId actor : Text} : submittable db taskId actor = true ↔
    ∃ task extraction page, claimedTask taskId actor db = (.returned task, db) ∧
      db.extraction? task.extractionId = some extraction ∧
      db.page? extraction.pageId = some page ∧ isTruthy page.storageUri = true := by
  unfold submittable
  constructor
  · intro h
    cases hclaimed : claimedTask taskId actor db with
    | mk exit after =>
      rw [hclaimed] at h
      cases exit with
      | returned task =>
        obtain ⟨-, -, -, rfl⟩ := claimedTask_returned hclaimed
        obtain ⟨extraction, hextraction, hpages⟩ := (Option.any_eq_true _ _).mp h
        obtain ⟨page, hpage, huri⟩ := (Option.any_eq_true _ _).mp hpages
        exact ⟨task, extraction, page, rfl, hextraction, hpage, huri⟩
      | raised e => cases h
      | crashed => cases h
  · rintro ⟨task, extraction, page, hclaimed, hextraction, hpage, huri⟩
    rw [hclaimed]
    simp only [hextraction, hpage, Option.any_some, huri]

theorem submit_unsubmittable {taskId actor : Text} (h : submittable db taskId actor = false)
    (value : Text) (verdict verdict' : Option Text) (stamps : SubmitStamps) :
    submit taskId actor value verdict stamps db = submit taskId actor value verdict' stamps db := by
  cases hclaimed : claimedTask taskId actor db with
  | mk exit after =>
    cases exit with
    | raised e => rw [submit, submit, bind_raised hclaimed, bind_raised hclaimed]
    | crashed => rw [submit, submit, bind_crashed hclaimed, bind_crashed hclaimed]
    | returned task =>
      obtain ⟨-, -, -, rfl⟩ := claimedTask_returned hclaimed
      rw [submit, submit, bind_returned hclaimed, bind_returned hclaimed, read_bind, read_bind]
      cases hextraction : db.extraction? task.extractionId with
      | none => rfl
      | some extraction =>
        have hpage : ∀ page, db.page? extraction.pageId = some page →
            isTruthy page.storageUri = false := by
          intro page hpage
          refine Bool.eq_false_of_not_eq_true fun huri => ?_
          rw [submittable_iff.mpr ⟨task, extraction, page, hclaimed, hextraction, hpage, huri⟩] at h
          cases h
        have hraised : ∃ e, submitCorrection extraction value actor task.sourceStream stamps.row
            stamps.correctionEntry db = (.raised e, db) := by
          rw [submitCorrection, read_bind]
          cases hfound : db.page? extraction.pageId with
          | none => exact ⟨_, rfl⟩
          | some page =>
            refine ⟨.noStorageUri page.id, ?_⟩
            have hdigest : sourcePageDigestFor (some page) db = (.raised (.noStorageUri page.id), db) := by
              simp only [sourcePageDigestFor, hpage page hfound, Bool.false_eq_true, if_false]
              rfl
            exact bind_raised hdigest
        obtain ⟨e, he⟩ := hraised
        simp only
        rw [bind_raised he, bind_raised he]

theorem TwinStates.submittable (h : TwinStates twins db db') (taskId actor : Text) :
    Review.submittable db' taskId actor = Review.submittable db taskId actor := by
  unfold Review.submittable
  rw [claimedTask_fst, claimedTask_fst, h.reviewTask?]
  cases db.reviewTask? taskId with
  | none => rfl
  | some task =>
    by_cases hclosed : task.closedAt = none
    · by_cases hassignee : task.assignee = some actor
      · simp [hclosed, hassignee, h.extraction?, h.page?]
      · simp [hclosed, hassignee]
    · simp [hclosed]

theorem endAlike_submit (h : TwinStates twins db db') (taskId actor value : Text)
    (verdict : Option Text) (stamps : SubmitStamps)
    (hvalid : taskId ∈ twins → submittable db taskId actor = true →
      ∀ text ∈ verdict, OfficerVerdict.ofText? text ≠ none) :
    EndAlike (TwinStates twins) (fun e => e = .integrityError) Eq
      (submit taskId actor value verdict stamps db) (submit taskId actor value verdict stamps db') := by
  cases hsubmittable : submittable db taskId actor with
  | true =>
    exact sameEnd_submit taskId actor value verdict stamps (fun htwin => hvalid htwin hsubmittable)
      db db' h
  | false =>
    have hother : submittable db' taskId actor = false := (h.submittable taskId actor).trans hsubmittable
    rw [submit_unsubmittable hsubmittable value verdict none stamps,
      submit_unsubmittable hother value verdict none stamps]
    exact sameEnd_submit taskId actor value none stamps (fun _ _ hnone => nomatch hnone) db db' h

theorem endAlike_route (h : TwinStates twins db db') (identity : Identity) (entry : Stamp)
    (request : RouteRequest) (hallowed : identity.has request.permission = true)
    (hvalid : VerdictValid twins db ⟨identity, entry, request⟩) :
    EndAlike (TwinStates twins) (fun e => e = .integrityError) Eq
      (route signGet identity.actor request db) (route signGet identity.actor request db') := by
  cases request with
  | list =>
    refine .returned ?_ h
    rw [h.listReviewTasks]
  | fetchNext sessionId now =>
    refine endAlike_inRoute h (sameEnd_claimNext _ _ _ db db' h) fun taskId _ db db' htask h => ?_
    subst htask
    cases taskId with
    | none => rfl
    | some taskId =>
      simp only [Option.bind_some, h.reviewTask?, Option.map_map, Function.comp_def, strip_asRouted]
  | fetchCrop taskId entry => exact sameEnd_fetchCrop taskId _ entry db db' h
  | submit taskId value verdict stamps =>
    refine endAlike_inRoute h (endAlike_submit h taskId _ value verdict stamps ?_)
      fun result _ _ _ hresult _ => by rw [hresult]
    intro htwin hsubmittable text htext
    obtain rfl := Option.mem_def.mp htext
    exact hvalid htwin hallowed hsubmittable
  | skip taskId entry =>
    exact endAlike_inRoute h (sameEnd_skip taskId _ entry db db' h) fun _ _ _ _ _ _ => rfl
  | confirm pendingId row confirmedAt entry =>
    refine endAlike_inRoute h (sameEnd_confirmPendingCorrection pendingId _ row confirmedAt entry db db' h)
      fun correction correction' _ _ hid _ => ?_
    rw [hid]

theorem submittable_withAudit (taskId actor : Text) (table : AuditTable) :
    submittable (db.withAudit table) taskId actor = submittable db taskId actor := by
  unfold submittable
  rw [claimedTask_fst, claimedTask_fst]
  rfl

theorem VerdictValid.withAudit {call : Call} (h : VerdictValid twins db call) (table : AuditTable) :
    VerdictValid twins (db.withAudit table) call := by
  obtain ⟨identity, entry, request⟩ := call
  cases request with
  | submit taskId value verdict stamps =>
    cases verdict with
    | none => trivial
    | some verdict =>
      intro htwin hallowed hsubmittable
      exact h htwin hallowed ((submittable_withAudit taskId _ table).symm.trans hsubmittable)
  | _ => trivial

def checkArgs (call : Call) : AppendArgs where
  actor := call.identity.actor
  action := if call.identity.has call.request.permission then "rbac.checked".toList
    else "rbac.denied".toList
  subject := some call.request.permission.value
  shardKey := some systemShardKey

theorem serve_eq (call : Call) : serve signGet call = (do
    auditAppend call.checkEntry (checkArgs call)
    if call.identity.has call.request.permission then
      route signGet call.identity.actor call.request
    else return refusal 403 (.lacksPermission call.identity.actor call.request.permission)) := rfl

/-- Where no verdict is invalid, a call is answered alike. -/
theorem endAlike_serve (h : TwinStates twins db db') (call : Call)
    (hvalid : VerdictValid twins db call) :
    EndAlike (TwinStates twins) (fun e => e = .integrityError) Eq (serve signGet call db)
      (serve signGet call db') := by
  rw [serve_eq]
  have hends := sameEnd_auditAppend call.checkEntry (checkArgs call) db db' h
  cases hx : auditAppend call.checkEntry (checkArgs call) db with
  | mk exit after =>
    cases hy : auditAppend call.checkEntry (checkArgs call) db' with
    | mk exit' after' =>
      rw [hx, hy] at hends
      cases hends with
      | returned hvalues hstates =>
        rw [bind_returned hx, bind_returned hy]
        have hafter : VerdictValid twins after call := by
          rw [(auditAppend_returned hx).1]
          exact hvalid.withAudit _
        by_cases hallowed : call.identity.has call.request.permission = true
        · rw [if_pos hallowed]
          exact endAlike_route hstates call.identity call.checkEntry call.request hallowed hafter
        · rw [if_neg hallowed]
          exact .returned rfl hstates
      | raised hstates =>
        rw [bind_raised hx, bind_raised hy]
        exact .raised hstates
      | crashed hstates =>
        rw [bind_crashed hx, bind_crashed hy]
        exact .crashed hstates
      | excusedLeft he =>
        rw [bind_raised hx]
        exact .excusedLeft he
      | excusedRight he =>
        rw [bind_raised hy]
        exact .excusedRight he

theorem respond_alike (h : TwinStates twins db db') {call : Call} (hvalid : VerdictValid twins db call)
    {answered answered' : Response × Database} (hanswered : respond signGet call db = some answered)
    (hanswered' : respond signGet call db' = some answered') :
    answered.1 = answered'.1 ∧ TwinStates twins answered.2 answered'.2 := by
  have hends : EndAlike (TwinStates twins) (fun e => e = .integrityError) Eq (serve signGet call db)
      (serve signGet call db') := endAlike_serve h call hvalid
  unfold respond at hanswered hanswered'
  split at hanswered
  · rename_i response after hserve
    split at hanswered'
    · rename_i response' after' hserve'
      cases hanswered
      cases hanswered'
      rw [hserve, hserve'] at hends
      cases hends with
      | returned hvalues hstates => exact ⟨hvalues, hstates⟩
    · cases hanswered'
  · cases hanswered

end Routes

section InvalidVerdicts

variable {signGet : Text → Nat → Text} {taskId actor : Text}

/-- The program returns, unless a generated id is taken. -/
def Finishes {α : Type} (m : Session α) (db : Database) : Prop :=
  (∃ a after, m db = (.returned a, after)) ∨ ∃ after, m db = (.raised .integrityError, after)

theorem finishes_bind {α β : Type} {m : Session α} {f : α → Session β} (hm : Finishes m db)
    (hf : ∀ a after, m db = (.returned a, after) → Finishes (f a) after) :
    Finishes (m >>= f) db := by
  rcases hm with ⟨a, after, hreturned⟩ | ⟨after, htaken⟩
  · rw [Finishes, bind_returned hreturned]
    exact hf a after hreturned
  · exact .inr ⟨after, bind_raised htaken⟩

theorem finishes_addRow (taken : Database → Bool) (insert : Database → Database) :
    Finishes (addRow taken insert) db := by
  unfold Finishes addRow
  split
  · exact .inr ⟨_, rfl⟩
  · exact .inl ⟨_, _, rfl⟩

theorem finishes_auditAppend (entry : Stamp) (args : AppendArgs) :
    Finishes (auditAppend entry args) db := by
  unfold Finishes auditAppend
  split
  · exact .inr ⟨_, rfl⟩
  · exact .inl ⟨_, _, rfl⟩

theorem finishes_submitCorrection {extraction : Extraction} {page : Page}
    (hpage : db.page? extraction.pageId = some page) (huri : isTruthy page.storageUri = true)
    (corrected actor : Text) (stream : SourceStream) (row entry : Stamp) :
    Finishes (submitCorrection extraction corrected actor stream row entry) db := by
  have hdigest : sourcePageDigestFor (some page) db =
      (.returned (lastSegment (orEmpty page.storageUri)), db) := by
    simp only [sourcePageDigestFor, huri, if_true]
    rfl
  rw [Finishes, submitCorrection, read_bind, hpage, bind_returned hdigest]
  split
  · exact finishes_bind (finishes_addRow ..) fun _ _ _ =>
      finishes_bind (finishes_auditAppend ..) fun _ _ _ => .inl ⟨_, _, rfl⟩
  · exact finishes_bind (finishes_addRow ..) fun _ _ _ =>
      finishes_bind (finishes_auditAppend ..) fun _ _ _ => .inl ⟨_, _, rfl⟩

theorem submit_submittable (h : submittable db taskId actor = true) (value : Text)
    (verdict : Option Text) (stamps : SubmitStamps) :
    ∃ task, task.id = taskId ∧
      ((∃ after, submit taskId actor value verdict stamps db = (.raised .integrityError, after)) ∨
        ∃ after extraction row, after.auditSamples = db.auditSamples ∧
          submit taskId actor value verdict stamps db = (do
            recordSampleVerdict task verdict actor stamps.verdictEntry
            Fallible.write (mapTask task.id (closedOn stamps.closedAt))
            auditAppend stamps.entry {
              actor := actor
              action := "review.task.submit".toList
              subject := some task.id
              purpose := some "review_submit".toList }
            return submitResult task extraction row : Session SubmitResult) after) := by
  obtain ⟨task, extraction, page, hclaimed, hextraction, hpage, huri⟩ := submittable_iff.mp h
  obtain ⟨hfound, -, -, -⟩ := claimedTask_returned hclaimed
  refine ⟨task, Database.reviewTask?_id hfound, ?_⟩
  rw [submit, bind_returned hclaimed, read_bind, hextraction]
  dsimp only
  rcases finishes_submitCorrection hpage huri value actor task.sourceStream stamps.row
    stamps.correctionEntry with ⟨row, after, hreturned⟩ | ⟨after, htaken⟩
  · refine .inr ⟨after, extraction, row, ?_, bind_returned hreturned⟩
    obtain ⟨mid, hmid, hafter⟩ := submitCorrection_returned hreturned
    rw [hafter]
    cases hmid <;> rfl
  · exact .inl ⟨after, bind_raised htaken⟩

/-- The audit task refuses an invalid verdict with an exception that its route does not
catch. -/
theorem submit_invalidVerdict (h : TwinStates twins db db') (htwin : taskId ∈ twins)
    (hsubmittable : submittable db taskId actor = true) (value : Text) {text : Text}
    (hinvalid : OfficerVerdict.ofText? text = none) (stamps : SubmitStamps) :
    ∃ after, submit taskId actor value (some text) stamps db = (.raised .integrityError, after) ∨
      submit taskId actor value (some text) stamps db = (.raised (.invalidVerdict text), after) := by
  obtain ⟨task, rfl, ⟨after, htaken⟩ | ⟨after, extraction, row, hsamples, hsubmit⟩⟩ :=
    submit_submittable hsubmittable value (some text) stamps
  · exact ⟨after, .inl htaken⟩
  · refine ⟨after, .inr ?_⟩
    obtain ⟨sample, hsample⟩ := List.length_eq_one_iff.mp (h.sampled task.id htwin)
    have hfound : scalarOneOrNone (fun db => db.auditSamples.filter fun row =>
        row.reviewTaskId = some task.id) after = (.returned (some sample), after) := by
      refine scalarOneOrNone_returned.mpr ⟨?_, rfl⟩
      rw [hsamples]
      exact hsample
    have hverdict : recordSampleVerdict task (some text) actor stamps.verdictEntry after =
        (.raised (.invalidVerdict text), after) := by
      rw [recordSampleVerdict, bind_returned hfound]
      simp only [recordOfficerVerdict, hinvalid]
      rfl
    rw [hsubmit, bind_raised hverdict]

theorem submit_finishes (h : TwinStates twins db db') (htwin : taskId ∈ twins)
    (hsubmittable : submittable db' taskId actor = true) (value : Text) (verdict : Option Text)
    (stamps : SubmitStamps) : Finishes (submit taskId actor value verdict stamps) db' := by
  obtain ⟨task, rfl, htaken | ⟨after, extraction, row, hsamples, hsubmit⟩⟩ :=
    submit_submittable hsubmittable value verdict stamps
  · exact .inr htaken
  · have hnone : scalarOneOrNone (fun db => db.auditSamples.filter fun row =>
        row.reviewTaskId = some task.id) after = (.returned none, after) := by
      refine scalarOneOrNone_returned.mpr ⟨?_, rfl⟩
      rw [hsamples]
      exact h.noSample htwin
    have hverdict : recordSampleVerdict task verdict actor stamps.verdictEntry after =
        (.returned (), after) := by
      rw [recordSampleVerdict, bind_returned hnone]
      rfl
    rw [Finishes, hsubmit, bind_returned hverdict, write_bind]
    exact finishes_bind (finishes_auditAppend ..) fun _ _ _ => .inl ⟨_, _, rfl⟩

theorem respond_some {call : Call} {answered : Response × Database}
    (h : respond signGet call db = some answered)
    (hallowed : call.identity.has call.request.permission = true) :
    ∃ after, auditAppend call.checkEntry (checkArgs call) db = (.returned (), after) ∧
      route signGet call.identity.actor call.request after = (.returned answered.1, answered.2) := by
  unfold respond at h
  split at h
  · rename_i response final hserve
    cases h
    rw [serve_eq, bind_eq_returned] at hserve
    obtain ⟨_, after, hcheck, hroute⟩ := hserve
    rw [if_pos hallowed] at hroute
    exact ⟨after, hcheck, hroute⟩
  · cases h

theorem respond_invalidVerdict (h : TwinStates twins db db') {call : Call}
    (hinvalid : ¬ VerdictValid twins db call)
    {answered answered' : Response × Database} (hanswered : respond signGet call db = some answered)
    (hanswered' : respond signGet call db' = some answered') : answered.1 ≠ answered'.1 := by
  obtain ⟨identity, entry, request⟩ := call
  obtain ⟨response, final⟩ := answered
  obtain ⟨response', final'⟩ := answered'
  cases request with
  | submit taskId value verdict stamps =>
    cases verdict with
    | none => exact absurd trivial hinvalid
    | some text =>
      simp only [VerdictValid, Classical.not_imp, not_not] at hinvalid
      obtain ⟨htwin, hallowed, hsubmittable, hverdict⟩ := hinvalid
      obtain ⟨after, hcheck, hroute⟩ := respond_some hanswered hallowed
      obtain ⟨after', hcheck', hroute'⟩ := respond_some hanswered' hallowed
      have hends := sameEnd_auditAppend entry
        (checkArgs ⟨identity, entry, .submit taskId value (some text) stamps⟩) db db' h
      rw [hcheck, hcheck'] at hends
      cases hends with
      | returned _ hstates =>
        have hafter : submittable after taskId identity.actor = true := by
          rw [(auditAppend_returned hcheck).1, submittable_withAudit]
          exact hsubmittable
        have hafter' : submittable after' taskId identity.actor = true :=
          (hstates.submittable ..).trans hafter
        have hrefused : response = internalServerError := by
          obtain ⟨_, htaken | hraised⟩ :=
            submit_invalidVerdict hstates htwin hafter value hverdict stamps
          · rw [route, inRoute_taken htaken] at hroute
            cases hroute
          · rw [route, inRoute_raised hraised nofun] at hroute
            cases hroute
            rfl
        have hanswer : response'.status = 200 := by
          rcases submit_finishes hstates htwin hafter' value (some text) stamps with
            ⟨result, _, hreturned⟩ | ⟨_, htaken⟩
          · rw [route, inRoute_returned hreturned] at hroute'
            cases hroute'
            rfl
          · rw [route, inRoute_taken htaken] at hroute'
            cases hroute'
        rintro rfl
        rw [hrefused] at hanswer
        cases hanswer
  | _ => exact absurd trivial hinvalid

end InvalidVerdicts

/-- Two runs answer alike up to the first invalid verdict, by induction on the calls. -/
theorem responses_iff (signGet : Text → Nat → Text) (h : TwinStates twins db db') (calls : List Call)
    {answers answers' : List Response} (hanswers : responses signGet db calls = some answers)
    (hanswers' : responses signGet db' calls = some answers') :
    answers = answers' ↔ Runs.AllSteps (afterCall signGet) (VerdictValid twins) db calls := by
  induction calls generalizing db db' answers answers' with
  | nil =>
    cases hanswers
    cases hanswers'
    exact iff_of_true rfl trivial
  | cons call calls ih =>
    obtain ⟨answered, hanswered, hmapped⟩ := Option.bind_eq_some_iff.mp hanswers
    obtain ⟨answered', hanswered', hmapped'⟩ := Option.bind_eq_some_iff.mp hanswers'
    obtain ⟨rest, hrest, rfl⟩ := Option.map_eq_some_iff.mp hmapped
    obtain ⟨rest', hrest', rfl⟩ := Option.map_eq_some_iff.mp hmapped'
    have hafter : afterCall signGet db call = some answered.2 := by
      rw [afterCall, hanswered]
      rfl
    by_cases hvalid : VerdictValid twins db call
    · obtain ⟨hsame, hstates⟩ := respond_alike h hvalid hanswered hanswered'
      rw [hsame, List.cons_inj_right, ih hstates hrest hrest']
      constructor
      · intro hall after hmem
        obtain rfl := Option.some.inj (hafter.symm.trans hmem)
        exact ⟨hvalid, hall⟩
      · exact fun hall => (hall _ hafter).2
    · have hother := respond_invalidVerdict h hvalid hanswered hanswered'
      refine iff_of_false (fun hsame => hother (List.cons.inj hsame).1) fun hall => ?_
      exact hvalid (hall _ hafter).1

/-- Audit tasks and their routed twins answer alike exactly when no verdict is invalid. -/
theorem indistinguishable_iff_verdictValid (signGet : Text → Nat → Text) {twins : List Text}
    {db : Database} (h : AuditTwins twins db) (calls : List Call) {answers answers' : List Response}
    (hanswers : responses signGet db calls = some answers)
    (hanswers' : responses signGet (routedTwin twins db) calls = some answers') :
    answers = answers' ↔ Runs.AllSteps (afterCall signGet) (VerdictValid twins) db calls :=
  responses_iff signGet h.twinStates calls hanswers hanswers'

def auditedTask : Database where
  pages := [{
    id := "p1".toList
    documentId := "d1".toList
    storageUri := some "sha256/ab/cd/abcd".toList }]
  extractions := [{
    id := "e1".toList
    pageId := "p1".toList
    fieldName := "area".toList
    rawValue := "2.5".toList }]
  reviewTasks := [{
    id := "t1".toList
    extractionId := "e1".toList
    sourceStream := .audit
    openedAt := newYear 0 }]
  auditSamples := [{
    id := "s1".toList
    extractionId := "e1".toList
    reviewTaskId := some "t1".toList
    modelConfidence := none }]

theorem auditedTask_auditTwins : AuditTwins ["t1".toList] auditedTask where
  sampleKeys := by decide
  audit := by decide
  sampled := by decide

def submittedAt : SubmitStamps where
  row := ⟨"m1".toList, newYear 2⟩
  correctionEntry := ⟨"a3".toList, newYear 2⟩
  verdictEntry := ⟨"a4".toList, newYear 2⟩
  closedAt := newYear 2
  entry := ⟨"a5".toList, newYear 2⟩

def reviewer : Identity := ⟨"alice".toList, fun _ => true⟩

def claimAndSubmit (verdict : String) : List Call :=
  [⟨reviewer, ⟨"a1".toList, newYear 1⟩, .fetchNext "w1".toList (newYear 1)⟩,
    ⟨reviewer, ⟨"a2".toList, newYear 2⟩,
      .submit "t1".toList "2.5".toList (some verdict.toList) submittedAt⟩]

def signedUrl (uri : Text) (_ : Nat) : Text := uri

theorem claimAndSubmit_agree : ∃ answers answers',
    responses signedUrl auditedTask (claimAndSubmit "agree") = some answers ∧
      responses signedUrl (routedTwin ["t1".toList] auditedTask) (claimAndSubmit "agree") =
        some answers' ∧
      (answers = answers' ↔ Runs.AllSteps (afterCall signedUrl) (VerdictValid ["t1".toList])
        auditedTask (claimAndSubmit "agree")) := by
  have hanswered : (responses signedUrl auditedTask (claimAndSubmit "agree")).isSome = true := by
    decide +kernel
  have hanswered' : (responses signedUrl (routedTwin ["t1".toList] auditedTask)
      (claimAndSubmit "agree")).isSome = true := by
    decide +kernel
  obtain ⟨answers, hanswers⟩ := Option.isSome_iff_exists.mp hanswered
  obtain ⟨answers', hanswers'⟩ := Option.isSome_iff_exists.mp hanswered'
  exact ⟨answers, answers', hanswers, hanswers', indistinguishable_iff_verdictValid signedUrl
    auditedTask_auditTwins (claimAndSubmit "agree") hanswers hanswers'⟩

/-- A verdict that is none is refused for the audit task, and ignored for its twin. -/
theorem claimAndSubmit_maybe_differs : AuditTwins ["t1".toList] auditedTask ∧
    (responses signedUrl auditedTask (claimAndSubmit "maybe")).map (List.map Response.status) =
      some [200, 500] ∧
    (responses signedUrl (routedTwin ["t1".toList] auditedTask) (claimAndSubmit "maybe")).map
      (List.map Response.status) = some [200, 200] := by
  refine ⟨auditedTask_auditTwins, ?_, ?_⟩
  · decide +kernel
  · decide +kernel

end LandRecords.Review
