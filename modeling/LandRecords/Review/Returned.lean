import LandRecords.Review.Workflow

/-! What the returned calls of the review workflow did. -/
namespace LandRecords.Review

open Backend Audit Datetime Text

def withSamples (rows : List AuditSample) (db : Database) : Database :=
  { db with auditSamples := rows }

def sampleKey (sample : AuditSample) : Text × Text × Option Text :=
  (sample.id, sample.extractionId, sample.reviewTaskId)

variable {db db' : Database} {taskId actor : Text}

theorem touchSession_returned {sessionId : Text} {now : Instant} {hour : Int}
    (h : touchSession actor sessionId now db = (.returned hour, db')) :
    ∃ sessions, db' = withSessions sessions db := by
  simp only [touchSession, Fallible.read_bind] at h
  cases hactive : (openSession db actor).filter (isActive now) with
  | some session =>
    simp only [hactive] at h
    cases h
    exact ⟨_, rfl⟩
  | none =>
    simp only [hactive] at h
    cases hcurrent : openSession db actor with
    | some session =>
      simp only [hcurrent, Fallible.write_bind, Fallible.bind_eq_returned, addRow_returned] at h
      obtain ⟨_, _, ⟨-, rfl⟩, h⟩ := h
      cases h
      exact ⟨_, rfl⟩
    | none =>
      simp only [hcurrent, Fallible.bind_eq_returned, addRow_returned] at h
      obtain ⟨_, _, ⟨-, rfl⟩, h⟩ := h
      cases h
      exact ⟨_, rfl⟩

theorem oldestUnclaimed_open {task : ReviewTask} (h : oldestUnclaimed db = some task) :
    task ∈ db.reviewTasks ∧ task.assignee = none ∧ task.closedAt = none := by
  have hmem := (mem_orderBy ReviewTask.openedAt).mp (List.mem_of_mem_head? h)
  obtain ⟨htask, hopen⟩ := List.mem_filter.mp hmem
  exact ⟨htask, of_decide_eq_true hopen⟩

theorem claimNext_returned {sessionId : Text} {now : Instant} {claimed : Option Text}
    (h : claimNext actor sessionId now db = (.returned claimed, db')) :
    db' = db ∨ ∃ task sessions hour, task ∈ db.reviewTasks ∧ task.assignee = none ∧
      task.closedAt = none ∧
      db' = mapTask task.id (claimedBy actor hour) (withSessions sessions db) := by
  simp only [claimNext, Fallible.read_bind] at h
  cases htask : oldestUnclaimed db with
  | none =>
    simp only [htask] at h
    cases h
    exact .inl rfl
  | some task =>
    simp only [htask, Fallible.bind_eq_returned] at h
    obtain ⟨hour, mid, htouch, _, _, hwrite, h⟩ := h
    obtain ⟨sessions, rfl⟩ := touchSession_returned htouch
    obtain ⟨hmem, hassignee, hclosed⟩ := oldestUnclaimed_open htask
    cases hwrite
    cases h
    exact .inr ⟨task, sessions, hour, hmem, hassignee, hclosed, rfl⟩

theorem claimedTask_returned {task : ReviewTask}
    (h : claimedTask taskId actor db = (.returned task, db')) :
    db.reviewTask? taskId = some task ∧ task.closedAt = none ∧ task.assignee = some actor ∧
      db = db' := by
  simp only [claimedTask, Fallible.read_bind] at h
  cases htask : db.reviewTask? taskId with
  | none =>
    rw [htask] at h
    cases h
  | some found =>
    simp only [htask] at h
    by_cases hclosed : found.closedAt = none
    · rw [if_neg (not_not.mpr hclosed)] at h
      by_cases hassignee : found.assignee = some actor
      · rw [if_neg (not_not.mpr hassignee)] at h
        cases h
        exact ⟨rfl, hclosed, hassignee, rfl⟩
      · rw [if_pos hassignee] at h
        cases h
    · rw [if_pos hclosed] at h
      cases h

theorem skip_returned {entry : Stamp} {u : Unit}
    (h : skip taskId actor entry db = (.returned u, db')) :
    ∃ task, db.reviewTask? taskId = some task ∧ task.closedAt = none ∧ task.assignee = some actor ∧
      db' = (mapTask taskId released db).withAudit db'.audit := by
  simp only [skip, Fallible.bind_eq_returned] at h
  obtain ⟨task, _, htask, _, _, hwrite, hentry⟩ := h
  obtain ⟨hfound, hclosed, hassignee, rfl⟩ := claimedTask_returned htask
  cases hwrite
  rw [Database.reviewTask?_id hfound] at hentry
  exact ⟨task, hfound, hclosed, hassignee, (auditAppend_returned hentry).1⟩

inductive Submitted (db : Database) (extraction : Extraction) (corrected actor : Text)
    (stream : SourceStream) : Correction ⊕ PendingCorrection → Database → Prop
  | held (digest : Text) (stamp : Stamp)
      (hneeds : needsMakerChecker extraction corrected = true)
      (hfresh : stamp.id ∉ db.pendingCorrections.map PendingCorrection.id) :
      Submitted db extraction corrected actor stream
        (.inr (heldCorrection extraction corrected actor stream digest stamp))
        (withPending (heldCorrection extraction corrected actor stream digest stamp) db)
  | written (digest : Text) (stamp : Stamp)
      (hneeds : needsMakerChecker extraction corrected = false)
      (hfresh : stamp.id ∉ db.corrections.map Correction.id) :
      Submitted db extraction corrected actor stream
        (.inl (submittedCorrection extraction corrected actor stream digest stamp))
        (withCorrection (submittedCorrection extraction corrected actor stream digest stamp) db)

theorem sourcePageDigestFor_returned {page : Option Page} {digest : Text}
    (h : sourcePageDigestFor page db = (.returned digest, db')) : db = db' := by
  unfold sourcePageDigestFor at h
  cases page with
  | none => cases h
  | some page =>
    dsimp only at h
    split at h
    · cases h
      rfl
    · cases h

theorem submitCorrection_returned {extraction : Extraction} {corrected : Text}
    {stream : SourceStream} {row entry : Stamp} {result : Correction ⊕ PendingCorrection}
    (h : submitCorrection extraction corrected actor stream row entry db =
      (.returned result, db')) :
    ∃ mid, Submitted db extraction corrected actor stream result mid ∧
      db' = mid.withAudit db'.audit := by
  simp only [submitCorrection, Fallible.read_bind] at h
  rw [Fallible.bind_eq_returned] at h
  obtain ⟨digest, _, hdigest, h⟩ := h
  obtain rfl := sourcePageDigestFor_returned hdigest
  cases hneeds : needsMakerChecker extraction corrected with
  | true =>
    simp only [hneeds, if_true, Fallible.bind_eq_returned, addPendingCorrection,
      addRow_returned] at h
    obtain ⟨_, _, ⟨hfresh, rfl⟩, _, _, hentry, h⟩ := h
    cases h
    exact ⟨_, .held digest row hneeds (of_decide_eq_false hfresh), (auditAppend_returned hentry).1⟩
  | false =>
    simp only [hneeds, Bool.false_eq_true, if_false, Fallible.bind_eq_returned, addCorrection,
      addRow_returned] at h
    obtain ⟨_, _, ⟨hfresh, rfl⟩, _, _, hentry, h⟩ := h
    cases h
    exact ⟨_, .written digest row hneeds (of_decide_eq_false hfresh),
      (auditAppend_returned hentry).1⟩

theorem recordSampleVerdict_returned {task : ReviewTask} {verdict : Option Text} {entry : Stamp}
    {u : Unit} (h : recordSampleVerdict task verdict actor entry db = (.returned u, db')) :
    ∃ samples, samples.map sampleKey = db.auditSamples.map sampleKey ∧
      db' = (withSamples samples db).withAudit db'.audit := by
  rw [recordSampleVerdict, Fallible.bind_eq_returned] at h
  obtain ⟨sample, _, hsample, h⟩ := h
  obtain ⟨-, rfl⟩ := scalarOneOrNone_returned.mp hsample
  match sample, verdict with
  | none, _ =>
    cases h
    exact ⟨db.auditSamples, rfl, rfl⟩
  | some sample, none =>
    cases h
    exact ⟨db.auditSamples, rfl, rfl⟩
  | some sample, some verdict =>
    dsimp only at h
    unfold recordOfficerVerdict at h
    cases hverdict : OfficerVerdict.ofText? verdict with
    | none =>
      rw [hverdict] at h
      cases h
    | some officerVerdict =>
      simp only [hverdict, Fallible.write_bind] at h
      refine ⟨_, ?_, (auditAppend_returned h).1⟩
      apply Rows.map_updateAt
      intro row
      rfl

theorem submit_returned {correctedValue : Text} {verdict : Option Text} {stamps : SubmitStamps}
    {result : SubmitResult}
    (h : submit taskId actor correctedValue verdict stamps db = (.returned result, db')) :
    ∃ task extraction row mid samples, db.reviewTask? taskId = some task ∧ task.closedAt = none ∧
      task.assignee = some actor ∧ db.extraction? task.extractionId = some extraction ∧
      Submitted db extraction correctedValue actor task.sourceStream row mid ∧
      samples.map sampleKey = db.auditSamples.map sampleKey ∧
      db' = (mapTask taskId (closedOn stamps.closedAt) (withSamples samples mid)).withAudit
        db'.audit ∧ result = submitResult task extraction row := by
  rw [submit, Fallible.bind_eq_returned] at h
  obtain ⟨task, _, htask, h⟩ := h
  obtain ⟨hfound, hclosed, hassignee, rfl⟩ := claimedTask_returned htask
  rw [Fallible.read_bind] at h
  cases hextraction : db.extraction? task.extractionId with
  | none =>
    rw [hextraction] at h
    cases h
  | some extraction =>
    simp only [hextraction, Fallible.bind_eq_returned] at h
    obtain ⟨row, submitted, hsubmit, _, verdictDb, hverdict, _, _, hwrite, _, _, hentry, h⟩ := h
    obtain ⟨mid, hmid, hsubmitted⟩ := submitCorrection_returned hsubmit
    obtain ⟨samples, hsamples, hverdictDb⟩ := recordSampleVerdict_returned hverdict
    cases hwrite
    cases h
    have hentryDb := (auditAppend_returned hentry).1
    refine ⟨task, extraction, row, mid, samples, hfound, hclosed, hassignee, hextraction, hmid, ?_,
      ?_, rfl⟩
    · rw [hsamples, hsubmitted]
      cases hmid <;> rfl
    · rw [hentryDb, hverdictDb, hsubmitted, Database.reviewTask?_id hfound]
      rfl

theorem map_id_resolvePending (pendingId actor correctionId : Text) (confirmedAt : Instant)
    (rows : List PendingCorrection) :
    (resolvePending pendingId actor correctionId confirmedAt rows).map PendingCorrection.id =
      rows.map PendingCorrection.id := by
  apply Rows.map_updateAt
  intro row
  rfl

theorem pendingCorrection?_resolved (pendingId actor correctionId id : Text)
    (confirmedAt : Instant) :
    (withResolved pendingId actor correctionId confirmedAt db).pendingCorrection? id =
      (db.pendingCorrection? id).map fun pending =>
        if pending.id = pendingId then
          { pending with
            state := .confirmed
            confirmedBy := some actor
            confirmedAt := some confirmedAt
            resultingCorrectionId := some correctionId }
        else pending := by
  apply Rows.find?_updateAt
  intro row
  rfl

theorem reviewTask?_mapTask (update : ReviewTask → ReviewTask)
    (hid : ∀ row, (update row).id = row.id) (id : Text) : (mapTask taskId update db).reviewTask? id =
      (db.reviewTask? id).map fun row => if row.id = taskId then update row else row :=
  Rows.find?_updateAt hid db.reviewTasks taskId id

theorem confirmPendingCorrection_returned {pendingId : Text} {row entry : Stamp}
    {confirmedAt : Instant} {correction : Correction}
    (h : confirmPendingCorrection pendingId actor row confirmedAt entry db =
      (.returned correction, db')) :
    ∃ pending, db.pendingCorrection? pendingId = some pending ∧
      pending.state = .pending ∧ actor ≠ pending.firstActor ∧
      claimantOf db pending.extractionId ≠ some actor ∧
      row.id ∉ db.corrections.map Correction.id ∧ correction = confirmedCorrection pending actor row ∧
      db' = (withResolved pendingId actor row.id confirmedAt
        (withCorrection (confirmedCorrection pending actor row) db)).withAudit db'.audit := by
  unfold confirmPendingCorrection at h
  rw [Fallible.read_bind] at h
  cases hpending : db.pendingCorrection? pendingId with
  | none =>
    rw [hpending] at h
    cases h
  | some pending =>
    have hid := Database.pendingCorrection?_id hpending
    simp only [hpending] at h
    by_cases hstate : pending.state = .pending
    · rw [if_neg (not_not.mpr hstate), Fallible.read_bind] at h
      by_cases hsame : actor = pending.firstActor ∨ claimantOf db pending.extractionId = some actor
      · rw [if_pos hsame, Fallible.bind_eq_returned] at h
        obtain ⟨_, _, -, h⟩ := h
        cases h
      · rw [if_neg hsame] at h
        simp only [Fallible.bind_eq_returned, addCorrection, addRow_returned] at h
        obtain ⟨_, _, ⟨hfresh, rfl⟩, _, _, hwrite, _, _, hentry, h⟩ := h
        cases hwrite
        cases h
        rw [hid] at hentry
        obtain ⟨hfirst, hclaimant⟩ := not_or.mp hsame
        exact ⟨pending, rfl, hstate, hfirst, hclaimant, of_decide_eq_false hfresh, rfl,
          (auditAppend_returned hentry).1⟩
    · rw [if_pos hstate] at h
      cases h

end LandRecords.Review
