import LandRecords.Decision.Replay

/-! Maker and checker. An edit that asks for a second actor becomes a correction
only through a confirmation by somebody other than its maker, who is the claimant
of the task, and is confirmed once. -/
namespace LandRecords.Review

open Backend Audit Datetime Text
open Decision (Activity act Sound)

def confirmRoute (pendingId actor : Text) (row : Stamp) (confirmedAt : Instant) (entry : Stamp)
    (db : Database) : Option Database :=
  match confirmPendingCorrection pendingId actor row confirmedAt entry db with
  | (.raised (.sameActorCannotConfirm _ _ _), after) => some after
  | _ => commit (confirmPendingCorrection pendingId actor row confirmedAt entry) db

inductive ReviewStep
  | activity (activity : Activity)
  | confirm (pendingId actor : Text) (row : Stamp) (confirmedAt : Instant) (entry : Stamp)

def reviewStep (db : Database) : ReviewStep → Option Database
  | .activity activity => act db activity
  | .confirm pendingId actor row confirmedAt entry =>
      confirmRoute pendingId actor row confirmedAt entry db

structure Resolves (pending : PendingCorrection) (correction : Correction) : Prop where
  state : pending.state = .confirmed
  result : pending.resultingCorrectionId = some correction.id
  confirmedBy : pending.confirmedBy = some correction.actor
  distinct : correction.actor ≠ pending.firstActor
  extraction : correction.extractionId = pending.extractionId
  predicted : correction.predicted = pending.predicted
  corrected : correction.corrected = pending.corrected
  stream : correction.stream = pending.stream
  sourcePageDigest : correction.sourcePageDigest = pending.sourcePageDigest

def Measured (predicted : Option Text) (corrected : Text) (distance : Nat) : Prop :=
  ∃ value, predicted = some value ∧ distance = editDistance value corrected

/-- An edit of a maker-checker field beyond the threshold was confirmed by an actor
who neither made it nor claimed the task, and a confirmed edit names its correction. -/
structure Separated (db : Database) : Prop where
  checked : ∀ correction ∈ db.corrections, ∃ extraction,
    db.extraction? correction.extractionId = some extraction ∧
      Measured correction.predicted correction.corrected correction.editDistance ∧
      (extraction.fieldName ∈ makerCheckerFieldClasses →
        makerCheckerEditDistanceThreshold < correction.editDistance →
        (∃ pending ∈ db.pendingCorrections, Resolves pending correction) ∧
          ∀ task ∈ db.reviewTasks, task.extractionId = correction.extractionId →
            task.assignee ≠ some correction.actor)
  resolved : ∀ pending ∈ db.pendingCorrections, pending.state = .confirmed → ∃ correction,
    (db.corrections.filter fun row => pending.resultingCorrectionId = some row.id) =
      [correction] ∧ Resolves pending correction

def confirms (pendingId : Text) (db : Database) : ReviewStep → Bool
  | .confirm id actor row confirmedAt entry => id = pendingId &&
      match (confirmPendingCorrection id actor row confirmedAt entry db).1 with
      | .returned _ => true
      | _ => false
  | .activity _ => false

/-- A confirmation that does not return leaves the review tables alone. -/
def RefusalKeeps (db : Database) : ReviewStep → Prop
  | .confirm pendingId actor row confirmedAt entry =>
      (∀ correction, (confirmPendingCorrection pendingId actor row confirmedAt entry db).1 ≠
        .returned correction) →
      ∀ db' ∈ confirmRoute pendingId actor row confirmedAt entry db,
        db'.pendingCorrections = db.pendingCorrections ∧ db'.corrections = db.corrections ∧
          db'.reviewTasks = db.reviewTasks ∧ db'.extractions = db.extractions
  | .activity _ => True

structure Reviewed (db : Database) : Prop where
  sound : Sound db
  taskKeys : (db.reviewTasks.map ReviewTask.id).Nodup
  correctionKeys : (db.corrections.map Correction.id).Nodup
  pendingKeys : (db.pendingCorrections.map PendingCorrection.id).Nodup
  held : ∀ pending ∈ db.pendingCorrections,
    Measured pending.predicted pending.corrected pending.editDistance ∧
      (∃ extraction, db.extraction? pending.extractionId = some extraction) ∧
      ∃ task ∈ db.reviewTasks, task.extractionId = pending.extractionId ∧ task.closedAt ≠ none ∧
        task.assignee = some pending.firstActor
  resolved : ∀ pending ∈ db.pendingCorrections, pending.state = .confirmed →
    ∃ correction ∈ db.corrections, Resolves pending correction
  checked : ∀ correction ∈ db.corrections, ∃ extraction,
    db.extraction? correction.extractionId = some extraction ∧
      Measured correction.predicted correction.corrected correction.editDistance ∧
      (extraction.fieldName ∈ makerCheckerFieldClasses →
        makerCheckerEditDistanceThreshold < correction.editDistance →
        ∃ pending ∈ db.pendingCorrections, Resolves pending correction)

section Tasks

variable {db db' : Database} {task row : ReviewTask}

/-- The decision engine opens one task for an extraction. -/
theorem Reviewed.eq_of_extraction (h : Reviewed db) (htask : task ∈ db.reviewTasks)
    (hrow : row ∈ db.reviewTasks) (hsame : task.extractionId = row.extractionId) : task = row := by
  have hone := (h.sound.settled row.extractionId).reviewTasksFor_le_one
  have htaskFor : task ∈ Decision.reviewTasksFor db row.extractionId :=
    List.mem_filter.mpr ⟨htask, decide_eq_true hsame⟩
  have hrowFor : row ∈ Decision.reviewTasksFor db row.extractionId :=
    List.mem_filter.mpr ⟨hrow, decide_eq_true rfl⟩
  obtain ⟨only, honly⟩ := List.length_eq_one_iff.mp
    (Nat.le_antisymm hone (List.length_pos_of_mem htaskFor))
  rw [honly, List.mem_singleton] at htaskFor hrowFor
  rw [htaskFor, hrowFor]

theorem Reviewed.separated (h : Reviewed db) : Separated db := by
  constructor
  · intro correction hcorrection
    obtain ⟨extraction, hextraction, hmeasured, hchecked⟩ := h.checked correction hcorrection
    refine ⟨extraction, hextraction, hmeasured, fun hclass hdistance => ?_⟩
    obtain ⟨pending, hpending, hresolves⟩ := hchecked hclass hdistance
    refine ⟨⟨pending, hpending, hresolves⟩, fun task htask hextractionId hassignee => ?_⟩
    obtain ⟨-, -, claimed, hclaimed, hclaimedId, -, hmaker⟩ := h.held pending hpending
    have hsame : task = claimed := h.eq_of_extraction htask hclaimed
      (hextractionId.trans (hresolves.extraction.trans hclaimedId.symm))
    rw [hsame, hmaker] at hassignee
    exact hresolves.distinct (Option.some.inj hassignee).symm
  · intro pending hpending hstate
    obtain ⟨correction, hcorrection, hresolves⟩ := h.resolved pending hpending hstate
    refine ⟨correction, ?_, hresolves⟩
    have hone := Rows.filter_key h.correctionKeys hcorrection
    simp only [hresolves.result, Option.some.injEq]
    exact hone

theorem Reviewed.mem_mapTask (h : Reviewed db) (htask : task ∈ db.reviewTasks)
    (hopen : task.closedAt = none) (update : ReviewTask → ReviewTask) (hrow : row ∈ db.reviewTasks)
    (hclosed : row.closedAt ≠ none) : row ∈ (mapTask task.id update db).reviewTasks := by
  apply Rows.mem_updateAt_other h.taskKeys htask hrow
  rintro rfl
  exact hclosed hopen

end Tasks

structure Quiet (db db' : Database) : Prop where
  pendings : db'.pendingCorrections = db.pendingCorrections
  corrections : db'.corrections = db.corrections
  closed : ∀ task ∈ db.reviewTasks, task.closedAt ≠ none → task ∈ db'.reviewTasks
  fieldNames : ∀ id extraction, db.extraction? id = some extraction → ∃ same,
    db'.extraction? id = some same ∧ same.fieldName = extraction.fieldName

section Activities

variable {db db' : Database}

theorem Quiet.refl (db : Database) : Quiet db db where
  pendings := rfl
  corrections := rfl
  closed := fun _ htask _ => htask
  fieldNames := fun _ extraction hextraction => ⟨extraction, hextraction, rfl⟩

theorem Reviewed.quiet (h : Reviewed db) (hquiet : Quiet db db') (hsound : Sound db')
    (hkeys : (db'.reviewTasks.map ReviewTask.id).Nodup) : Reviewed db' := by
  constructor
  · exact hsound
  · exact hkeys
  · rw [hquiet.corrections]
    exact h.correctionKeys
  · rw [hquiet.pendings]
    exact h.pendingKeys
  · rw [hquiet.pendings]
    intro pending hpending
    obtain ⟨hmeasured, ⟨extraction, hextraction⟩, task, htask, hid, hclosed, hmaker⟩ :=
      h.held pending hpending
    obtain ⟨same, hsame, -⟩ := hquiet.fieldNames _ _ hextraction
    exact ⟨hmeasured, ⟨same, hsame⟩, task, hquiet.closed task htask hclosed, hid, hclosed, hmaker⟩
  · rw [hquiet.pendings, hquiet.corrections]
    exact h.resolved
  · rw [hquiet.pendings, hquiet.corrections]
    intro correction hcorrection
    obtain ⟨extraction, hextraction, hmeasured, hchecked⟩ := h.checked correction hcorrection
    obtain ⟨same, hsame, hfield⟩ := hquiet.fieldNames _ _ hextraction
    refine ⟨same, hsame, hmeasured, ?_⟩
    rw [hfield]
    exact hchecked

theorem effect_tasks {extraction : Extraction} {outcome : RoutingOutcome}
    (h : Decision.Effect db extraction outcome db') :
    db'.pendingCorrections = db.pendingCorrections ∧ db'.corrections = db.corrections ∧
      db.reviewTasks ⊆ db'.reviewTasks ∧ ((db.reviewTasks.map ReviewTask.id).Nodup →
        (db'.reviewTasks.map ReviewTask.id).Nodup) := by
  have hadded : ∀ task : ReviewTask, task.id ∉ db.reviewTasks.map ReviewTask.id →
      (db.reviewTasks.map ReviewTask.id).Nodup →
      ((db.reviewTasks ++ [task]).map ReviewTask.id).Nodup := by
    intro task hfresh hkeys
    exact Rows.nodup_append_row hkeys hfresh
  cases h with
  | auditSample stamp sample htask hsample hlink =>
    exact ⟨rfl, rfl, List.subset_append_left _ _, hadded _ htask⟩
  | review stamp htask => exact ⟨rfl, rfl, List.subset_append_left _ _, hadded _ htask⟩
  | _ => exact ⟨rfl, rfl, List.Subset.refl _, id⟩

theorem decision_quiet {a : Decision.Step} (hstep : Decision.step db a = some db') :
    Quiet db db' ∧ ((db.reviewTasks.map ReviewTask.id).Nodup →
      (db'.reviewTasks.map ReviewTask.id).Nodup) := by
  cases a with
  | insertExtraction row =>
    rw [Decision.step, Option.ite_none_left_eq_some] at hstep
    obtain ⟨-, hstep⟩ := hstep
    cases hstep
    refine ⟨⟨rfl, rfl, fun _ htask _ => htask, fun id extraction hextraction => ?_⟩, id⟩
    refine ⟨extraction, ?_, rfl⟩
    unfold Database.extraction? at hextraction ⊢
    rw [List.find?_append, hextraction]
    rfl
  | setRoutingOutcome extractionId outcome =>
    cases hstep
    refine ⟨⟨rfl, rfl, fun _ htask _ => htask, fun id extraction hextraction => ?_⟩, id⟩
    rw [Decision.extraction?_withRoutingOutcome, hextraction]
    refine ⟨_, rfl, ?_⟩
    dsimp only
    split <;> rfl
  | route extractionId noveltyClusterId envelopeId stamps =>
    rcases Decision.step_route hstep with ⟨rfl, -⟩ | ⟨extraction, outcome, -, hdecided⟩
    · exact ⟨.refl _, id⟩
    · have hextractions := hdecided.extractions
      obtain ⟨mid, decision, heffect, -, -, htables⟩ := hdecided.tables
      obtain ⟨hpendings, hcorrections, htasks, hkeys⟩ := effect_tasks heffect
      rw [htables] at hextractions ⊢
      refine ⟨⟨hpendings, hcorrections, fun task htask _ => htasks htask, ?_⟩, hkeys⟩
      intro id found hfound
      refine ⟨found, ?_, rfl⟩
      rw [Database.extraction?, hextractions]
      exact hfound

theorem act_quiet {a : Activity} (h : Reviewed db) (hact : act db a = some db') :
    Quiet db db' ∨ ∃ task extraction correctedValue actor row mid samples closedAt,
      task ∈ db.reviewTasks ∧ task.closedAt = none ∧ task.assignee = some actor ∧
        db.extraction? task.extractionId = some extraction ∧
        Submitted db extraction correctedValue actor task.sourceStream row mid ∧
        db' = (mapTask task.id (closedOn closedAt) (withSamples samples mid)).withAudit
          db'.audit := by
  cases a with
  | decision b => exact .inl (decision_quiet hact).1
  | openConflict records rule evidence origin stamp entry =>
    obtain ⟨_, hopened⟩ := commit_returned hact (Publication.openConflict_raisesOnly _ _ _ _ _ _)
    obtain ⟨-, hdb'⟩ := Publication.openConflict_returned hopened
    rw [hdb']
    exact .inl ⟨rfl, rfl, fun _ htask _ => htask, (Quiet.refl db).fieldNames⟩
  | transition conflictId newState actor resolution entry =>
    rcases commit_eq_some hact with rfl | ⟨_, hresult⟩
    · exact .inl (.refl _)
    · obtain ⟨conflict, state, -, hdb'⟩ := Publication.transition_returned hresult
      rw [hdb']
      exact .inl ⟨rfl, rfl, fun _ htask _ => htask, (Quiet.refl db).fieldNames⟩
  | claimNext actor sessionId now =>
    rcases commit_eq_some hact with rfl | ⟨_, hresult⟩
    · exact .inl (.refl _)
    · rcases claimNext_returned hresult with rfl | ⟨task, sessions, hour, htask, -, hopen, rfl⟩
      · exact .inl (.refl _)
      · exact .inl ⟨rfl, rfl, fun row hrow hclosed => h.mem_mapTask htask hopen _ hrow hclosed,
          (Quiet.refl db).fieldNames⟩
  | skip taskId actor entry =>
    rcases commit_eq_some hact with rfl | ⟨_, hresult⟩
    · exact .inl (.refl _)
    · obtain ⟨task, hfound, hopen, -, hdb'⟩ := skip_returned hresult
      have htask : task ∈ db.reviewTasks := List.mem_of_find?_eq_some hfound
      have hid := Database.reviewTask?_id hfound
      subst hid
      rw [hdb']
      exact .inl ⟨rfl, rfl, fun row hrow hclosed => h.mem_mapTask htask hopen _ hrow hclosed,
        (Quiet.refl db).fieldNames⟩
  | submit taskId actor correctedValue verdict stamps =>
    rcases commit_eq_some hact with rfl | ⟨_, hresult⟩
    · exact .inl (.refl _)
    · obtain ⟨task, extraction, row, mid, samples, hfound, hopen, hassignee, hextraction, hmid, -,
        hdb', -⟩ := submit_returned hresult
      have hid := Database.reviewTask?_id hfound
      subst hid
      exact .inr ⟨task, extraction, correctedValue, actor, row, mid, samples, stamps.closedAt,
        List.mem_of_find?_eq_some hfound, hopen, hassignee, hextraction, hmid, hdb'⟩

theorem act_taskKeys {a : Activity} (h : Reviewed db) (hact : act db a = some db') :
    Sound db' ∧ (db'.reviewTasks.map ReviewTask.id).Nodup := by
  rcases Decision.act_cases hact with ⟨b, rfl, hstep⟩ | ⟨hsame, -⟩
  · exact ⟨h.sound.step hstep, (decision_quiet hstep).2 h.taskKeys⟩
  · refine ⟨hsame.sound h.sound, ?_⟩
    have hids : ∀ tasks : List ReviewTask, tasks.map ReviewTask.id =
        (tasks.map Decision.taskKey).map Prod.fst := by
      intro tasks
      rw [List.map_map]
      rfl
    rw [hids, hsame.tasks, ← hids]
    exact h.taskKeys

theorem needsMakerChecker_eq_false {extraction : Extraction} {corrected : Text}
    (h : needsMakerChecker extraction corrected = false)
    (hclass : extraction.fieldName ∈ makerCheckerFieldClasses) :
    ¬ makerCheckerEditDistanceThreshold < editDistance (predictedValue extraction) corrected := by
  intro hdistance
  rw [needsMakerChecker, decide_eq_true hclass, decide_eq_true hdistance] at h
  cases h

section Submissions

def Held (db : Database) (pending : PendingCorrection) : Prop :=
  Measured pending.predicted pending.corrected pending.editDistance ∧
    (∃ extraction, db.extraction? pending.extractionId = some extraction) ∧
    ∃ task ∈ db.reviewTasks, task.extractionId = pending.extractionId ∧ task.closedAt ≠ none ∧
      task.assignee = some pending.firstActor

variable {task : ReviewTask} {closedAt : Instant}

/-- Closing an open task leaves every pending correction held. -/
theorem Reviewed.held_closing (h : Reviewed db) (htask : task ∈ db.reviewTasks)
    (hopen : task.closedAt = none) (hfound : ∀ id, db'.extraction? id = db.extraction? id)
    (htasks : db'.reviewTasks = (mapTask task.id (closedOn closedAt) db).reviewTasks) :
    ∀ pending ∈ db.pendingCorrections, Held db' pending := by
  intro pending hpending
  obtain ⟨hmeasured, hextraction, row, hrow, hrowId, hclosed, hmaker⟩ := h.held pending hpending
  rw [Held, hfound, htasks]
  exact ⟨hmeasured, hextraction, row, h.mem_mapTask htask hopen _ hrow hclosed, hrowId, hclosed,
    hmaker⟩

theorem Reviewed.addPending (h : Reviewed db) {pending : PendingCorrection} (hsound : Sound db')
    (hkeys : (db'.reviewTasks.map ReviewTask.id).Nodup)
    (hfound : ∀ id, db'.extraction? id = db.extraction? id)
    (hpendings : db'.pendingCorrections = db.pendingCorrections ++ [pending])
    (hcorrections : db'.corrections = db.corrections)
    (hfresh : pending.id ∉ db.pendingCorrections.map PendingCorrection.id)
    (hstate : pending.state = .pending)
    (hheld : ∀ row ∈ db'.pendingCorrections, Held db' row) : Reviewed db' := by
  refine ⟨hsound, hkeys, hcorrections ▸ h.correctionKeys, ?_, hheld, ?_, ?_⟩
  · rw [hpendings]
    exact Rows.nodup_append_row h.pendingKeys hfresh
  · intro row hrow hconfirmed
    rw [hpendings, List.mem_append, List.mem_singleton] at hrow
    rcases hrow with hbefore | rfl
    · rw [hcorrections]
      exact h.resolved row hbefore hconfirmed
    · rw [hstate] at hconfirmed
      cases hconfirmed
  · intro correction hcorrection
    rw [hcorrections] at hcorrection
    obtain ⟨extraction, hextraction, hmeasured, hchecked⟩ := h.checked correction hcorrection
    refine ⟨extraction, (hfound _).trans hextraction, hmeasured, fun hclass hdistance => ?_⟩
    obtain ⟨row, hrow, hresolves⟩ := hchecked hclass hdistance
    rw [hpendings]
    exact ⟨row, List.mem_append_left _ hrow, hresolves⟩

theorem Reviewed.addCorrection (h : Reviewed db) {correction : Correction}
    {extraction : Extraction} (hsound : Sound db')
    (hkeys : (db'.reviewTasks.map ReviewTask.id).Nodup)
    (hfound : ∀ id, db'.extraction? id = db.extraction? id)
    (hpendings : db'.pendingCorrections = db.pendingCorrections)
    (hcorrections : db'.corrections = db.corrections ++ [correction])
    (hfresh : correction.id ∉ db.corrections.map Correction.id)
    (hheld : ∀ row ∈ db.pendingCorrections, Held db' row)
    (hextraction : db'.extraction? correction.extractionId = some extraction)
    (hmeasured : Measured correction.predicted correction.corrected correction.editDistance)
    (hneeds : extraction.fieldName ∈ makerCheckerFieldClasses →
      ¬ makerCheckerEditDistanceThreshold < correction.editDistance) : Reviewed db' := by
  refine ⟨hsound, hkeys, ?_, hpendings ▸ h.pendingKeys, hpendings ▸ hheld, ?_, ?_⟩
  · rw [hcorrections]
    exact Rows.nodup_append_row h.correctionKeys hfresh
  · intro pending hpending hstate
    rw [hpendings] at hpending
    obtain ⟨result, hresult, hresolves⟩ := h.resolved pending hpending hstate
    rw [hcorrections]
    exact ⟨result, List.mem_append_left _ hresult, hresolves⟩
  · intro row hrow
    rw [hcorrections, List.mem_append, List.mem_singleton] at hrow
    rcases hrow with hbefore | rfl
    · obtain ⟨same, hsame, hmeasured, hchecked⟩ := h.checked row hbefore
      rw [hpendings]
      exact ⟨same, (hfound _).trans hsame, hmeasured, hchecked⟩
    · exact ⟨extraction, hextraction, hmeasured, fun hclass hdistance =>
        absurd hdistance (hneeds hclass)⟩

/-- A submitted value is held for a second actor, or needs none. -/
theorem Reviewed.submitted (h : Reviewed db) {extraction : Extraction}
    {correctedValue actor : Text} {row : Correction ⊕ PendingCorrection} {mid : Database}
    {samples : List AuditSample} (htask : task ∈ db.reviewTasks)
    (hopen : task.closedAt = none) (hassignee : task.assignee = some actor)
    (hextraction : db.extraction? task.extractionId = some extraction)
    (hmid : Submitted db extraction correctedValue actor task.sourceStream row mid)
    (hdb' : db' = (mapTask task.id (closedOn closedAt) (withSamples samples mid)).withAudit
      db'.audit) (hsound : Sound db') (hkeys : (db'.reviewTasks.map ReviewTask.id).Nodup) :
    Reviewed db' := by
  have hid := Database.extraction?_id hextraction
  have hextractions : db'.extractions = db.extractions := by
    rw [hdb']
    cases hmid <;> rfl
  have htasks : db'.reviewTasks = (mapTask task.id (closedOn closedAt) db).reviewTasks := by
    rw [hdb']
    cases hmid <;> rfl
  have hfound : ∀ id, db'.extraction? id = db.extraction? id := by
    intro id
    rw [Database.extraction?, hextractions]
    rfl
  have hown : db'.extraction? extraction.id = some extraction := by
    rw [hfound, hid]
    exact hextraction
  have hheld := h.held_closing htask hopen hfound htasks
  cases hmid with
  | held digest stamp hneeds hfresh =>
    have hpendings : db'.pendingCorrections = db.pendingCorrections ++
        [heldCorrection extraction correctedValue actor task.sourceStream digest stamp] := by
      rw [hdb']
      rfl
    have hcorrections : db'.corrections = db.corrections := by
      rw [hdb']
      rfl
    refine h.addPending hsound hkeys hfound hpendings hcorrections hfresh rfl ?_
    intro pending hpending
    rw [hpendings, List.mem_append, List.mem_singleton] at hpending
    rcases hpending with hbefore | rfl
    · exact hheld pending hbefore
    · refine ⟨⟨_, rfl, rfl⟩, ⟨extraction, hown⟩, closedOn closedAt task, ?_, hid.symm,
        Option.some_ne_none _, hassignee⟩
      rw [htasks]
      exact Rows.mem_updateAt_self htask
  | written digest stamp hneeds hfresh =>
    have hpendings : db'.pendingCorrections = db.pendingCorrections := by
      rw [hdb']
      rfl
    have hcorrections : db'.corrections = db.corrections ++
        [submittedCorrection extraction correctedValue actor task.sourceStream digest stamp] := by
      rw [hdb']
      rfl
    exact h.addCorrection hsound hkeys hfound hpendings hcorrections hfresh hheld hown
      ⟨_, rfl, rfl⟩ fun hclass => needsMakerChecker_eq_false hneeds hclass

end Submissions

theorem Reviewed.act {a : Activity} (h : Reviewed db) (hact : act db a = some db') :
    Reviewed db' := by
  obtain ⟨hsound, hkeys⟩ := act_taskKeys h hact
  rcases act_quiet h hact with hquiet | ⟨task, extraction, correctedValue, actor, row, mid, samples,
    closedAt, htask, hopen, hassignee, hextraction, hmid, hdb'⟩
  · exact h.quiet hquiet hsound hkeys
  · exact h.submitted htask hopen hassignee hextraction hmid hdb' hsound hkeys

end Activities

section Confirmations

variable {db db' : Database} {pendingId actor : Text} {row entry : Stamp} {confirmedAt : Instant}

theorem confirmed_raisesOnly (pending : PendingCorrection) (actor : Text) (row entry : Stamp)
    (confirmedAt : Instant) :
    Fallible.RaisesOnly (· = Error.integrityError) (do
      addCorrection (confirmedCorrection pending actor row)
      Fallible.write (withResolved pending.id actor row.id confirmedAt)
      auditAppend entry {
        actor := actor
        action := "correction.confirmed".toList
        subject := some pending.extractionId
        purpose := some "maker_checker_confirm".toList }
      return confirmedCorrection pending actor row) := by
  apply Fallible.raisesOnly_bind (addRow_raisesOnly _ _)
  intro _
  apply Fallible.raisesOnly_bind (Fallible.raisesOnly_write _)
  intro _
  exact Fallible.raisesOnly_bind (auditAppend_raisesOnly _ _) fun _ => Fallible.raisesOnly_pure _

theorem confirmPendingCorrection_sameActor {firstActor refused : Text} {claimant : Option Text}
    (h : confirmPendingCorrection pendingId actor row confirmedAt entry db =
      (.raised (.sameActorCannotConfirm refused firstActor claimant), db')) :
    db' = db.withAudit db'.audit := by
  unfold confirmPendingCorrection at h
  rw [Fallible.read_bind] at h
  cases hpending : db.pendingCorrection? pendingId with
  | none =>
    rw [hpending] at h
    cases h
  | some pending =>
    simp only [hpending] at h
    by_cases hstate : pending.state = .pending
    · rw [if_neg (not_not.mpr hstate), Fallible.read_bind] at h
      by_cases hsame : actor = pending.firstActor ∨ claimantOf db pending.extractionId = some actor
      · rw [if_pos hsame] at h
        rcases (auditAppend_raisesOnly entry _).bind_raise h with hintegrity | ⟨-, _, hentry⟩
        · cases hintegrity
        · exact (auditAppend_returned hentry).1
      · rw [if_neg hsame] at h
        have hnone := confirmed_raisesOnly pending actor row entry confirmedAt db trivial
        simp only [confirmedCorrection] at h hnone
        rw [h] at hnone
        cases hnone
    · rw [if_pos hstate] at h
      cases h

theorem confirmRoute_cases (h : confirmRoute pendingId actor row confirmedAt entry db = some db') :
    (∃ correction, confirmPendingCorrection pendingId actor row confirmedAt entry db =
      (.returned correction, db')) ∨
    ((∀ correction, (confirmPendingCorrection pendingId actor row confirmedAt entry db).1 ≠
      .returned correction) ∧ db' = db.withAudit db'.audit) := by
  unfold confirmRoute at h
  split at h
  · rename_i refused firstActor claimant after heq
    obtain rfl := Option.some.inj h
    refine .inr ⟨fun correction hreturned => ?_, confirmPendingCorrection_sameActor heq⟩
    rw [heq] at hreturned
    cases hreturned
  · by_cases hreturned : ∃ correction,
        (confirmPendingCorrection pendingId actor row confirmedAt entry db).1 = .returned correction
    · obtain ⟨correction, hcorrection⟩ := hreturned
      have hcall : confirmPendingCorrection pendingId actor row confirmedAt entry db =
          (.returned correction, _) := Prod.ext hcorrection rfl
      rw [commit_of_returned hcall] at h
      exact .inl ⟨correction, Option.some.inj h ▸ hcall⟩
    · refine .inr ⟨fun correction hcorrection => hreturned ⟨correction, hcorrection⟩, ?_⟩
      rcases commit_eq_some h with rfl | ⟨correction, hresult⟩
      · rfl
      · exact absurd ⟨correction, congrArg Prod.fst hresult⟩ hreturned

theorem confirmed_sameEffects {pending : PendingCorrection}
    (h : db' = (withResolved pendingId actor row.id confirmedAt
      (withCorrection (confirmedCorrection pending actor row) db)).withAudit db'.audit) :
    Decision.SameEffects db db' := by
  rw [h]
  exact ⟨rfl, rfl, rfl, rfl, rfl⟩

theorem resolves_confirmed {pending : PendingCorrection} (row : Stamp) (confirmedAt : Instant)
    (hdistinct : actor ≠ pending.firstActor) :
    Resolves { pending with
      state := .confirmed
      confirmedBy := some actor
      confirmedAt := some confirmedAt
      resultingCorrectionId := some row.id } (confirmedCorrection pending actor row) :=
  ⟨rfl, rfl, rfl, hdistinct, rfl, rfl, rfl, rfl, rfl⟩

theorem Reviewed.confirmed (h : Reviewed db) {correction : Correction}
    (hconfirm : confirmPendingCorrection pendingId actor row confirmedAt entry db =
      (.returned correction, db')) : Reviewed db' := by
  obtain ⟨pending, hfound, hstate, hfirst, -, hfresh, -, hdb'⟩ :=
    confirmPendingCorrection_returned hconfirm
  have hpending : pending ∈ db.pendingCorrections := List.mem_of_find?_eq_some hfound
  have hid := Database.pendingCorrection?_id hfound
  subst hid
  have hsame := confirmed_sameEffects hdb'
  have htasks : db'.reviewTasks = db.reviewTasks := by
    rw [hdb']
    rfl
  have hcorrections : db'.corrections =
      db.corrections ++ [confirmedCorrection pending actor row] := by
    rw [hdb']
    rfl
  have hpendings : db'.pendingCorrections =
      resolvePending pending.id actor row.id confirmedAt db.pendingCorrections := by
    rw [hdb']
    rfl
  have hfoundAfter : ∀ id, db'.extraction? id = db.extraction? id := by
    intro id
    rw [Database.extraction?, hsame.extractions]
    rfl
  have hresolves := resolves_confirmed row confirmedAt hfirst
  refine ⟨hsame.sound h.sound, htasks ▸ h.taskKeys, ?_, ?_, ?_, ?_, ?_⟩
  · rw [hcorrections]
    exact Rows.nodup_append_row h.correctionKeys hfresh
  · rw [hpendings, map_id_resolvePending]
    exact h.pendingKeys
  · intro after hafter
    rw [htasks, hfoundAfter]
    rw [hpendings] at hafter
    rcases Rows.mem_updateAt h.pendingKeys hpending hafter with hbefore | rfl
    · exact h.held after hbefore
    · exact h.held pending hpending
  · intro after hafter hconfirmed
    rw [hcorrections]
    rw [hpendings] at hafter
    rcases Rows.mem_updateAt h.pendingKeys hpending hafter with hbefore | rfl
    · obtain ⟨correction, hcorrection, hresolved⟩ := h.resolved after hbefore hconfirmed
      exact ⟨correction, List.mem_append_left _ hcorrection, hresolved⟩
    · exact ⟨_, List.mem_append_right _ (List.mem_singleton_self _), hresolves⟩
  · intro correction hcorrection
    rw [hcorrections, List.mem_append, List.mem_singleton] at hcorrection
    rw [hfoundAfter, hpendings]
    rcases hcorrection with hbefore | rfl
    · obtain ⟨extraction, hextraction, hmeasured, hchecked⟩ := h.checked correction hbefore
      refine ⟨extraction, hextraction, hmeasured, fun hclass hdistance => ?_⟩
      obtain ⟨other, hother, hresolved⟩ := hchecked hclass hdistance
      refine ⟨other, Rows.mem_updateAt_other h.pendingKeys hpending hother ?_, hresolved⟩
      rintro rfl
      exact absurd (hstate.symm.trans hresolved.state) (by decide)
    · obtain ⟨hmeasured, ⟨extraction, hextraction⟩, -⟩ := h.held pending hpending
      exact ⟨extraction, hextraction, hmeasured,
        fun _ _ => ⟨_, Rows.mem_updateAt_self hpending, hresolves⟩⟩

theorem Reviewed.step {a : ReviewStep} (h : Reviewed db) (hstep : reviewStep db a = some db') :
    Reviewed db' := by
  cases a with
  | activity activity => exact h.act hstep
  | confirm pendingId actor row confirmedAt entry =>
    rcases confirmRoute_cases hstep with ⟨correction, hconfirm⟩ | ⟨-, hdb'⟩
    · exact h.confirmed hconfirm
    · have hsame : Decision.SameEffects db (db.withAudit db'.audit) := ⟨rfl, rfl, rfl, rfl, rfl⟩
      rw [hdb']
      exact h.quiet ⟨rfl, rfl, fun _ htask _ => htask, (Quiet.refl db).fieldNames⟩
        (hsame.sound h.sound) h.taskKeys

def Confirmed (pendingId : Text) (db : Database) : Prop :=
  ∃ pending, db.pendingCorrection? pendingId = some pending ∧ pending.state = .confirmed

theorem act_pendingCorrections {a : Activity} (h : Reviewed db) (hact : act db a = some db') :
    ∃ added, db'.pendingCorrections = db.pendingCorrections ++ added := by
  rcases act_quiet h hact with hquiet | ⟨task, extraction, correctedValue, actor, row, mid, samples,
    closedAt, -, -, -, -, hmid, hdb'⟩
  · exact ⟨[], by rw [hquiet.pendings, List.append_nil]⟩
  · rw [hdb']
    cases hmid with
    | held digest stamp hneeds hfresh => exact ⟨_, rfl⟩
    | written digest stamp hneeds hfresh => exact ⟨[], (List.append_nil _).symm⟩

theorem Confirmed.step {id : Text} {a : ReviewStep} (hs : Reviewed db) (h : Confirmed id db)
    (hstep : reviewStep db a = some db') : Confirmed id db' ∧ confirms id db a = false := by
  obtain ⟨pending, hfound, hstate⟩ := h
  cases a with
  | activity activity =>
    obtain ⟨added, hadded⟩ := act_pendingCorrections hs hstep
    refine ⟨⟨pending, ?_, hstate⟩, rfl⟩
    unfold Database.pendingCorrection? at hfound ⊢
    rw [hadded, List.find?_append, hfound]
    rfl
  | confirm pendingId actor row confirmedAt entry =>
    rcases confirmRoute_cases hstep with ⟨correction, hconfirm⟩ | ⟨hrefused, hdb'⟩
    · obtain ⟨other, hother, hopen, -, -, -, -, hdb'⟩ := confirmPendingCorrection_returned hconfirm
      have hne : pendingId ≠ id := by
        rintro rfl
        rw [hfound] at hother
        cases hother
        rw [hstate] at hopen
        cases hopen
      constructor
      · refine ⟨pending, ?_, hstate⟩
        have hafter : db'.pendingCorrection? id = (withResolved pendingId actor row.id confirmedAt
            (withCorrection (confirmedCorrection other actor row) db)).pendingCorrection? id := by
          rw [hdb']
          rfl
        have hbefore : (withCorrection (confirmedCorrection other actor row)
            db).pendingCorrection? id = some pending := hfound
        rw [hafter, pendingCorrection?_resolved, hbefore, Option.map_some, if_neg]
        rw [Database.pendingCorrection?_id hfound]
        exact hne.symm
      · rw [confirms, decide_eq_false hne, Bool.false_and]
    · refine ⟨⟨pending, ?_, hstate⟩, ?_⟩
      · rw [hdb']
        exact hfound
      · simp only [confirms]
        cases hexit : (confirmPendingCorrection pendingId actor row confirmedAt entry db).1 with
        | returned correction => exact absurd hexit (hrefused correction)
        | raised e => exact Bool.and_false _
        | crashed => exact Bool.and_false _

theorem confirmed_of_confirms {id : Text} {a : ReviewStep} (h : confirms id db a = true)
    (hstep : reviewStep db a = some db') : Confirmed id db' := by
  cases a with
  | activity activity => cases h
  | confirm pendingId actor row confirmedAt entry =>
    simp only [confirms, Bool.and_eq_true, decide_eq_true_eq] at h
    obtain ⟨rfl, hreturned⟩ := h
    rcases confirmRoute_cases hstep with ⟨correction, hconfirm⟩ | ⟨hrefused, -⟩
    · obtain ⟨pending, hfound, -, -, -, -, -, hdb'⟩ := confirmPendingCorrection_returned hconfirm
      have hafter : db'.pendingCorrection? pendingId = (withResolved pendingId actor row.id
          confirmedAt (withCorrection (confirmedCorrection pending actor row)
            db)).pendingCorrection? pendingId := by
        rw [hdb']
        rfl
      have hbefore : (withCorrection (confirmedCorrection pending actor row)
          db).pendingCorrection? pendingId = some pending := hfound
      rw [pendingCorrection?_resolved, hbefore, Option.map_some,
        if_pos (Database.pendingCorrection?_id hfound)] at hafter
      exact ⟨_, hafter, rfl⟩
    · cases hexit : (confirmPendingCorrection pendingId actor row confirmedAt entry db).1 with
      | returned correction => exact absurd hexit (hrefused correction)
      | raised e =>
        rw [hexit] at hreturned
        cases hreturned
      | crashed =>
        rw [hexit] at hreturned
        cases hreturned

theorem refusalKeeps (db : Database) (a : ReviewStep) : RefusalKeeps db a := by
  cases a with
  | activity activity => trivial
  | confirm pendingId actor row confirmedAt entry =>
    intro hrefused db' hstep
    rcases confirmRoute_cases hstep with ⟨correction, hconfirm⟩ | ⟨-, hdb'⟩
    · exact absurd (congrArg Prod.fst hconfirm) (hrefused correction)
    · rw [hdb']
      exact ⟨rfl, rfl, rfl, rfl⟩

end Confirmations

/-- Nothing has been decided, submitted or confirmed yet. -/
structure Unreviewed (db : Database) : Prop where
  undecided : Decision.Undecided db
  corrections : db.corrections = []
  pendingCorrections : db.pendingCorrections = []

theorem Unreviewed.reviewed {db : Database} (h : Unreviewed db) : Reviewed db where
  sound := h.undecided.sound
  taskKeys := by simp [h.undecided.reviewTasks]
  correctionKeys := by simp [h.corrections]
  pendingKeys := by simp [h.pendingCorrections]
  held := by simp [h.pendingCorrections]
  resolved := by simp [h.pendingCorrections]
  checked := by simp [h.corrections]

/-- Maker and checker are kept apart throughout a run, a pending correction is
confirmed at most once in it, and a refused confirmation changes nothing. -/
theorem maker_checker {db : Database} (h : Unreviewed db) (steps : List ReviewStep) :
    Runs.Throughout reviewStep Separated db steps ∧
      (∀ pendingId, Runs.countSteps reviewStep (confirms pendingId) db steps ≤ 1) ∧
      Runs.AllSteps reviewStep RefusalKeeps db steps := by
  have hstep : ∀ s a t, Reviewed s → reviewStep s a = some t → Reviewed t :=
    fun _ _ _ hs hstep => hs.step hstep
  refine ⟨?_, fun pendingId => ?_, ?_⟩
  · exact (Runs.throughout_of_preserved h.reviewed hstep).imp fun _ hs => hs.separated
  · exact Runs.countSteps_le_one h.reviewed hstep (fun _ _ _ hs hdone hstep => hdone.step hs hstep)
      fun _ _ _ _ hconfirms hstep => confirmed_of_confirms hconfirms hstep
  · exact Runs.allSteps_of_forall refusalKeeps

def scannedPage : Database where
  pages := [{
    id := "p1".toList
    documentId := "d1".toList
    storageUri := some "sha256/ab/cd/abcd".toList }]

def sampleReview : Extraction where
  id := "e1".toList
  pageId := "p1".toList
  fieldName := "area".toList
  rawValue := "2.5".toList
  routingOutcome := some .review

def sampleSubmit : SubmitStamps where
  row := ⟨"m1".toList, newYear 2⟩
  correctionEntry := ⟨"a3".toList, newYear 2⟩
  verdictEntry := ⟨"a4".toList, newYear 2⟩
  closedAt := newYear 2
  entry := ⟨"a5".toList, newYear 2⟩

def secondActor : List ReviewStep :=
  [.activity (.decision (.insertExtraction sampleReview)),
    .activity (.decision (.route sampleReview.id none none Decision.sampleStamps)),
    .activity (.claimNext "alice".toList "w1".toList (newYear 2)),
    .activity (.submit "c1".toList "alice".toList "1234567".toList none sampleSubmit),
    .confirm "m1".toList "alice".toList ⟨"k1".toList, newYear 3⟩ (newYear 3)
      ⟨"a6".toList, newYear 3⟩,
    .confirm "m1".toList "bob".toList ⟨"k1".toList, newYear 3⟩ (newYear 3) ⟨"a7".toList, newYear 3⟩,
    .confirm "m1".toList "carol".toList ⟨"k2".toList, newYear 4⟩ (newYear 4)
      ⟨"a8".toList, newYear 4⟩]

theorem maker_checker_secondActor :
    Runs.Throughout reviewStep Separated scannedPage secondActor ∧
      (∀ pendingId, Runs.countSteps reviewStep (confirms pendingId) scannedPage secondActor ≤ 1) ∧
      Runs.AllSteps reviewStep RefusalKeeps scannedPage secondActor :=
  maker_checker ⟨⟨rfl, rfl, rfl, rfl, rfl, fun _ => rfl⟩, rfl, rfl⟩ secondActor

example : ((Runs.run reviewStep scannedPage secondActor).map fun db =>
    (db.pendingCorrections.map PendingCorrection.resultingCorrectionId,
      db.corrections.map Correction.actor)) =
    some ([some "k1".toList], ["bob".toList]) := by
  decide +kernel

end LandRecords.Review
