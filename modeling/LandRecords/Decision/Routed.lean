import LandRecords.Decision.Route

/-! What a returned call of `route` did: it decided the extraction with one
effect, one decision record and its audit entries, or it replayed a decision and
changed nothing. -/
namespace LandRecords.Decision

open Backend Audit Datetime Text

inductive Effect (db : Database) (extraction : Extraction) : RoutingOutcome → Database → Prop
  | autoAccept : Effect db extraction .autoAccept db
  | auditSample (stamp : Stamp) (sample : AuditSample)
      (htask : stamp.id ∉ db.reviewTasks.map ReviewTask.id)
      (hsample : sample.extractionId = extraction.id) (hlink : sample.reviewTaskId = some stamp.id) :
      Effect db extraction .auditSample { db with
        reviewTasks := db.reviewTasks ++ [openReviewTask stamp extraction .audit]
        auditSamples := db.auditSamples ++ [sample] }
  | review (stamp : Stamp) (htask : stamp.id ∉ db.reviewTasks.map ReviewTask.id) :
      Effect db extraction .review { db with
        reviewTasks := db.reviewTasks ++ [openReviewTask stamp extraction .routed] }
  | conflict (stamp : Stamp) (hconflict : stamp.id ∉ db.conflicts.map Conflict.id) :
      Effect db extraction .conflict (withConflict (conflictPlaceholder extraction stamp) db)
  | listed (alert : OperationalAlert) (halert : alert ∈ db.operationalAlerts)
      (hlisted : extraction.id ∈ alert.extractionIds) :
      Effect db extraction .outsideCalibratedRegime db
  | folded (alert : OperationalAlert) (halert : alert ∈ db.operationalAlerts)
      (hnew : extraction.id ∉ alert.extractionIds) :
      Effect db extraction .outsideCalibratedRegime
        (writeBack alert.id (alert.extractionIds ++ [extraction.id]) db)
  | opened (stamp : Stamp) (clusterKey : Text)
      (hnew : stamp.id ∉ db.operationalAlerts.map OperationalAlert.id) :
      Effect db extraction .outsideCalibratedRegime { db with
        operationalAlerts := db.operationalAlerts ++ [newAlert stamp clusterKey extraction.id] }

theorem findAlert_mem {alerts : List OperationalAlert} {clusterKey : Text} {now : Instant}
    {alert : OperationalAlert} (h : findAlert alerts clusterKey now = some alert) :
    alert ∈ alerts := List.mem_of_mem_filter (latest_mem h)

theorem dispatch_returned {db db' : Database} {extraction : Extraction} {clusterKey : Text}
    {stamps : RouteStamps} {outcome : RoutingOutcome} {result : RouteResult}
    (h : dispatch extraction clusterKey stamps outcome db = (.returned result, db')) :
    Effect db extraction outcome db' := by
  cases outcome with
  | autoAccept =>
    cases h
    exact .autoAccept
  | auditSample =>
    simp only [dispatch, auditSample, Fallible.bind_eq_returned, addReviewTask, addAuditSample,
      addRow_returned] at h
    obtain ⟨_, _, ⟨htask, rfl⟩, _, _, ⟨-, rfl⟩, h⟩ := h
    cases h
    exact .auditSample _ _ (of_decide_eq_false htask) rfl rfl
  | review =>
    simp only [dispatch, targetedReview, Fallible.bind_eq_returned, addReviewTask,
      addRow_returned] at h
    obtain ⟨_, _, ⟨htask, rfl⟩, h⟩ := h
    cases h
    exact .review _ (of_decide_eq_false htask)
  | conflict =>
    simp only [dispatch, openConflictPlaceholder, Fallible.bind_eq_returned, addConflict,
      addRow_returned] at h
    obtain ⟨_, _, ⟨hconflict, rfl⟩, h⟩ := h
    cases h
    exact .conflict _ (of_decide_eq_false hconflict)
  | outsideCalibratedRegime =>
    simp only [dispatch, outsideCalibratedRegime, Fallible.read_bind] at h
    cases hfind : findAlert db.operationalAlerts clusterKey stamps.cutoffFrom with
    | some alert =>
      simp only [hfind] at h
      by_cases hlisted : extraction.id ∈ alert.extractionIds
      · rw [if_neg (not_not.mpr hlisted)] at h
        cases h
        exact .listed alert (findAlert_mem hfind) hlisted
      · rw [if_pos hlisted] at h
        cases h
        exact .folded alert (findAlert_mem hfind) hlisted
    | none =>
      simp only [hfind, Fallible.bind_eq_returned, addOperationalAlert, addRow_returned] at h
      obtain ⟨_, _, ⟨hnew, rfl⟩, h⟩ := h
      cases h
      exact .opened _ _ (of_decide_eq_false hnew)

/-- The entry that `mark_processed_if_terminal` is going to append, if any. -/
def processedCalls (db : Database) (pageId : Text) : List AppendArgs :=
  if !alreadyProcessed db pageId (districtForPage db pageId) && isTerminal db pageId then
    [recordPageProcessed pageId (districtForPage db pageId)]
  else []

theorem markProcessed_returned {db db' : Database} {pageId : Text} {entry : Stamp} {marked : Bool}
    (h : markProcessedIfTerminal pageId entry db = (.returned marked, db')) :
    db' = db.withAudit db'.audit ∧ Appended db db' (processedCalls db pageId) := by
  simp only [markProcessedIfTerminal, Fallible.read_bind] at h
  unfold processedCalls
  cases halready : alreadyProcessed db pageId (districtForPage db pageId) with
  | true =>
    rw [halready] at h
    cases h
    exact ⟨rfl, .refl db⟩
  | false =>
    cases hterminal : isTerminal db pageId with
    | false =>
      simp only [halready, hterminal, Bool.false_eq_true, if_false, Fallible.read_bind,
        Bool.not_false, if_true] at h
      cases h
      exact ⟨rfl, .refl db⟩
    | true =>
      simp only [halready, hterminal, Bool.not_true, Bool.false_eq_true, if_false,
        Fallible.read_bind, Fallible.bind_eq_returned] at h
      obtain ⟨_, _, hentry, h⟩ := h
      cases h
      exact auditAppend_returned hentry

structure Decided (db : Database) (extraction : Extraction) (outcome : RoutingOutcome)
    (db' : Database) : Prop where
  undecided : extraction.id ∉ db.decisions.map DecisionRecord.extractionId
  tables : ∃ mid decision, Effect db extraction outcome mid ∧
    decision.extractionId = extraction.id ∧ decision.outcome = outcome ∧
    db' = (withDecision decision mid).withAudit db'.audit
  entries : Appended db db' (routedArgs extraction outcome :: processedCalls db extraction.pageId)

section Frame

variable {db db' : Database} {extraction : Extraction} {outcome : RoutingOutcome}

theorem Effect.decisions (h : Effect db extraction outcome db') : db'.decisions = db.decisions := by
  cases h <;> rfl

theorem Effect.audit (h : Effect db extraction outcome db') : db'.audit = db.audit := by
  cases h <;> rfl

def SamePages (db db' : Database) : Prop :=
  db'.batches = db.batches ∧ db'.sourceDocuments = db.sourceDocuments ∧ db'.pages = db.pages ∧
    db'.extractions = db.extractions

theorem Effect.samePages (h : Effect db extraction outcome db') : SamePages db db' := by
  cases h <;> exact ⟨rfl, rfl, rfl, rfl⟩

theorem SamePages.districtForPage (h : SamePages db db') (pageId : Text) :
    districtForPage db' pageId = districtForPage db pageId := by
  obtain ⟨hbatches, hdocuments, hpages, -⟩ := h
  simp only [Decision.districtForPage, Database.page?, Database.sourceDocument?, Database.batch?,
    hbatches, hdocuments, hpages]

theorem SamePages.isTerminal (h : SamePages db db') (pageId : Text) :
    isTerminal db' pageId = isTerminal db pageId := by
  simp only [Decision.isTerminal, pageOutcomes, h.2.2.2]

theorem routedAction_ne_pageProcessed (outcome : RoutingOutcome) :
    routedAction outcome ≠ pageProcessed := by
  cases outcome <;> decide

theorem alreadyProcessed_of_routed {pageId : Text} {district : Option Text}
    (h : Appended db db' [routedArgs extraction outcome]) :
    alreadyProcessed db' pageId district = alreadyProcessed db pageId district := by
  obtain ⟨entries, hrows, hentries⟩ := h
  obtain ⟨entry, rfl, hrecorded⟩ : ∃ entry, entries = [entry] ∧
      Recorded entry (routedArgs extraction outcome) := by
    cases hentries with
    | cons hrecorded hrest =>
      cases hrest
      exact ⟨_, rfl, hrecorded⟩
  obtain ⟨id, now, last, rfl⟩ := hrecorded
  have haction : (newEntry id now (routedArgs extraction outcome) last).action ≠ pageProcessed :=
    routedAction_ne_pageProcessed outcome
  simp [alreadyProcessed, hrows, haction]

end Frame

theorem decideExtraction_returned {db db' : Database} {extraction : Extraction}
    {outcome : RoutingOutcome} {noveltyClusterId envelopeId : Option Text} {stamps : RouteStamps}
    {result : RouteResult}
    (h : decideExtraction extraction outcome noveltyClusterId envelopeId stamps db =
      (.returned result, db')) : Decided db extraction outcome db' := by
  simp only [decideExtraction, Fallible.bind_eq_returned] at h
  obtain ⟨_, mid, hdispatch, _, decided, hdecision, _, routed, hrouted, _, marked, hmarked, h⟩ := h
  cases h
  have heffect := dispatch_returned hdispatch
  rw [addDecisionRecord, addRow_returned] at hdecision
  obtain ⟨hfresh, rfl⟩ := hdecision
  have hundecided := (not_or.mp (of_decide_eq_false hfresh)).2
  obtain ⟨hroutedTables, hroutedEntries⟩ := auditAppend_returned hrouted
  obtain ⟨hmarkedTables, hmarkedEntries⟩ := markProcessed_returned hmarked
  have hsame : SamePages db routed := by
    rw [hroutedTables]
    exact heffect.samePages
  have halready : ∀ district, alreadyProcessed routed extraction.pageId district =
      alreadyProcessed db extraction.pageId district := by
    intro district
    rw [alreadyProcessed_of_routed hroutedEntries]
    simp only [alreadyProcessed, withDecision, heffect.audit]
  have hcalls : processedCalls routed extraction.pageId = processedCalls db extraction.pageId := by
    simp only [processedCalls, halready, hsame.districtForPage, hsame.isTerminal]
  constructor
  · rw [← heffect.decisions]
    exact hundecided
  · refine ⟨mid, ⟨stamps.decision.id, extraction.id, outcome, envelopeId, stamps.decision.time⟩,
      heffect, rfl, rfl, ?_⟩
    rw [hmarkedTables, hroutedTables]
    rfl
  · have hboth := hroutedEntries.trans hmarkedEntries
    rw [hcalls] at hboth
    obtain ⟨entries, hrows, hrecorded⟩ := hboth
    apply Exists.intro entries
    rw [hrows, withDecision, heffect.audit]
    exact ⟨rfl, hrecorded⟩

theorem replay_readOnly (extraction : Extraction) (outcome : RoutingOutcome) :
    Fallible.ReadOnly (replay extraction outcome) := by
  cases outcome with
  | autoAccept => exact Fallible.readOnly_pure _
  | review =>
    exact Fallible.readOnly_bind (scalarOneOrNone_readOnly _) fun _ => Fallible.readOnly_pure _
  | auditSample =>
    apply Fallible.readOnly_bind (scalarOneOrNone_readOnly _)
    intro task
    exact Fallible.readOnly_bind (scalarOneOrNone_readOnly _) fun _ => Fallible.readOnly_pure _
  | conflict =>
    exact Fallible.readOnly_bind (scalarOneOrNone_readOnly _) fun _ => Fallible.readOnly_pure _
  | outsideCalibratedRegime =>
    exact Fallible.readOnly_bind (scalarOneOrNone_readOnly _) fun _ => Fallible.readOnly_pure _

theorem dispatch_raisesOnly (extraction : Extraction) (clusterKey : Text) (stamps : RouteStamps)
    (outcome : RoutingOutcome) : Fallible.RaisesOnly (· = Error.integrityError)
      (dispatch extraction clusterKey stamps outcome) := by
  cases outcome with
  | autoAccept => exact Fallible.raisesOnly_pure _
  | auditSample =>
    apply Fallible.raisesOnly_bind (addRow_raisesOnly _ _)
    intro _
    exact Fallible.raisesOnly_bind (addRow_raisesOnly _ _) fun _ => Fallible.raisesOnly_pure _
  | review =>
    exact Fallible.raisesOnly_bind (addRow_raisesOnly _ _) fun _ => Fallible.raisesOnly_pure _
  | conflict =>
    exact Fallible.raisesOnly_bind (addRow_raisesOnly _ _) fun _ => Fallible.raisesOnly_pure _
  | outsideCalibratedRegime =>
    apply Fallible.raisesOnly_bind (Fallible.raisesOnly_read _)
    intro existing
    cases existing with
    | some alert =>
      dsimp only
      split
      · exact Fallible.raisesOnly_bind (Fallible.raisesOnly_write _)
          fun _ => Fallible.raisesOnly_pure _
      · exact Fallible.raisesOnly_pure _
    | none =>
      exact Fallible.raisesOnly_bind (addRow_raisesOnly _ _) fun _ => Fallible.raisesOnly_pure _

theorem markProcessed_raisesOnly (pageId : Text) (entry : Stamp) :
    Fallible.RaisesOnly (· = Error.integrityError) (markProcessedIfTerminal pageId entry) := by
  apply Fallible.raisesOnly_bind (Fallible.raisesOnly_read _)
  intro district
  apply Fallible.raisesOnly_bind (Fallible.raisesOnly_read _)
  intro already
  split
  · exact Fallible.raisesOnly_pure _
  · apply Fallible.raisesOnly_bind (Fallible.raisesOnly_read _)
    intro unfinished
    split
    · exact Fallible.raisesOnly_pure _
    · exact Fallible.raisesOnly_bind (auditAppend_raisesOnly _ _)
        fun _ => Fallible.raisesOnly_pure _

theorem decideExtraction_raisesOnly (extraction : Extraction) (outcome : RoutingOutcome)
    (noveltyClusterId envelopeId : Option Text) (stamps : RouteStamps) :
    Fallible.RaisesOnly (· = Error.integrityError)
      (decideExtraction extraction outcome noveltyClusterId envelopeId stamps) := by
  apply Fallible.raisesOnly_bind (dispatch_raisesOnly _ _ _ _)
  intro result
  apply Fallible.raisesOnly_bind (addRow_raisesOnly _ _)
  intro _
  apply Fallible.raisesOnly_bind (auditAppend_raisesOnly _ _)
  intro _
  exact Fallible.raisesOnly_bind (markProcessed_raisesOnly _ _) fun _ => Fallible.raisesOnly_pure _

section Repeat

variable {db : Database} {extractionId : Text} {extraction : Extraction}
  {outcome : RoutingOutcome} {decision : DecisionRecord}
  {noveltyClusterId envelopeId : Option Text} {stamps : RouteStamps}

theorem route_of_decided (hextraction : db.extraction? extractionId = some extraction)
    (houtcome : extraction.routingOutcome = some outcome)
    (hdecided : decisionsFor db extractionId = [decision]) :
    route extractionId noveltyClusterId envelopeId stamps db =
      if decision.outcome = outcome then
        (do return .replayed (← replay extraction outcome) : Session RouteResult) db
      else (.raised (.alreadyDecidedWithDifferentOutcome extractionId decision.outcome outcome),
        db) := by
  have hexisting : scalarOneOrNone (fun db => decisionsFor db extractionId) db =
      (.returned (some decision), db) := by
    rw [scalarOneOrNone_of_le_one (by rw [hdecided]; rfl), hdecided]
    rfl
  unfold route
  rw [Fallible.read_bind]
  simp only [hextraction, houtcome]
  rw [Fallible.bind_returned hexisting]
  dsimp only
  by_cases hsame : decision.outcome = outcome
  · rw [if_neg (not_not.mpr hsame), if_pos hsame]
  · rw [if_pos hsame, if_neg hsame]
    rfl

theorem route_of_undecided (hextraction : db.extraction? extractionId = some extraction)
    (houtcome : extraction.routingOutcome = some outcome)
    (hundecided : decisionsFor db extractionId = []) :
    route extractionId noveltyClusterId envelopeId stamps db =
      decideExtraction extraction outcome noveltyClusterId envelopeId stamps db := by
  have hexisting : scalarOneOrNone (fun db => decisionsFor db extractionId) db =
      (.returned none, db) := by
    rw [scalarOneOrNone_of_le_one (by rw [hundecided]; exact Nat.zero_le _), hundecided]
    rfl
  unfold route
  rw [Fallible.read_bind]
  simp only [hextraction, houtcome]
  rw [Fallible.bind_returned hexisting]

theorem replay_returns (extraction : Extraction) (outcome : RoutingOutcome)
    (htasks : (reviewTasksFor db extraction.id).length ≤ 1)
    (hsamples : (auditSamplesFor db extraction.id).length ≤ 1)
    (hconflicts : outcome = .conflict → (conflictsNaming db extraction.id).length ≤ 1)
    (halerts : (alertsListing db extraction.id).length ≤ 1) :
    ∃ stored, replay extraction outcome db = (.returned stored, db) := by
  cases outcome with
  | autoAccept => exact ⟨_, rfl⟩
  | auditSample =>
    apply Exists.intro
    simp only [replay]
    rw [Fallible.bind_returned (scalarOneOrNone_of_le_one htasks),
      Fallible.bind_returned (scalarOneOrNone_of_le_one hsamples)]
    rfl
  | review =>
    apply Exists.intro
    simp only [replay]
    rw [Fallible.bind_returned (scalarOneOrNone_of_le_one htasks)]
    rfl
  | conflict =>
    apply Exists.intro
    simp only [replay]
    rw [Fallible.bind_returned (scalarOneOrNone_of_le_one (hconflicts rfl))]
    rfl
  | outsideCalibratedRegime =>
    apply Exists.intro
    simp only [replay]
    rw [Fallible.bind_returned (scalarOneOrNone_of_le_one halerts)]
    rfl

theorem replay_raises (hconflicts : 1 < (conflictsNaming db extraction.id).length) :
    replay extraction .conflict db = (.raised .multipleResultsFound, db) := by
  simp only [replay]
  rw [Fallible.bind_raised (scalarOneOrNone_of_one_lt hconflicts)]

end Repeat

theorem route_returned {db db' : Database} {extractionId : Text}
    {noveltyClusterId envelopeId : Option Text} {stamps : RouteStamps} {result : RouteResult}
    (h : route extractionId noveltyClusterId envelopeId stamps db = (.returned result, db')) :
    db' = db ∨ ∃ extraction outcome, db.extraction? extractionId = some extraction ∧
      extraction.routingOutcome = some outcome ∧ Decided db extraction outcome db' := by
  unfold route at h
  rw [Fallible.read_bind] at h
  cases hextraction : db.extraction? extractionId with
  | none =>
    rw [hextraction] at h
    cases h
  | some extraction =>
    simp only [hextraction] at h
    cases houtcome : extraction.routingOutcome with
    | none =>
      rw [houtcome] at h
      cases h
    | some outcome =>
      simp only [houtcome] at h
      rw [Fallible.bind_eq_returned] at h
      obtain ⟨existing, mid, hexisting, h⟩ := h
      rw [scalarOneOrNone_returned] at hexisting
      obtain ⟨hrows, rfl⟩ := hexisting
      cases existing with
      | some existing =>
        dsimp only at h
        by_cases hsame : existing.outcome = outcome
        · rw [if_neg (not_not.mpr hsame), Fallible.bind_eq_returned] at h
          obtain ⟨stored, mid, hreplay, h⟩ := h
          cases h
          have hworld := replay_readOnly extraction outcome db
          rw [hreplay] at hworld
          exact .inl hworld
        · rw [if_pos hsame] at h
          cases h
      | none => exact .inr ⟨extraction, outcome, rfl, houtcome, decideExtraction_returned h⟩

end LandRecords.Decision
