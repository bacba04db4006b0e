import LandRecords.Base.Runs
import LandRecords.Decision.Routed

/-! Exactly one decision for each extraction. Whatever is delivered, in whatever
order and however often, a decided extraction has one decision record, the one
effect of its outcome and one audit entry, and a repeat changes nothing. -/
namespace LandRecords.Decision

open Backend Audit Datetime Text

/-- Upstream writes to the extraction rows, and deliveries of decision messages. -/
inductive Step
  | insertExtraction (row : Extraction)
  | setRoutingOutcome (extractionId : Text) (outcome : Option RoutingOutcome)
  | route (extractionId : Text) (noveltyClusterId envelopeId : Option Text) (stamps : RouteStamps)

def withRoutingOutcome (extractionId : Text) (outcome : Option RoutingOutcome)
    (rows : List Extraction) : List Extraction :=
  rows.map fun row =>
    if row.id = extractionId then { row with routingOutcome := outcome } else row

def step (db : Database) : Step → Option Database
  | .insertExtraction row =>
      if row.id ∈ db.extractions.map Extraction.id then none
      else some { db with extractions := db.extractions ++ [row] }
  | .setRoutingOutcome extractionId outcome =>
      some { db with extractions := withRoutingOutcome extractionId outcome db.extractions }
  | .route extractionId noveltyClusterId envelopeId stamps =>
      commit (route extractionId noveltyClusterId envelopeId stamps) db

def Routable (db : Database) (extractionId : Text) (extraction : Extraction)
    (outcome : RoutingOutcome) : Prop :=
  db.extraction? extractionId = some extraction ∧ extraction.routingOutcome = some outcome ∧
    decisionsFor db extractionId = []

theorem Decided.decisionsFor_own {db db' : Database} {extraction : Extraction}
    {outcome : RoutingOutcome} (h : Decided db extraction outcome db') :
    decisionsFor db extraction.id = [] := by
  apply List.filter_eq_nil_iff.mpr
  intro decision hdecision heq
  exact h.undecided (of_decide_eq_true heq ▸ List.mem_map_of_mem hdecision)

/-- A delivery decides its extraction, or finds nothing to decide. -/
theorem step_route {db db' : Database} {extractionId : Text}
    {noveltyClusterId envelopeId : Option Text} {stamps : RouteStamps}
    (h : step db (.route extractionId noveltyClusterId envelopeId stamps) = some db') :
    (db' = db ∧ ∀ extraction outcome, ¬ Routable db extractionId extraction outcome) ∨
      ∃ extraction outcome, Routable db extractionId extraction outcome ∧
        Decided db extraction outcome db' := by
  simp only [step] at h
  by_cases hroutable : ∃ extraction outcome, Routable db extractionId extraction outcome
  · obtain ⟨extraction, outcome, hroutable⟩ := hroutable
    rw [commit_congr (route_of_undecided hroutable.1 hroutable.2.1 hroutable.2.2)] at h
    obtain ⟨result, hresult⟩ := commit_returned h (decideExtraction_raisesOnly _ _ _ _ _)
    exact .inr ⟨extraction, outcome, hroutable, decideExtraction_returned hresult⟩
  · refine .inl ⟨?_, fun extraction outcome h => hroutable ⟨extraction, outcome, h⟩⟩
    rcases commit_eq_some h with hunchanged | ⟨result, hresult⟩
    · exact hunchanged
    · rcases route_returned hresult with hunchanged | ⟨extraction, outcome, hfound, houtcome, hdecided⟩
      · exact hunchanged
      · have hnone := hdecided.decisionsFor_own
        rw [Database.extraction?_id hfound] at hnone
        exact absurd ⟨extraction, outcome, hfound, houtcome, hnone⟩ hroutable

theorem map_id_withRoutingOutcome (extractionId : Text) (outcome : Option RoutingOutcome)
    (rows : List Extraction) :
    (withRoutingOutcome extractionId outcome rows).map Extraction.id = rows.map Extraction.id := by
  apply Rows.map_updateAt
  intro row
  rfl

/-- A step adds or changes extraction rows, or decides an extraction. -/
theorem step_cases {db db' : Database} {a : Step} (h : step db a = some db') :
    (∃ rows, db' = { db with extractions := rows } ∧
      db.extractions.map Extraction.id ⊆ rows.map Extraction.id) ∨
    ∃ extraction outcome, Routable db extraction.id extraction outcome ∧
      Decided db extraction outcome db' := by
  cases a with
  | insertExtraction row =>
    simp only [step] at h
    split at h
    · cases h
    · cases h
      refine .inl ⟨_, rfl, ?_⟩
      rw [List.map_append]
      exact List.subset_append_left _ _
  | setRoutingOutcome extractionId outcome =>
    cases h
    refine .inl ⟨_, rfl, ?_⟩
    rw [map_id_withRoutingOutcome]
    exact List.Subset.refl _
  | route extractionId noveltyClusterId envelopeId stamps =>
    rcases step_route h with ⟨rfl, -⟩ | ⟨extraction, outcome, hroutable, hdecided⟩
    · exact .inl ⟨_, rfl, List.Subset.refl _⟩
    · rw [← Database.extraction?_id hroutable.1] at hroutable
      exact .inr ⟨extraction, outcome, hroutable, hdecided⟩

def routedEntries (db : Database) (extractionId : Text) : List AuditEntry :=
  db.audit.rows.filter fun entry =>
    "decision.route.".toList.isPrefixOf entry.action && entry.subject = some extractionId

def decidedOutcome (db : Database) (extractionId : Text) : Option RoutingOutcome :=
  (decisionsFor db extractionId).head?.map DecisionRecord.outcome

def taskStreams : Option RoutingOutcome → List SourceStream
  | some .review => [.routed]
  | some .auditSample => [.audit]
  | _ => []

/-- The rows of an extraction, but for the conflict register. An undecided
extraction has none. -/
structure Settled (db : Database) (extractionId : Text) (decided : Option RoutingOutcome) :
    Prop where
  decisions : (decisionsFor db extractionId).map DecisionRecord.outcome = decided.toList
  tasks : (reviewTasksFor db extractionId).map ReviewTask.sourceStream = taskStreams decided
  samples : (auditSamplesFor db extractionId).map AuditSample.reviewTaskId =
    if decided = some .auditSample then
      (reviewTasksFor db extractionId).map fun task => some task.id
    else []
  alerts : (alertsListing db extractionId).length =
    if decided = some .outsideCalibratedRegime then 1 else 0

def Registered (db : Database) (extractionId : Text) (decided : Option RoutingOutcome) : Prop :=
  (conflictsNaming db extractionId).map Conflict.records =
    if decided = some .conflict then [[extractionId]] else []

def Audited (db : Database) (extractionId : Text) (decided : Option RoutingOutcome) : Prop :=
  (routedEntries db extractionId).map AuditEntry.action = (decided.map routedAction).toList

def AlertKeys (db : Database) : Prop := (db.operationalAlerts.map OperationalAlert.id).Nodup

theorem map_id_setExtractionIds (alertId : Text) (ids : List Text) (alerts : List OperationalAlert) :
    (setExtractionIds alertId ids alerts).map OperationalAlert.id =
      alerts.map OperationalAlert.id := by
  apply Rows.map_updateAt
  intro row
  rfl

theorem setExtractionIds_of_notMem {alertId : Text} {ids : List Text}
    {alerts : List OperationalAlert} (h : alertId ∉ alerts.map OperationalAlert.id) :
    setExtractionIds alertId ids alerts = alerts :=
  Rows.updateAt_of_notMem h

theorem setExtractionIds_split {alerts : List OperationalAlert} {alert : OperationalAlert}
    (hkeys : (alerts.map OperationalAlert.id).Nodup) (halert : alert ∈ alerts) :
    ∃ before after, alerts = before ++ alert :: after ∧ ∀ ids,
      setExtractionIds alert.id ids alerts =
        before ++ { alert with extractionIds := ids } :: after := by
  obtain ⟨before, after, rfl⟩ := List.append_of_mem halert
  rw [List.map_append, List.map_cons, List.nodup_middle, List.nodup_cons, List.mem_append,
    not_or] at hkeys
  refine ⟨before, after, rfl, fun ids => ?_⟩
  have hbefore : setExtractionIds alert.id ids before = before :=
    setExtractionIds_of_notMem hkeys.1.1
  have hafter : setExtractionIds alert.id ids after = after :=
    setExtractionIds_of_notMem hkeys.1.2
  unfold setExtractionIds at *
  rw [List.map_append, List.map_cons, hbefore, hafter, if_pos rfl]

section Effects

variable {db db' : Database} {extraction : Extraction} {outcome : RoutingOutcome} {id : Text}

theorem Effect.alertKeys (h : Effect db extraction outcome db') (hkeys : AlertKeys db) :
    AlertKeys db' := by
  cases h with
  | folded alert halert hnew =>
    unfold AlertKeys writeBack
    rw [map_id_setExtractionIds]
    exact hkeys
  | opened stamp clusterKey hnew =>
    exact Rows.nodup_append_row hkeys hnew
  | _ => exact hkeys

theorem Effect.reviewTasksFor_other (h : Effect db extraction outcome db')
    (hid : id ≠ extraction.id) : reviewTasksFor db' id = reviewTasksFor db id := by
  cases h <;> simp [reviewTasksFor, openReviewTask, hid.symm, writeBack, withConflict]

theorem Effect.auditSamplesFor_other (h : Effect db extraction outcome db')
    (hid : id ≠ extraction.id) : auditSamplesFor db' id = auditSamplesFor db id := by
  cases h with
  | auditSample stamp sample htask hsample hlink =>
    have hother : sample.extractionId ≠ id := fun h => hid (h.symm.trans hsample)
    simp [auditSamplesFor, hother]
  | _ => rfl

theorem Effect.conflictsNaming_other (h : Effect db extraction outcome db')
    (hid : id ≠ extraction.id) : conflictsNaming db' id = conflictsNaming db id := by
  cases h <;> simp [conflictsNaming, conflictPlaceholder, hid, writeBack, withConflict]

theorem alertsListing_writeBack (id : Text) (hkeys : AlertKeys db) {alert : OperationalAlert}
    (halert : alert ∈ db.operationalAlerts) (ids : List Text) :
    (alertsListing (writeBack alert.id ids db) id).length + (if id ∈ alert.extractionIds then 1 else 0)
      = (alertsListing db id).length + if id ∈ ids then 1 else 0 := by
  obtain ⟨before, after, hsplit, hwritten⟩ := setExtractionIds_split hkeys halert
  simp only [alertsListing, writeBack, hwritten ids]
  rw [hsplit]
  simp only [List.filter_append, List.filter_cons, List.length_append, decide_eq_true_eq]
  split <;> split <;> simp only [List.length_cons] <;> omega

theorem Effect.alertsListing_other (h : Effect db extraction outcome db') (hkeys : AlertKeys db)
    (hid : id ≠ extraction.id) : (alertsListing db' id).length = (alertsListing db id).length := by
  cases h with
  | folded alert halert hnew =>
    have hcount := alertsListing_writeBack id hkeys halert
      (alert.extractionIds ++ [extraction.id])
    simp only [List.mem_append, List.mem_singleton, hid, or_false] at hcount
    omega
  | opened stamp clusterKey hnew => simp [alertsListing, newAlert, hid]
  | _ => rfl

theorem Effect.settles (h : Effect db extraction outcome db') (hkeys : AlertKeys db)
    (hnone : Settled db extraction.id none) :
    (reviewTasksFor db' extraction.id).map ReviewTask.sourceStream = taskStreams (some outcome) ∧
      (auditSamplesFor db' extraction.id).map AuditSample.reviewTaskId =
        (if some outcome = some .auditSample then
          (reviewTasksFor db' extraction.id).map fun task => some task.id
        else []) ∧
      (alertsListing db' extraction.id).length =
        if some outcome = some .outsideCalibratedRegime then 1 else 0 := by
  have htasks : reviewTasksFor db extraction.id = [] := List.map_eq_nil_iff.mp hnone.tasks
  have hsamples : auditSamplesFor db extraction.id = [] := List.map_eq_nil_iff.mp hnone.samples
  have halerts : alertsListing db extraction.id = [] := List.length_eq_zero_iff.mp hnone.alerts
  unfold reviewTasksFor at htasks
  unfold auditSamplesFor at hsamples
  unfold alertsListing at halerts
  unfold reviewTasksFor auditSamplesFor alertsListing
  cases h with
  | autoAccept => simp [htasks, hsamples, halerts, taskStreams]
  | auditSample stamp sample htask hsample hlink =>
    simp [htasks, hsamples, halerts, taskStreams, openReviewTask, hsample, hlink]
  | review stamp htask => simp [htasks, hsamples, halerts, taskStreams, openReviewTask]
  | conflict stamp hconflict => simp [htasks, hsamples, halerts, taskStreams, withConflict]
  | listed alert halert hlisted =>
    have hmem : alert ∈ alertsListing db extraction.id := List.mem_filter.mpr ⟨halert, by simpa⟩
    simp [alertsListing, halerts] at hmem
  | folded alert halert hnew =>
    have hcount := alertsListing_writeBack extraction.id hkeys halert
      (alert.extractionIds ++ [extraction.id])
    simp [alertsListing, hnew, halerts] at hcount
    simp [htasks, hsamples, taskStreams, writeBack] at hcount ⊢
    exact hcount
  | opened stamp clusterKey hnew => simp [htasks, hsamples, halerts, taskStreams, newAlert]

end Effects

section Decided

variable {db db' : Database} {extraction : Extraction} {outcome : RoutingOutcome}

theorem processedCalls_cases (db : Database) (pageId : Text) : processedCalls db pageId = [] ∨
    processedCalls db pageId = [recordPageProcessed pageId (districtForPage db pageId)] := by
  unfold processedCalls
  split
  · exact .inr rfl
  · exact .inl rfl

theorem isPrefixOf_pageProcessed : "decision.route.".toList.isPrefixOf pageProcessed = false := by
  decide

theorem isPrefixOf_routedAction (outcome : RoutingOutcome) :
    "decision.route.".toList.isPrefixOf (routedAction outcome) = true := by
  cases outcome <;> decide

theorem Decided.routedEntries (h : Decided db extraction outcome db') (id : Text) :
    (routedEntries db' id).map AuditEntry.action = (routedEntries db id).map AuditEntry.action ++
      if id = extraction.id then [routedAction outcome] else [] := by
  have hgrown := h.entries.filter_map (f := AuditEntry.action) (g := AppendArgs.action)
    (p := fun entry => "decision.route.".toList.isPrefixOf entry.action && entry.subject = some id)
    (q := fun args => "decision.route.".toList.isPrefixOf args.action && args.subject = some id)
    (fun entry args h => by rw [h.action, h.subject]) fun entry args h => h.action
  unfold Decision.routedEntries
  rw [hgrown]
  congr 1
  have hpage : (processedCalls db extraction.pageId).filter (fun args =>
      "decision.route.".toList.isPrefixOf args.action && args.subject = some id) = [] := by
    rcases processedCalls_cases db extraction.pageId with hcalls | hcalls
    · rw [hcalls, List.filter_nil]
    · simp only [hcalls, List.filter_cons, recordPageProcessed_action, isPrefixOf_pageProcessed,
        Bool.false_and, Bool.false_eq_true, if_false, List.filter_nil]
  simp only [List.filter_cons, routedArgs_action, routedArgs_subject, isPrefixOf_routedAction,
    hpage, Bool.true_and, Option.some.injEq, decide_eq_true_eq, eq_comm (a := extraction.id)]
  split
  · simp only [List.map_cons, routedArgs_action, List.map_nil]
  · rfl

theorem Decided.decisions (h : Decided db extraction outcome db') : ∃ decision,
    decision.extractionId = extraction.id ∧ decision.outcome = outcome ∧
      db'.decisions = db.decisions ++ [decision] := by
  obtain ⟨mid, decision, heffect, hextraction, houtcome, htables⟩ := h.tables
  refine ⟨decision, hextraction, houtcome, ?_⟩
  rw [htables, ← heffect.decisions]
  rfl

theorem Decided.decisionsFor (h : Decided db extraction outcome db') (id : Text) :
    (decisionsFor db' id).map DecisionRecord.outcome =
      (decisionsFor db id).map DecisionRecord.outcome ++
        if id = extraction.id then [outcome] else [] := by
  obtain ⟨decision, hextraction, houtcome, hdecisions⟩ := h.decisions
  unfold Decision.decisionsFor
  simp only [hdecisions, List.filter_append, List.map_append, List.filter_cons, hextraction,
    List.filter_nil, decide_eq_true_eq, eq_comm (a := extraction.id)]
  split
  · rw [List.map_singleton, houtcome]
  · rfl

theorem Decided.decidedOutcome_own (h : Decided db extraction outcome db') :
    decidedOutcome db extraction.id = none := by
  rw [decidedOutcome, h.decisionsFor_own]
  rfl

theorem Decided.decidedOutcome (h : Decided db extraction outcome db') (id : Text) :
    decidedOutcome db' id =
      if id = extraction.id then some outcome else decidedOutcome db id := by
  have hdecisions := h.decisionsFor id
  have hhead : ∀ database, Decision.decidedOutcome database id =
      ((Decision.decisionsFor database id).map DecisionRecord.outcome).head? := by
    intro database
    rw [Decision.decidedOutcome, List.head?_map]
  split
  · rename_i hid
    subst hid
    have hnone := h.decidedOutcome_own
    rw [hhead, List.head?_eq_none_iff] at hnone
    rw [hhead, hdecisions, hnone, if_pos rfl]
    rfl
  · rename_i hid
    rw [hhead, hhead, hdecisions, if_neg hid, List.append_nil]

theorem Decided.settled (h : Decided db extraction outcome db') (hkeys : AlertKeys db)
    (hs : ∀ id, Settled db id (Decision.decidedOutcome db id)) (id : Text) :
    Settled db' id (Decision.decidedOutcome db' id) := by
  obtain ⟨mid, decision, heffect, hextraction, houtcome, htables⟩ := h.tables
  have hdecisions := h.decisionsFor id
  have htasks : reviewTasksFor db' id = reviewTasksFor mid id := by rw [htables]; rfl
  have hsamples : auditSamplesFor db' id = auditSamplesFor mid id := by rw [htables]; rfl
  have halerts : alertsListing db' id = alertsListing mid id := by rw [htables]; rfl
  rw [h.decidedOutcome id]
  by_cases hid : id = extraction.id
  · subst hid
    have hnone := hs extraction.id
    rw [h.decidedOutcome_own] at hnone
    obtain ⟨hownTasks, hownSamples, hownAlerts⟩ := heffect.settles hkeys hnone
    rw [if_pos rfl] at *
    constructor
    · rw [hdecisions, hnone.decisions]
      rfl
    · rw [htasks, hownTasks]
    · rw [hsamples, htasks, hownSamples]
    · rw [halerts, hownAlerts]
  · have hold := hs id
    rw [if_neg hid, List.append_nil] at hdecisions
    rw [if_neg hid]
    constructor
    · rw [hdecisions, hold.decisions]
    · rw [htasks, heffect.reviewTasksFor_other hid, hold.tasks]
    · rw [hsamples, htasks, heffect.auditSamplesFor_other hid, heffect.reviewTasksFor_other hid,
        hold.samples]
    · rw [halerts, heffect.alertsListing_other hkeys hid, hold.alerts]

theorem Decided.audited (h : Decided db extraction outcome db')
    (hs : ∀ id, Audited db id (Decision.decidedOutcome db id)) (id : Text) :
    Audited db' id (Decision.decidedOutcome db' id) := by
  rw [Audited, h.decidedOutcome id, h.routedEntries id, hs id]
  by_cases hid : id = extraction.id
  · subst hid
    rw [h.decidedOutcome_own, if_pos rfl, if_pos rfl]
    rfl
  · rw [if_neg hid, if_neg hid, List.append_nil]

theorem Effect.conflictsNaming_length (h : Effect db extraction outcome db') (id : Text) :
    (conflictsNaming db' id).length = (conflictsNaming db id).length +
      if id = extraction.id ∧ outcome = .conflict then 1 else 0 := by
  by_cases hid : id = extraction.id
  · subst hid
    cases h <;> simp [conflictsNaming, conflictPlaceholder, writeBack, withConflict]
  · rw [h.conflictsNaming_other hid, if_neg (fun hboth => hid hboth.1), Nat.add_zero]

theorem Decided.conflictsNaming_length (h : Decided db extraction outcome db') (id : Text) :
    (conflictsNaming db' id).length = (conflictsNaming db id).length +
      if id = extraction.id ∧ outcome = .conflict then 1 else 0 := by
  obtain ⟨mid, decision, heffect, -, -, htables⟩ := h.tables
  rw [← heffect.conflictsNaming_length id, htables]
  rfl

theorem Decided.extractions (h : Decided db extraction outcome db') :
    db'.extractions = db.extractions := by
  obtain ⟨mid, decision, heffect, -, -, htables⟩ := h.tables
  rw [htables]
  exact heffect.samePages.2.2.2

theorem Effect.registers (h : Effect db extraction outcome db')
    (hnone : Registered db extraction.id none) : Registered db' extraction.id (some outcome) := by
  have hconflicts : conflictsNaming db extraction.id = [] := List.map_eq_nil_iff.mp hnone
  unfold conflictsNaming at hconflicts
  unfold Registered conflictsNaming
  cases h <;> simp [hconflicts, conflictPlaceholder, writeBack, withConflict]

theorem Decided.registered (h : Decided db extraction outcome db')
    (hs : ∀ id, Registered db id (Decision.decidedOutcome db id)) (id : Text) :
    Registered db' id (Decision.decidedOutcome db' id) := by
  obtain ⟨mid, decision, heffect, hextraction, houtcome, htables⟩ := h.tables
  have hconflicts : conflictsNaming db' id = conflictsNaming mid id := by rw [htables]; rfl
  rw [h.decidedOutcome id, Registered, hconflicts, ← Registered]
  by_cases hid : id = extraction.id
  · subst hid
    have hnone := hs extraction.id
    rw [h.decidedOutcome_own] at hnone
    rw [if_pos rfl]
    exact heffect.registers hnone
  · rw [if_neg hid, Registered, heffect.conflictsNaming_other hid]
    exact hs id

end Decided

structure Repeats (db : Database) : Prop where
  sameOutcome : ∀ extractionId extraction decision, db.extraction? extractionId = some extraction →
    decision ∈ decisionsFor db extractionId → extraction.routingOutcome = some decision.outcome →
    ∀ noveltyClusterId envelopeId stamps, ∃ stored,
      route extractionId noveltyClusterId envelopeId stamps db = (.returned (.replayed stored), db)
  otherOutcome : ∀ extractionId extraction decision outcome,
    db.extraction? extractionId = some extraction → decision ∈ decisionsFor db extractionId →
    extraction.routingOutcome = some outcome → outcome ≠ decision.outcome →
    ∀ noveltyClusterId envelopeId stamps,
      route extractionId noveltyClusterId envelopeId stamps db =
        (.raised (.alreadyDecidedWithDifferentOutcome extractionId decision.outcome outcome), db)

section Settled

variable {db : Database} {id : Text} {decided : Option RoutingOutcome}

theorem Settled.decisionsFor_le_one (h : Settled db id decided) :
    (decisionsFor db id).length ≤ 1 := by
  have hlength := congrArg List.length h.decisions
  rw [List.length_map] at hlength
  rw [hlength]
  cases decided <;> simp

theorem Settled.reviewTasksFor_le_one (h : Settled db id decided) :
    (reviewTasksFor db id).length ≤ 1 := by
  have hlength := congrArg List.length h.tasks
  rw [List.length_map] at hlength
  rw [hlength]
  unfold taskStreams
  split <;> simp

theorem Settled.auditSamplesFor_le_one (h : Settled db id decided) :
    (auditSamplesFor db id).length ≤ 1 := by
  have hlength := congrArg List.length h.samples
  have htasks := h.reviewTasksFor_le_one
  rw [List.length_map] at hlength
  rw [hlength]
  split
  · rwa [List.length_map]
  · simp

theorem Settled.alertsListing_le_one (h : Settled db id decided) :
    (alertsListing db id).length ≤ 1 := by
  rw [h.alerts]
  split <;> simp

theorem Registered.conflictsNaming_le_one (h : Registered db id decided) :
    (conflictsNaming db id).length ≤ 1 := by
  have hlength := congrArg List.length h
  rw [List.length_map] at hlength
  rw [hlength]
  split <;> simp

theorem Settled.eq_singleton (h : Settled db id decided) {decision : DecisionRecord}
    (hdecision : decision ∈ decisionsFor db id) : decisionsFor db id = [decision] := by
  obtain ⟨only, honly⟩ := List.length_eq_one_iff.mp
    (Nat.le_antisymm h.decisionsFor_le_one (List.length_pos_of_mem hdecision))
  rw [honly, List.mem_singleton] at hdecision
  rw [honly, hdecision]

theorem Settled.decision {outcome : RoutingOutcome} (h : Settled db id (some outcome)) :
    ∃ decision, decisionsFor db id = [decision] ∧ decision.outcome = outcome :=
  List.map_eq_singleton_iff.mp h.decisions

theorem decidedOutcome_of_mem (h : Settled db id (decidedOutcome db id)) {decision : DecisionRecord}
    (hdecision : decision ∈ decisionsFor db id) :
    decidedOutcome db id = some decision.outcome := by
  rw [decidedOutcome, h.eq_singleton hdecision]
  rfl

theorem repeats_of_settled (hsettled : ∀ id, Settled db id (decidedOutcome db id))
    (hregistered : ∀ id, Registered db id (decidedOutcome db id)) : Repeats db := by
  constructor
  · intro extractionId extraction decision hextraction hdecision houtcome _ _ _
    have hid := Database.extraction?_id hextraction
    subst hid
    have hrows := hsettled extraction.id
    obtain ⟨stored, hstored⟩ := replay_returns extraction decision.outcome
      hrows.reviewTasksFor_le_one hrows.auditSamplesFor_le_one
      (fun _ => (hregistered extraction.id).conflictsNaming_le_one) hrows.alertsListing_le_one
    apply Exists.intro stored
    rw [route_of_decided hextraction houtcome (hrows.eq_singleton hdecision), if_pos rfl,
      Fallible.bind_returned hstored]
    rfl
  · intro extractionId extraction decision outcome hextraction hdecision houtcome hother _ _ _
    rw [route_of_decided hextraction houtcome ((hsettled extractionId).eq_singleton hdecision),
      if_neg hother.symm]

end Settled

/-- Each decided extraction has one decision record, the effect of its outcome
and no other, and one audit entry; repeats change nothing. -/
structure ExactlyOnce (db : Database) : Prop where
  atMostOne : ∀ id, (decisionsFor db id).length ≤ 1
  settled : ∀ id, Settled db id (decidedOutcome db id)
  registered : ∀ id, Registered db id (decidedOutcome db id)
  audited : ∀ id, Audited db id (decidedOutcome db id)
  repeats : Repeats db

/-- Nothing has been decided yet. -/
structure Undecided (db : Database) : Prop where
  decisions : db.decisions = []
  reviewTasks : db.reviewTasks = []
  auditSamples : db.auditSamples = []
  conflicts : db.conflicts = []
  operationalAlerts : db.operationalAlerts = []
  entries : ∀ id, routedEntries db id = []

theorem Undecided.decidedOutcome {db : Database} (h : Undecided db) (id : Text) :
    decidedOutcome db id = none := by
  simp [Decision.decidedOutcome, decisionsFor, h.decisions]

theorem Undecided.settled {db : Database} (h : Undecided db) (id : Text) :
    Settled db id none := by
  constructor
  · simp [decisionsFor, h.decisions]
  · simp [reviewTasksFor, h.reviewTasks, taskStreams]
  · simp [auditSamplesFor, h.auditSamples]
  · simp [alertsListing, h.operationalAlerts]

theorem Undecided.registered {db : Database} (h : Undecided db) (id : Text) :
    Registered db id none := by
  simp [Registered, conflictsNaming, h.conflicts]

structure Sound (db : Database) : Prop where
  alertKeys : AlertKeys db
  settled : ∀ id, Settled db id (decidedOutcome db id)

theorem Undecided.sound {db : Database} (h : Undecided db) : Sound db := by
  constructor
  · rw [AlertKeys, h.operationalAlerts]
    exact List.nodup_nil
  · intro id
    rw [h.decidedOutcome id]
    exact h.settled id

theorem Decided.sound {db db' : Database} {extraction : Extraction} {outcome : RoutingOutcome}
    (h : Decided db extraction outcome db') (hs : Sound db) : Sound db' := by
  obtain ⟨mid, decision, heffect, -, -, htables⟩ := h.tables
  refine ⟨?_, h.settled hs.alertKeys hs.settled⟩
  have hkeys := heffect.alertKeys hs.alertKeys
  rw [htables]
  exact hkeys

theorem Sound.step {db db' : Database} {a : Step} (h : Sound db)
    (hstep : Decision.step db a = some db') : Sound db' := by
  rcases step_cases hstep with ⟨rows, rfl, -⟩ | ⟨extraction, outcome, -, hdecided⟩
  · exact ⟨h.alertKeys, fun id => ⟨(h.settled id).decisions, (h.settled id).tasks,
      (h.settled id).samples, (h.settled id).alerts⟩⟩
  · exact hdecided.sound h

theorem registered_step {db db' : Database} {a : Step}
    (h : ∀ id, Registered db id (decidedOutcome db id)) (hstep : step db a = some db') (id : Text) :
    Registered db' id (decidedOutcome db' id) := by
  rcases step_cases hstep with ⟨rows, rfl, -⟩ | ⟨extraction, outcome, -, hdecided⟩
  · exact h id
  · exact hdecided.registered h id

theorem audited_step {db db' : Database} {a : Step}
    (h : ∀ id, Audited db id (decidedOutcome db id)) (hstep : step db a = some db') (id : Text) :
    Audited db' id (decidedOutcome db' id) := by
  rcases step_cases hstep with ⟨rows, rfl, -⟩ | ⟨extraction, outcome, -, hdecided⟩
  · exact h id
  · exact hdecided.audited h id

theorem exactly_once {db : Database} (h : Undecided db) (steps : List Step) :
    Runs.Throughout step ExactlyOnce db steps := by
  have hrun : Runs.Throughout step (fun db => Sound db ∧
      (∀ id, Registered db id (decidedOutcome db id)) ∧
      ∀ id, Audited db id (decidedOutcome db id)) db steps := by
    apply Runs.throughout_of_preserved
    · refine ⟨h.sound, fun id => ?_, fun id => ?_⟩
      · rw [h.decidedOutcome id]
        exact h.registered id
      · rw [h.decidedOutcome id, Audited, h.entries id]
        rfl
    · intro db a db' hdb hstep
      exact ⟨hdb.1.step hstep, registered_step hdb.2.1 hstep, audited_step hdb.2.2 hstep⟩
  apply hrun.imp
  intro db hdb
  exact ⟨fun id => (hdb.1.settled id).decisionsFor_le_one, hdb.1.settled, hdb.2.1, hdb.2.2,
    repeats_of_settled hdb.1.settled hdb.2.1⟩

theorem undecided_empty : Undecided {} := ⟨rfl, rfl, rfl, rfl, rfl, fun _ => rfl⟩

def sampleConflict : Extraction where
  id := "e1".toList
  pageId := "p1".toList
  fieldName := "area".toList
  rawValue := "2.5".toList
  routingOutcome := some .conflict

def sampleStamps : RouteStamps where
  cutoffFrom := newYear 1
  effect := ⟨"c1".toList, newYear 1⟩
  auditSampleId := "s1".toList
  decision := ⟨"d1".toList, newYear 1⟩
  routedEntry := ⟨"a1".toList, newYear 1⟩
  processedEntry := ⟨"a2".toList, newYear 1⟩

def redeliveries : List Step :=
  [.insertExtraction sampleConflict, .route sampleConflict.id none none sampleStamps,
    .route sampleConflict.id none none sampleStamps,
    .setRoutingOutcome sampleConflict.id (some .review),
    .route sampleConflict.id none none sampleStamps]

theorem exactly_once_redeliveries : Runs.Throughout step ExactlyOnce {} redeliveries :=
  exactly_once undecided_empty redeliveries

example : (Runs.run step {} redeliveries).map (fun db => (db.decisions.length,
    db.conflicts.length, db.reviewTasks.length, db.audit.rows.length)) = some (1, 1, 0, 2) := by
  decide +kernel

end LandRecords.Decision
