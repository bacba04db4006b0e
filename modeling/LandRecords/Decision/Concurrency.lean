import LandRecords.Base.ReadCommitted
import LandRecords.Decision.ExactlyOnce

/-! Concurrent deliveries. A worker looks for the alert of the cluster, and writes the
whole list of its extractions back or opens a new alert; nothing is locked between. -/
namespace LandRecords.Decision

open Backend Datetime Text ReadCommitted

/-- The arguments of `route` and the ids it is going to generate. -/
structure Delivery where
  extractionId : Text
  noveltyClusterId : Option Text := none
  envelopeId : Option Text := none
  effectId : Text
  auditSampleId : Text := []
  decisionId : Text

/-- What a delivery has done to the alerts. A new alert comes with the ids of the
alerts there were when it was looked for. -/
inductive AlertEffect
  | none
  | listed
  | folded (alert : OperationalAlert)
  | opened (alert : OperationalAlert) (seen : List Text)

inductive Phase
  | received
  | loaded (extraction : Extraction) (outcome : RoutingOutcome)
  | replaying (extraction : Extraction) (outcome : RoutingOutcome)
  | replayed
  | undecided (extraction : Extraction) (outcome : RoutingOutcome)
  | taskAdded (extraction : Extraction)
  | found (extraction : Extraction) (alert : OperationalAlert)
  | notFound (extraction : Extraction) (seen : List Text)
  | effected (extraction : Extraction) (outcome : RoutingOutcome) (effect : AlertEffect)
  | decided (extraction : Extraction) (outcome : RoutingOutcome) (effect : AlertEffect)
      (decision : DecisionRecord)

structure Locals where
  delivery : Delivery
  phase : Phase

inductive Write
  | addReviewTask (task : ReviewTask)
  | addAuditSample (sample : AuditSample)
  | addConflict (conflict : Conflict)
  | addAlert (alert : OperationalAlert)
  | writeBack (alertId : Text) (extractionIds : List Text)
  | addDecision (decision : DecisionRecord)

inductive RowKey
  | reviewTask (id : Text)
  | auditSample (id : Text)
  | conflict (id : Text)
  | operationalAlert (id : Text)
  | decisionRecord (id : Text)
  | decisionOf (extractionId : Text)
deriving DecidableEq

def Write.keys : Write → List RowKey
  | .addReviewTask task => [.reviewTask task.id]
  | .addAuditSample sample => [.auditSample sample.id]
  | .addConflict conflict => [.conflict conflict.id]
  | .addAlert alert => [.operationalAlert alert.id]
  | .writeBack alertId _ => [.operationalAlert alertId]
  | .addDecision decision => [.decisionRecord decision.id, .decisionOf decision.extractionId]

def Write.apply : Write → Database → Database
  | .addReviewTask task, db => { db with reviewTasks := db.reviewTasks ++ [task] }
  | .addAuditSample sample, db => { db with auditSamples := db.auditSamples ++ [sample] }
  | .addConflict conflict, db => withConflict conflict db
  | .addAlert alert, db => { db with operationalAlerts := db.operationalAlerts ++ [alert] }
  | .writeBack alertId extractionIds, db => Decision.writeBack alertId extractionIds db
  | .addDecision decision, db => withDecision decision db

def Write.violates (db : Database) : Write → Bool
  | .addReviewTask task => task.id ∈ db.reviewTasks.map ReviewTask.id
  | .addAuditSample sample => sample.id ∈ db.auditSamples.map AuditSample.id
  | .addConflict conflict => conflict.id ∈ db.conflicts.map Conflict.id
  | .addAlert alert => alert.id ∈ db.operationalAlerts.map OperationalAlert.id
  | .writeBack _ _ => false
  | .addDecision decision => decision.id ∈ db.decisions.map DecisionRecord.id ∨
      decision.extractionId ∈ db.decisions.map DecisionRecord.extractionId

def effectStatement (delivery : Delivery) (extraction : Extraction) (now : Instant)
    (db : Database) : RoutingOutcome → Statement Phase Write
  | .autoAccept => .next (.effected extraction .autoAccept .none) none
  | .auditSample => .next (.taskAdded extraction)
      (some (.addReviewTask (openReviewTask ⟨delivery.effectId, now⟩ extraction .audit)))
  | .review => .next (.effected extraction .review .none)
      (some (.addReviewTask (openReviewTask ⟨delivery.effectId, now⟩ extraction .routed)))
  | .conflict => .next (.effected extraction .conflict .none)
      (some (.addConflict (conflictPlaceholder extraction ⟨delivery.effectId, now⟩)))
  | .outsideCalibratedRegime =>
      match findAlert db.operationalAlerts
          (clusterKeyOr delivery.noveltyClusterId extraction) now with
      | some alert => .next (.found extraction alert) none
      | none => .next (.notFound extraction (db.operationalAlerts.map OperationalAlert.id)) none

/-- `route`, statement by statement. -/
def routeStatement (delivery : Delivery) (now : Instant) (db : Database) :
    Phase → Statement Phase Write
  | .received =>
      match db.extraction? delivery.extractionId with
      | none => .fail
      | some extraction =>
          match extraction.routingOutcome with
          | none => .fail
          | some outcome => .next (.loaded extraction outcome) none
  | .loaded extraction outcome =>
      match (scalarOneOrNone (fun db => decisionsFor db delivery.extractionId) db).1 with
      | .returned (some existing) =>
          if existing.outcome ≠ outcome then .fail
          else .next (.replaying extraction outcome) none
      | .returned none => .next (.undecided extraction outcome) none
      | _ => .fail
  | .replaying extraction outcome =>
      match (replay extraction outcome db).1 with
      | .returned _ => .next .replayed none
      | _ => .fail
  | .undecided extraction outcome => effectStatement delivery extraction now db outcome
  | .taskAdded extraction => .next (.effected extraction .auditSample .none)
      (some (.addAuditSample {
        id := delivery.auditSampleId
        extractionId := extraction.id
        reviewTaskId := some delivery.effectId
        modelConfidence := extraction.calibratedConfidence }))
  | .found extraction alert =>
      if extraction.id ∉ alert.extractionIds then
        .next (.effected extraction .outsideCalibratedRegime (.folded alert))
          (some (.writeBack alert.id (alert.extractionIds ++ [extraction.id])))
      else .next (.effected extraction .outsideCalibratedRegime .listed) none
  | .notFound extraction seen =>
      let alert := newAlert ⟨delivery.effectId, now⟩
        (clusterKeyOr delivery.noveltyClusterId extraction) extraction.id
      .next (.effected extraction .outsideCalibratedRegime (.opened alert seen))
        (some (.addAlert alert))
  | .effected extraction outcome effect =>
      let decision : DecisionRecord := {
        id := delivery.decisionId
        extractionId := extraction.id
        outcome := outcome
        envelopeId := delivery.envelopeId
        decidedAt := now }
      .next (.decided extraction outcome effect decision) (some (.addDecision decision))
  | .replayed | .decided _ _ _ _ => .done

def Locals.statement (locals : Locals) (now : Instant) (db : Database) : Statement Locals Write :=
  match routeStatement locals.delivery now db locals.phase with
  | .done => .done
  | .fail => .fail
  | .next phase write => .next { locals with phase := phase } write

def deliveries : System Database Delivery Locals Write Instant where
  init delivery := ⟨delivery, .received⟩
  statement := Locals.statement
  apply := Write.apply
  clash write held := write.keys.any fun key => key ∈ held.keys
  violates write db := write.violates db

abbrev Commits := Shared Database Locals Instant

def Near (a b : OperationalAlert) : Prop :=
  a.openedAt.val ≤ b.openedAt.val + noveltyClusterAlertDedupWindow ∧
    b.openedAt.val ≤ a.openedAt.val + noveltyClusterAlertDedupWindow

instance (a b : OperationalAlert) : Decidable (Near a b) := inferInstanceAs (Decidable (_ ∧ _))

/-- Every novel extraction that is decided is listed in an alert, and no two alerts
of a cluster were opened within the window. -/
structure Alerted (db : Database) : Prop where
  listed : ∀ decision ∈ db.decisions, decision.outcome = .outsideCalibratedRegime →
    ∃ alert ∈ db.operationalAlerts, decision.extractionId ∈ alert.extractionIds
  apart : db.operationalAlerts.Pairwise fun a b => a.clusterKey = b.clusterKey → ¬ Near a b

def AlertEffect.Unraced (db : Database) : AlertEffect → Prop
  | .folded alert => alert ∈ db.operationalAlerts
  | .opened alert seen => ∀ other ∈ db.operationalAlerts, other.id ∉ seen →
      other.clusterKey = alert.clusterKey → ¬ Near other alert
  | _ => True

def Unraced (v : Commits) (txn : Txn Locals Write) : Prop :=
  match txn.locals.phase with
  | .decided _ _ effect _ => effect.Unraced v.committed
  | _ => True

def Write.essential : Write → Bool
  | .addAlert _ | .writeBack _ _ | .addDecision _ => true
  | _ => false

def AlertEffect.writes (extractionId : Text) : AlertEffect → List Write
  | .folded alert => [.writeBack alert.id (alert.extractionIds ++ [extractionId])]
  | .opened alert _ => [.addAlert alert]
  | _ => []

def Phase.writes : Phase → List Write
  | .effected extraction _ effect => effect.writes extraction.id
  | .decided extraction _ effect decision => effect.writes extraction.id ++ [.addDecision decision]
  | _ => []

def Reads (db : Database) (alert : OperationalAlert) : Prop :=
  ∃ row ∈ db.operationalAlerts, row.id = alert.id ∧ row.kind = alert.kind ∧
    row.clusterKey = alert.clusterKey ∧ row.openedAt = alert.openedAt ∧
    alert.extractionIds <+: row.extractionIds

def Passed (db : Database) (seen : List Text) (clusterKey : Text) (now : Instant) : Prop :=
  seen ⊆ db.operationalAlerts.map OperationalAlert.id ∧
    ∀ row ∈ db.operationalAlerts, row.id ∈ seen → row.clusterKey = clusterKey →
      row.openedAt.val + noveltyClusterAlertDedupWindow < now.val

def AlertEffect.Holds (db : Database) (extractionId : Text) (outcome : RoutingOutcome) :
    AlertEffect → Prop
  | .none => outcome ≠ .outsideCalibratedRegime
  | .listed => extractionId ∈ db.decisions.map DecisionRecord.extractionId
  | .folded alert => outcome = .outsideCalibratedRegime ∧ extractionId ∉ alert.extractionIds ∧
      Reads db alert
  | .opened alert seen => outcome = .outsideCalibratedRegime ∧ alert.kind = outsideKind ∧
      alert.extractionIds = [extractionId] ∧
      alert.id ∉ db.operationalAlerts.map OperationalAlert.id ∧
      Passed db seen alert.clusterKey alert.openedAt

def Phase.Holds (db : Database) (now : Instant) (delivery : Delivery) : Phase → Prop
  | .found _ alert => Reads db alert
  | .notFound extraction seen =>
      Passed db seen (clusterKeyOr delivery.noveltyClusterId extraction) now
  | .effected extraction outcome effect => effect.Holds db extraction.id outcome
  | .decided extraction outcome effect decision => effect.Holds db extraction.id outcome ∧
      decision.extractionId = extraction.id ∧ decision.outcome = outcome ∧
      extraction.id ∉ db.decisions.map DecisionRecord.extractionId
  | _ => True

structure Progress (v : Commits) (txn : Txn Locals Write) : Prop where
  writes : ∃ others, (∀ write ∈ others, write.essential = false) ∧
    txn.writes = others ++ txn.locals.phase.writes
  holds : txn.locals.phase.Holds v.committed v.now txn.locals.delivery

structure Kept (db : Database) : Prop extends Alerted db where
  alertKeys : AlertKeys db
  kinds : ∀ alert ∈ db.operationalAlerts, alert.kind = outsideKind
  listedOnce : (db.operationalAlerts.flatMap OperationalAlert.extractionIds).Nodup
  decided : ∀ alert ∈ db.operationalAlerts, ∀ id ∈ alert.extractionIds,
    ∃ decision ∈ db.decisions, decision.extractionId = id ∧
      decision.outcome = .outsideCalibratedRegime

section Statements

theorem apply_others {others : List Write} (h : ∀ write ∈ others, write.essential = false)
    (db : Database) :
    (others.foldl (fun db write => write.apply db) db).operationalAlerts = db.operationalAlerts ∧
      (others.foldl (fun db write => write.apply db) db).decisions = db.decisions := by
  induction others generalizing db with
  | nil => exact ⟨rfl, rfl⟩
  | cons write others ih =>
    obtain ⟨halerts, hdecisions⟩ := ih (fun other hother => h other (List.mem_cons_of_mem _ hother))
      (write.apply db)
    have hwrite := h write List.mem_cons_self
    rw [List.foldl_cons, halerts, hdecisions]
    cases write with
    | addAlert alert => cases hwrite
    | writeBack alertId extractionIds => cases hwrite
    | addDecision decision => cases hwrite
    | _ => exact ⟨rfl, rfl⟩

def AlertEffect.after (extractionId : Text) :
    AlertEffect → List OperationalAlert → List OperationalAlert
  | .folded alert => setExtractionIds alert.id (alert.extractionIds ++ [extractionId])
  | .opened alert _ => fun alerts => alerts ++ [alert]
  | _ => id

theorem view_undecided {v : Commits} {txn : Txn Locals Write} (h : Progress v txn)
    (hwrites : txn.locals.phase.writes = []) :
    (view deliveries txn v.committed).operationalAlerts = v.committed.operationalAlerts ∧
      (view deliveries txn v.committed).decisions = v.committed.decisions := by
  obtain ⟨others, hothers, htxn⟩ := h.writes
  rw [hwrites, List.append_nil] at htxn
  rw [view, htxn]
  exact apply_others hothers v.committed

theorem view_effected {v : Commits} {txn : Txn Locals Write} (h : Progress v txn)
    {extraction : Extraction} {outcome : RoutingOutcome} {effect : AlertEffect}
    (hphase : txn.locals.phase = .effected extraction outcome effect) :
    (view deliveries txn v.committed).decisions = v.committed.decisions := by
  obtain ⟨others, hothers, htxn⟩ := h.writes
  rw [view, htxn, List.foldl_append, hphase, ← (apply_others hothers v.committed).2]
  cases effect <;> rfl

theorem view_decided {v : Commits} {txn : Txn Locals Write} (h : Progress v txn)
    {extraction : Extraction} {outcome : RoutingOutcome} {effect : AlertEffect}
    {decision : DecisionRecord}
    (hphase : txn.locals.phase = .decided extraction outcome effect decision) :
    (view deliveries txn v.committed).operationalAlerts =
        effect.after extraction.id v.committed.operationalAlerts ∧
      (view deliveries txn v.committed).decisions = v.committed.decisions ++ [decision] := by
  obtain ⟨others, hothers, htxn⟩ := h.writes
  obtain ⟨halerts, hdecisions⟩ := apply_others hothers v.committed
  rw [view, htxn, List.foldl_append, hphase, ← halerts, ← hdecisions]
  cases effect <;> exact ⟨rfl, rfl⟩

theorem Progress.other {v : Commits} {txn : Txn Locals Write} (h : Progress v txn) {phase : Phase}
    {write : Option Write} (hbefore : txn.locals.phase.writes = []) (hafter : phase.writes = [])
    (hwrite : ∀ update ∈ write, update.essential = false)
    (hholds : phase.Holds v.committed v.now txn.locals.delivery) :
    Progress v ⟨⟨txn.locals.delivery, phase⟩, txn.writes ++ write.toList⟩ := by
  obtain ⟨others, hothers, htxn⟩ := h.writes
  refine ⟨⟨others ++ write.toList, fun update hupdate => ?_, ?_⟩, hholds⟩
  · rcases List.mem_append.mp hupdate with hold | hnew
    · exact hothers update hold
    · exact hwrite update (Option.mem_toList.mp hnew)
  · rw [hafter, htxn, hbefore, List.append_nil, List.append_nil]

theorem Progress.read {v : Commits} {txn : Txn Locals Write} (h : Progress v txn) {phase : Phase}
    (hbefore : txn.locals.phase.writes = []) (hafter : phase.writes = [])
    (hholds : phase.Holds v.committed v.now txn.locals.delivery) :
    Progress v ⟨⟨txn.locals.delivery, phase⟩, txn.writes ++ (none : Option Write).toList⟩ :=
  h.other hbefore hafter (fun _ hnone => nomatch hnone) hholds

theorem Progress.essential {v : Commits} {txn : Txn Locals Write} (h : Progress v txn)
    {phase : Phase} {write : Option Write}
    (hwrites : phase.writes = txn.locals.phase.writes ++ write.toList)
    (hholds : phase.Holds v.committed v.now txn.locals.delivery) :
    Progress v ⟨⟨txn.locals.delivery, phase⟩, txn.writes ++ write.toList⟩ := by
  obtain ⟨others, hothers, htxn⟩ := h.writes
  refine ⟨⟨others, hothers, ?_⟩, hholds⟩
  rw [htxn, hwrites, List.append_assoc]

theorem findAlert_none {alerts : List OperationalAlert} {clusterKey : Text} {now : Instant}
    (h : findAlert alerts clusterKey now = none) {alert : OperationalAlert} (halert : alert ∈ alerts)
    (hkind : alert.kind = outsideKind) (hkey : alert.clusterKey = clusterKey) :
    alert.openedAt.val + noveltyClusterAlertDedupWindow < now.val := by
  have hempty := List.filter_eq_nil_iff.mp (latest_eq_none.mp h) alert halert
  simp only [hkind, hkey, true_and, decide_eq_true_eq, not_le] at hempty
  exact hempty

section Reads

variable {delivery : Delivery} {now : Instant} {db : Database} {extraction : Extraction}
variable {outcome : RoutingOutcome} {phase : Phase} {write : Option Write}

theorem routeStatement_received
    (h : routeStatement delivery now db .received = .next phase write) :
    write = none ∧ ∃ extraction outcome, phase = .loaded extraction outcome := by
  simp only [routeStatement] at h
  split at h
  · cases h
  · split at h
    · cases h
    · cases h
      exact ⟨rfl, _, _, rfl⟩

theorem routeStatement_loaded
    (h : routeStatement delivery now db (.loaded extraction outcome) = .next phase write) :
    write = none ∧ (phase = .replaying extraction outcome ∨ phase = .undecided extraction outcome) := by
  simp only [routeStatement] at h
  split at h
  · split at h
    · cases h
    · cases h
      exact ⟨rfl, .inl rfl⟩
  · cases h
    exact ⟨rfl, .inr rfl⟩
  · cases h

theorem routeStatement_replaying
    (h : routeStatement delivery now db (.replaying extraction outcome) = .next phase write) :
    write = none ∧ phase = .replayed := by
  simp only [routeStatement] at h
  split at h
  · cases h
    exact ⟨rfl, rfl⟩
  · cases h

end Reads

theorem Progress.effect {v : Commits} {delivery : Delivery} {extraction : Extraction}
    {outcome : RoutingOutcome} {writes : List Write} (hkept : Kept v.committed)
    (h : Progress v ⟨⟨delivery, .undecided extraction outcome⟩, writes⟩)
    {phase : Phase} {write : Option Write} {db : Database}
    (halerts : db.operationalAlerts = v.committed.operationalAlerts)
    (hnext : effectStatement delivery extraction v.now db outcome = .next phase write) :
    Progress v ⟨⟨delivery, phase⟩, writes ++ write.toList⟩ := by
  cases outcome with
  | autoAccept =>
    cases hnext
    exact h.read rfl rfl nofun
  | auditSample =>
    cases hnext
    exact h.other rfl rfl (fun _ hupdate => by cases hupdate; rfl) trivial
  | review =>
    cases hnext
    exact h.other rfl rfl (fun _ hupdate => by cases hupdate; rfl) nofun
  | conflict =>
    cases hnext
    exact h.other rfl rfl (fun _ hupdate => by cases hupdate; rfl) nofun
  | outsideCalibratedRegime =>
    simp only [effectStatement, halerts] at hnext
    cases hfind : findAlert v.committed.operationalAlerts
        (clusterKeyOr delivery.noveltyClusterId extraction) v.now with
    | some alert =>
      simp only [hfind] at hnext
      cases hnext
      exact h.read rfl rfl ⟨alert, findAlert_mem hfind, rfl, rfl, rfl, rfl, List.prefix_rfl⟩
    | none =>
      simp only [hfind] at hnext
      cases hnext
      refine h.read rfl rfl ⟨List.Subset.refl _, fun row hrow _ hkey => ?_⟩
      exact findAlert_none hfind hrow (hkept.kinds row hrow) hkey

theorem Progress.fold {v : Commits} {delivery : Delivery} {extraction : Extraction}
    {alert : OperationalAlert} {writes : List Write} (hkept : Kept v.committed)
    (h : Progress v ⟨⟨delivery, .found extraction alert⟩, writes⟩)
    {phase : Phase} {write : Option Write} {db : Database}
    (hnext : routeStatement delivery v.now db (.found extraction alert) = .next phase write) :
    Progress v ⟨⟨delivery, phase⟩, writes ++ write.toList⟩ := by
  simp only [routeStatement] at hnext
  by_cases hlisted : extraction.id ∈ alert.extractionIds
  · simp only [hlisted, not_true, if_false] at hnext
    cases hnext
    obtain ⟨row, hrow, -, -, -, -, hinitial⟩ := h.holds
    obtain ⟨decision, hdecision, hid, -⟩ := hkept.decided row hrow extraction.id
      (hinitial.subset hlisted)
    exact h.read rfl rfl (List.mem_map.mpr ⟨decision, hdecision, hid⟩)
  · simp only [hlisted, not_false_eq_true, if_true] at hnext
    cases hnext
    exact h.essential rfl ⟨rfl, hlisted, h.holds⟩

theorem Locals.statement_next {locals locals' : Locals} {now : Instant} {db : Database}
    {write : Option Write} (h : locals.statement now db = .next locals' write) :
    routeStatement locals.delivery now db locals.phase = .next locals'.phase write ∧
      locals' = ⟨locals.delivery, locals'.phase⟩ := by
  unfold Locals.statement at h
  split at h
  · cases h
  · cases h
  · rename_i phase update hroute
    cases h
    exact ⟨hroute, rfl⟩

theorem Progress.next {v : Commits} {txn : Txn Locals Write} (hkept : Kept v.committed)
    (h : Progress v txn)
    {locals : Locals} {write : Option Write}
    (hnext : txn.locals.statement v.now (view deliveries txn v.committed) = .next locals write)
    (hvalid : ∀ update ∈ write, update.violates (view deliveries txn v.committed) = false) :
    Progress v ⟨locals, txn.writes ++ write.toList⟩ := by
  obtain ⟨⟨delivery, phase⟩, writes⟩ := txn
  obtain ⟨hroute, hlocals⟩ := Locals.statement_next hnext
  rw [hlocals]
  cases phase with
  | received =>
    obtain ⟨rfl, extraction, outcome, hphase⟩ := routeStatement_received hroute
    rw [hphase]
    exact h.read rfl rfl trivial
  | loaded extraction outcome =>
    obtain ⟨rfl, hphase | hphase⟩ := routeStatement_loaded hroute
    · rw [hphase]
      exact h.read rfl rfl trivial
    · rw [hphase]
      exact h.read rfl rfl trivial
  | replaying extraction outcome =>
    obtain ⟨rfl, hphase⟩ := routeStatement_replaying hroute
    rw [hphase]
    exact h.read rfl rfl trivial
  | undecided extraction outcome => exact h.effect hkept (view_undecided h rfl).1 hroute
  | taskAdded extraction =>
    cases hnext
    exact h.other rfl rfl (fun _ hupdate => by cases hupdate; rfl) nofun
  | found extraction alert => exact h.fold hkept hroute
  | notFound extraction seen =>
    cases hnext
    have hfresh := hvalid _ rfl
    refine h.essential rfl ⟨rfl, rfl, rfl, ?_, h.holds⟩
    rw [← (view_undecided h rfl).1]
    exact of_decide_eq_false hfresh
  | effected extraction outcome effect =>
    cases hnext
    have hfresh := hvalid _ rfl
    refine h.essential rfl ⟨h.holds, rfl, rfl, ?_⟩
    rw [← view_effected h rfl]
    exact (not_or.mp (of_decide_eq_false hfresh)).2
  | replayed => cases hroute
  | decided extraction outcome effect decision => cases hroute

end Statements

end LandRecords.Decision
