import LandRecords.Decision.Concurrency
import Mathlib

/-! The alerts of concurrent deliveries. A commit keeps every listed extraction
listed unless the alert that it writes has changed since it was read. -/
namespace LandRecords.Decision

open Backend Datetime Text ReadCommitted

structure Grown (db db' : Database) : Prop where
  decisions : db.decisions ⊆ db'.decisions
  kept : ∀ alert ∈ db.operationalAlerts, Reads db' alert
  back : ∀ row ∈ db'.operationalAlerts, row.id ∈ db.operationalAlerts.map OperationalAlert.id →
    ∃ alert ∈ db.operationalAlerts, alert.id = row.id ∧ alert.clusterKey = row.clusterKey ∧
      alert.openedAt = row.openedAt

section Growth

variable {db db' : Database}

theorem Reads.grown {alert : OperationalAlert} (h : Reads db alert) (hgrown : Grown db db') :
    Reads db' alert := by
  obtain ⟨row, hrow, hid, hkind, hkey, hopened, hinitial⟩ := h
  obtain ⟨later, hlater, hid', hkind', hkey', hopened', hinitial'⟩ := hgrown.kept row hrow
  exact ⟨later, hlater, hid'.trans hid, hkind'.trans hkind, hkey'.trans hkey,
    hopened'.trans hopened, hinitial.trans hinitial'⟩

theorem Grown.ids (h : Grown db db') : db.operationalAlerts.map OperationalAlert.id ⊆
    db'.operationalAlerts.map OperationalAlert.id := by
  intro id hid
  obtain ⟨alert, halert, rfl⟩ := List.mem_map.mp hid
  obtain ⟨row, hrow, hsame, -⟩ := h.kept alert halert
  exact List.mem_map.mpr ⟨row, hrow, hsame⟩

theorem Grown.decidedIds (h : Grown db db') : db.decisions.map DecisionRecord.extractionId ⊆
    db'.decisions.map DecisionRecord.extractionId := List.map_subset _ h.decisions

theorem Passed.grown {seen : List Text} {clusterKey : Text} {now : Instant}
    (h : Passed db seen clusterKey now) (hgrown : Grown db db') :
    Passed db' seen clusterKey now := by
  refine ⟨fun id hid => hgrown.ids (h.1 hid), fun row hrow hseen hkey => ?_⟩
  obtain ⟨alert, halert, hid, hsameKey, hopened⟩ := hgrown.back row hrow (h.1 hseen)
  rw [← hopened]
  exact h.2 alert halert (hid ▸ hseen) (hsameKey.trans hkey)

theorem Passed.later {seen : List Text} {clusterKey : Text} {now later : Instant}
    (h : Passed db seen clusterKey now) (hle : now ≤ later) : Passed db seen clusterKey later :=
  ⟨h.1, fun row hrow hseen hkey => lt_of_lt_of_le (h.2 row hrow hseen hkey) hle⟩

theorem grown_same (hdecisions : db.decisions ⊆ db'.decisions)
    (halerts : db'.operationalAlerts = db.operationalAlerts) : Grown db db' := by
  refine ⟨hdecisions, fun alert halert => ?_, fun row hrow _ => ?_⟩
  · exact ⟨alert, halerts ▸ halert, rfl, rfl, rfl, rfl, List.prefix_rfl⟩
  · exact ⟨row, halerts ▸ hrow, rfl, rfl, rfl⟩

theorem grown_folded (hkeys : AlertKeys db) (hdecisions : db.decisions ⊆ db'.decisions)
    {alert : OperationalAlert} (halert : alert ∈ db.operationalAlerts) {added : List Text}
    (halerts : db'.operationalAlerts =
      setExtractionIds alert.id (alert.extractionIds ++ added) db.operationalAlerts) :
    Grown db db' := by
  refine ⟨hdecisions, fun row hrow => ?_, fun later hlater _ => ?_⟩
  · rw [Reads, halerts]
    by_cases hid : row.id = alert.id
    · obtain rfl := List.inj_on_of_nodup_map hkeys hrow halert hid
      exact ⟨_, List.mem_map.mpr ⟨row, hrow, if_pos rfl⟩, rfl, rfl, rfl, rfl,
        List.prefix_append _ _⟩
    · exact ⟨row, List.mem_map.mpr ⟨row, hrow, if_neg hid⟩, rfl, rfl, rfl, rfl, List.prefix_rfl⟩
  · rw [halerts] at hlater
    obtain ⟨row, hrow, rfl⟩ := List.mem_map.mp hlater
    refine ⟨row, hrow, ?_⟩
    split <;> exact ⟨rfl, rfl, rfl⟩

theorem grown_opened (hdecisions : db.decisions ⊆ db'.decisions) {alert : OperationalAlert}
    (hfresh : alert.id ∉ db.operationalAlerts.map OperationalAlert.id)
    (halerts : db'.operationalAlerts = db.operationalAlerts ++ [alert]) : Grown db db' := by
  refine ⟨hdecisions, fun row hrow => ?_, fun row hrow hold => ?_⟩
  · refine ⟨row, ?_, rfl, rfl, rfl, rfl, List.prefix_rfl⟩
    rw [halerts]
    exact List.mem_append_left _ hrow
  · rw [halerts] at hrow
    rcases List.mem_append.mp hrow with hrow | hnew
    · exact ⟨row, hrow, rfl, rfl, rfl⟩
    · rw [List.mem_singleton.mp hnew] at hold
      exact absurd hold hfresh

end Growth

section Commits

variable {db db' : Database} {extractionId : Text} {outcome : RoutingOutcome}
  {effect : AlertEffect} {decision : DecisionRecord}

/-- A commit whose alert nobody has touched extends what there was. -/
theorem Kept.grown (h : Kept db) (hholds : effect.Holds db extractionId outcome)
    (hunraced : effect.Unraced db)
    (halerts : db'.operationalAlerts = effect.after extractionId db.operationalAlerts)
    (hdecisions : db'.decisions = db.decisions ++ [decision]) : Grown db db' := by
  have hsubset : db.decisions ⊆ db'.decisions := by
    rw [hdecisions]
    exact List.subset_append_left _ _
  cases effect with
  | none => exact grown_same hsubset halerts
  | listed => exact grown_same hsubset halerts
  | folded alert => exact grown_folded h.alertKeys hsubset hunraced halerts
  | opened alert seen => exact grown_opened hsubset hholds.2.2.2.1 halerts

theorem Kept.mentions (h : Kept db) (hholds : effect.Holds db extractionId outcome)
    (hunraced : effect.Unraced db)
    (hundecided : extractionId ∉ db.decisions.map DecisionRecord.extractionId) :
    ((effect.after extractionId db.operationalAlerts).flatMap OperationalAlert.extractionIds).Perm
      ((db.operationalAlerts.flatMap OperationalAlert.extractionIds) ++
        if outcome = .outsideCalibratedRegime then [extractionId] else []) := by
  cases effect with
  | none =>
    rw [if_neg hholds, List.append_nil]
    exact List.Perm.refl _
  | listed => exact absurd hholds hundecided
  | folded alert =>
    obtain ⟨before, after, hsplit, hwritten⟩ := setExtractionIds_split h.alertKeys hunraced
    rw [if_pos hholds.1, AlertEffect.after, hwritten, hsplit]
    simp only [List.flatMap_append, List.flatMap_cons, List.append_assoc]
    apply List.Perm.append_left
    apply List.Perm.append_left
    exact List.perm_append_comm
  | opened alert seen =>
    obtain ⟨houtcome, -, hids, -⟩ := hholds
    rw [if_pos houtcome, AlertEffect.after]
    simp only [List.flatMap_append, List.flatMap_singleton, hids]
    exact List.Perm.refl _

theorem mem_mentions {alerts : List OperationalAlert} {id : Text} :
    id ∈ alerts.flatMap OperationalAlert.extractionIds ↔
      ∃ alert ∈ alerts, id ∈ alert.extractionIds := List.mem_flatMap

theorem setExtractionIds_columns (alertId : Text) (ids : List Text) (alert : OperationalAlert) :
    let written := if alert.id = alertId then { alert with extractionIds := ids } else alert
    written.kind = alert.kind ∧ written.clusterKey = alert.clusterKey ∧
      written.openedAt = alert.openedAt := by
  dsimp only
  split <;> exact ⟨rfl, rfl, rfl⟩

theorem Kept.apart_after (h : Kept db) (hholds : effect.Holds db extractionId outcome)
    (hunraced : effect.Unraced db) :
    (effect.after extractionId db.operationalAlerts).Pairwise
      fun a b => a.clusterKey = b.clusterKey → ¬ Near a b := by
  cases effect with
  | none => exact h.apart
  | listed => exact h.apart
  | folded alert =>
    rw [AlertEffect.after, setExtractionIds, List.pairwise_map]
    apply h.apart.imp
    intro a b hapart
    obtain ⟨-, hkeyA, hopenedA⟩ :=
      setExtractionIds_columns alert.id (alert.extractionIds ++ [extractionId]) a
    obtain ⟨-, hkeyB, hopenedB⟩ :=
      setExtractionIds_columns alert.id (alert.extractionIds ++ [extractionId]) b
    rw [hkeyA, hkeyB, Near, hopenedA, hopenedB]
    exact hapart
  | opened alert seen =>
    obtain ⟨-, -, -, -, hpassed⟩ := hholds
    rw [AlertEffect.after, List.pairwise_append]
    refine ⟨h.apart, List.pairwise_singleton _ _, fun row hrow new hnew => ?_⟩
    rw [List.mem_singleton.mp hnew]
    intro hkey hnear
    by_cases hseen : row.id ∈ seen
    · exact absurd hnear.2 (Nat.not_le_of_lt (hpassed.2 row hrow hseen hkey))
    · exact hunraced row hrow hseen hkey hnear

theorem Kept.keys_after (h : Kept db) (hholds : effect.Holds db extractionId outcome) :
    ((effect.after extractionId db.operationalAlerts).map OperationalAlert.id).Nodup ∧
      ∀ alert ∈ effect.after extractionId db.operationalAlerts, alert.kind = outsideKind := by
  cases effect with
  | none => exact ⟨h.alertKeys, h.kinds⟩
  | listed => exact ⟨h.alertKeys, h.kinds⟩
  | folded alert =>
    constructor
    · rw [AlertEffect.after, map_id_setExtractionIds]
      exact h.alertKeys
    · intro written hwritten
      obtain ⟨row, hrow, rfl⟩ := List.mem_map.mp hwritten
      exact (setExtractionIds_columns _ _ row).1.trans (h.kinds row hrow)
  | opened alert seen =>
    obtain ⟨-, hkind, -, hfresh, -⟩ := hholds
    constructor
    · exact Rows.nodup_append_row h.alertKeys hfresh
    · intro row hrow
      rcases List.mem_append.mp hrow with hold | hnew
      · exact h.kinds row hold
      · rw [List.mem_singleton.mp hnew]
        exact hkind

theorem Kept.commit (h : Kept db) (hholds : effect.Holds db extractionId outcome)
    (hunraced : effect.Unraced db) (hid : decision.extractionId = extractionId)
    (houtcome : decision.outcome = outcome)
    (hundecided : extractionId ∉ db.decisions.map DecisionRecord.extractionId)
    (halerts : db'.operationalAlerts = effect.after extractionId db.operationalAlerts)
    (hdecisions : db'.decisions = db.decisions ++ [decision]) : Kept db' := by
  have hmentions := h.mentions hholds hunraced hundecided
  rw [← halerts] at hmentions
  have hunlisted : extractionId ∉ db.operationalAlerts.flatMap OperationalAlert.extractionIds := by
    intro hlisted
    obtain ⟨alert, halert, hmem⟩ := mem_mentions.mp hlisted
    obtain ⟨old, hold, hsame, -⟩ := h.decided alert halert extractionId hmem
    exact hundecided (List.mem_map.mpr ⟨old, hold, hsame⟩)
  constructor
  · constructor
    · intro other hother hnovel
      rw [← mem_mentions, hmentions.mem_iff, List.mem_append]
      rw [hdecisions] at hother
      rcases List.mem_append.mp hother with hold | hnew
      · exact .inl (mem_mentions.mpr (h.listed other hold hnovel))
      · obtain rfl := List.mem_singleton.mp hnew
        rw [if_pos (houtcome.symm.trans hnovel), hid]
        exact .inr (List.mem_singleton_self _)
    · rw [halerts]
      exact h.apart_after hholds hunraced
  · rw [AlertKeys, halerts]
    exact (h.keys_after hholds).1
  · rw [halerts]
    exact (h.keys_after hholds).2
  · rw [hmentions.nodup_iff]
    apply List.Nodup.append h.listedOnce
    · split
      · exact List.nodup_singleton _
      · exact List.nodup_nil
    · split
      · exact List.disjoint_singleton.mpr hunlisted
      · exact List.disjoint_nil_right _
  · intro alert halert id hmem
    have hlisted := hmentions.mem_iff.mp (mem_mentions.mpr ⟨alert, halert, hmem⟩)
    rw [hdecisions]
    rcases List.mem_append.mp hlisted with hold | hnew
    · obtain ⟨before, hbefore, hmemBefore⟩ := mem_mentions.mp hold
      obtain ⟨old, hdecided, hsame⟩ := h.decided before hbefore id hmemBefore
      exact ⟨old, List.mem_append_left _ hdecided, hsame⟩
    · split at hnew
      · rename_i hnovel
        rw [List.mem_singleton.mp hnew]
        exact ⟨decision, List.mem_append_right _ (List.mem_singleton_self _), hid,
          houtcome.trans hnovel⟩
      · cases hnew

/-- A commit whose alert somebody has touched breaks what there was. -/
theorem Kept.unraced_of_alerted (h : Kept db) (hholds : effect.Holds db extractionId outcome)
    (hundecided : extractionId ∉ db.decisions.map DecisionRecord.extractionId)
    (halerts : db'.operationalAlerts = effect.after extractionId db.operationalAlerts)
    (hdecisions : db'.decisions = db.decisions ++ [decision]) (hafter : Alerted db') :
    effect.Unraced db := by
  cases effect with
  | none => trivial
  | listed => trivial
  | folded alert =>
    obtain ⟨-, hunlisted, row, hrow, hid, hkind, hkey, hopened, added, hadded⟩ := hholds
    by_contra htouched
    have hnew : added ≠ [] := by
      rintro rfl
      apply htouched
      have hsame : row = alert := by
        obtain ⟨id, kind, clusterKey, extractionIds, openedAt⟩ := row
        obtain ⟨id', kind', clusterKey', extractionIds', openedAt'⟩ := alert
        rw [List.append_nil] at hadded
        dsimp only at hid hkind hkey hopened hadded
        rw [hid, hkind, hkey, hopened, hadded]
      exact hsame ▸ hrow
    obtain ⟨lost, hlost⟩ := List.exists_mem_of_ne_nil added hnew
    have hmem : lost ∈ row.extractionIds := by
      rw [← hadded]
      exact List.mem_append_right _ hlost
    obtain ⟨old, hold, holdId, hnovel⟩ := h.decided row hrow lost hmem
    obtain ⟨written, hwritten, hlisted⟩ := hafter.listed old
      (hdecisions ▸ List.mem_append_left _ hold) hnovel
    rw [halerts] at hwritten
    obtain ⟨before, hbefore, rfl⟩ := List.mem_map.mp hwritten
    rw [holdId] at hlisted
    by_cases hown : before.id = alert.id
    · rw [if_pos hown] at hlisted
      rcases List.mem_append.mp hlisted with hread | hself
      · have hnodup := (List.nodup_flatMap.mp h.listedOnce).1 row hrow
        rw [← hadded] at hnodup
        exact List.disjoint_of_nodup_append hnodup hread hlost
      · rw [← List.mem_singleton.mp hself, ← holdId] at hundecided
        exact hundecided (List.mem_map_of_mem hold)
    · rw [if_neg hown] at hlisted
      have hother : before ≠ row := by
        rintro rfl
        exact hown hid
      have hsymm : Std.Symm (Function.onFun List.Disjoint OperationalAlert.extractionIds) :=
        ⟨fun _ _ hdisjoint _ hleft hright => hdisjoint hright hleft⟩
      have hdisjoint := (List.nodup_flatMap.mp h.listedOnce).2.forall hbefore hrow hother
      exact hdisjoint hlisted hmem
  | opened alert seen =>
    intro other hother _ hkey
    have hapart := hafter.apart
    rw [halerts, AlertEffect.after, List.pairwise_append] at hapart
    exact hapart.2.2 other hother alert (List.mem_singleton_self _) hkey

end Commits

section Transactions

variable {v : Commits} {txn : Txn Locals Write}

theorem statement_done {locals : Locals} {now : Instant} {db : Database}
    (h : locals.statement now db = .done) : locals.phase = .replayed ∨
      ∃ extraction outcome effect decision,
        locals.phase = .decided extraction outcome effect decision := by
  obtain ⟨delivery, phase⟩ := locals
  have hroute : routeStatement delivery now db phase = .done := by
    unfold Locals.statement at h
    split at h
    · assumption
    · cases h
    · cases h
  cases phase with
  | received =>
    simp only [routeStatement] at hroute
    split at hroute
    · cases hroute
    · split at hroute <;> cases hroute
  | loaded extraction outcome =>
    simp only [routeStatement] at hroute
    split at hroute
    · split at hroute <;> cases hroute
    · cases hroute
    · cases hroute
  | replaying extraction outcome =>
    simp only [routeStatement] at hroute
    split at hroute <;> cases hroute
  | undecided extraction outcome =>
    cases outcome with
    | outsideCalibratedRegime =>
      simp only [routeStatement, effectStatement] at hroute
      split at hroute <;> cases hroute
    | _ => cases hroute
  | found extraction alert =>
    simp only [routeStatement] at hroute
    split at hroute <;> cases hroute
  | replayed => exact .inl rfl
  | decided extraction outcome effect decision => exact .inr ⟨_, _, _, _, rfl⟩
  | _ => cases hroute

theorem Kept.congr {db db' : Database} (h : Kept db)
    (halerts : db'.operationalAlerts = db.operationalAlerts)
    (hdecisions : db'.decisions = db.decisions) : Kept db' where
  listed := by
    rw [halerts, hdecisions]
    exact h.listed
  apart := by
    rw [halerts]
    exact h.apart
  alertKeys := by
    rw [AlertKeys, halerts]
    exact h.alertKeys
  kinds := by
    rw [halerts]
    exact h.kinds
  listedOnce := by
    rw [halerts]
    exact h.listedOnce
  decided := by
    rw [halerts, hdecisions]
    exact h.decided

structure Inserts (db db' : Database) (writes : List Write) : Prop where
  decisions : ∀ id ∈ db'.decisions.map DecisionRecord.extractionId,
    id ∈ db.decisions.map DecisionRecord.extractionId ∨
      ∃ decision, .addDecision decision ∈ writes ∧ decision.extractionId = id
  alerts : ∀ id ∈ db'.operationalAlerts.map OperationalAlert.id,
    id ∈ db.operationalAlerts.map OperationalAlert.id ∨
      ∃ alert, .addAlert alert ∈ writes ∧ alert.id = id

theorem AlertEffect.ids_after (effect : AlertEffect) (extractionId : Text)
    {alerts : List OperationalAlert} {id : Text}
    (hid : id ∈ (effect.after extractionId alerts).map OperationalAlert.id) :
    id ∈ alerts.map OperationalAlert.id ∨
      ∃ alert, .addAlert alert ∈ effect.writes extractionId ∧ alert.id = id := by
  cases effect with
  | none => exact .inl hid
  | listed => exact .inl hid
  | folded alert =>
    rw [AlertEffect.after, map_id_setExtractionIds] at hid
    exact .inl hid
  | opened alert seen =>
    rw [AlertEffect.after, List.map_append, List.mem_append] at hid
    exact hid.imp_right fun hnew =>
      ⟨alert, List.mem_singleton_self _, (List.mem_singleton.mp hnew).symm⟩

theorem Progress.publish (hkept : Kept v.committed) (h : Progress v txn)
    (hdone : txn.locals.statement v.now (view deliveries txn v.committed) = .done)
    (hunraced : Unraced v txn) : Kept (view deliveries txn v.committed) ∧
      Grown v.committed (view deliveries txn v.committed) ∧
      Inserts v.committed (view deliveries txn v.committed) txn.writes := by
  rcases statement_done hdone with hphase | ⟨extraction, outcome, effect, decision, hphase⟩
  · obtain ⟨halerts, hdecisions⟩ := view_undecided h (by rw [hphase]; rfl)
    refine ⟨hkept.congr halerts hdecisions,
      grown_same (hdecisions ▸ List.Subset.refl _) halerts, fun id hid => ?_, fun id hid => ?_⟩
    · rw [hdecisions] at hid
      exact .inl hid
    · rw [halerts] at hid
      exact .inl hid
  · obtain ⟨halerts, hdecisions⟩ := view_decided h hphase
    obtain ⟨others, -, hwrites⟩ := h.writes
    have hholds := h.holds
    rw [Unraced, hphase] at hunraced
    rw [hphase] at hholds hwrites
    obtain ⟨heffect, hid, houtcome, hundecided⟩ := hholds
    refine ⟨hkept.commit heffect hunraced hid houtcome hundecided halerts hdecisions,
      hkept.grown heffect hunraced halerts hdecisions, fun id hid => ?_, fun id hid => ?_⟩
    · rw [hdecisions, List.map_append, List.mem_append] at hid
      refine hid.imp_right fun hnew => ⟨decision, ?_, (List.mem_singleton.mp hnew).symm⟩
      rw [hwrites, Phase.writes]
      simp
    · rw [halerts] at hid
      refine (effect.ids_after extraction.id hid).imp_right fun hnew => ?_
      obtain ⟨alert, halert, hsame⟩ := hnew
      refine ⟨alert, ?_, hsame⟩
      rw [hwrites, Phase.writes]
      simp [halert]

theorem AlertEffect.Holds.grown {db db' : Database} {effect : AlertEffect} {extractionId : Text}
    {outcome : RoutingOutcome} (h : effect.Holds db extractionId outcome) (hgrown : Grown db db')
    (hfresh : ∀ alert seen, effect = .opened alert seen →
      alert.id ∉ db'.operationalAlerts.map OperationalAlert.id) :
    effect.Holds db' extractionId outcome := by
  cases effect with
  | none => exact h
  | listed => exact hgrown.decidedIds h
  | folded alert => exact ⟨h.1, h.2.1, h.2.2.grown hgrown⟩
  | opened alert seen =>
    obtain ⟨houtcome, hkind, hids, -, hpassed⟩ := h
    exact ⟨houtcome, hkind, hids, hfresh alert seen rfl, hpassed.grown hgrown⟩

theorem alert_ne_of_apart {other : Txn Locals Write} (hapart : Apart deliveries txn other)
    {alert alert' : OperationalAlert} (halert : .addAlert alert ∈ txn.writes)
    (halert' : .addAlert alert' ∈ other.writes) : alert.id ≠ alert'.id := by
  intro hid
  have hclash := hapart _ halert _ halert'
  simp [deliveries, Write.keys, hid] at hclash

theorem decision_ne_of_apart {other : Txn Locals Write} (hapart : Apart deliveries txn other)
    {decision decision' : DecisionRecord} (hdecision : .addDecision decision ∈ txn.writes)
    (hdecision' : .addDecision decision' ∈ other.writes) :
    decision.extractionId ≠ decision'.extractionId := by
  intro hid
  have hclash := hapart _ hdecision _ hdecision'
  simp [deliveries, Write.keys, hid] at hclash

theorem Inserts.effect_grown {db' : Database} {other : Txn Locals Write}
    (hinserts : Inserts v.committed db' txn.writes) (hgrown : Grown v.committed db')
    (hapart : Apart deliveries txn other) {extraction : Extraction} {outcome : RoutingOutcome}
    {effect : AlertEffect} (heffect : effect.Holds v.committed extraction.id outcome)
    (hwrites : ∀ write ∈ effect.writes extraction.id, write ∈ other.writes) :
    effect.Holds db' extraction.id outcome := by
  refine heffect.grown hgrown fun alert seen hopened hmem => ?_
  subst hopened
  rcases hinserts.alerts _ hmem with hold | ⟨new, hnew, hid⟩
  · exact heffect.2.2.2.1 hold
  · exact alert_ne_of_apart hapart hnew (hwrites _ (List.mem_singleton_self _)) hid

theorem Progress.stable {db' : Database} {other : Txn Locals Write} {log : List Locals}
    (hother : Progress v other) (hgrown : Grown v.committed db')
    (hinserts : Inserts v.committed db' txn.writes) (hapart : Apart deliveries txn other) :
    Progress { v with committed := db', log := log } other := by
  refine ⟨hother.writes, ?_⟩
  obtain ⟨others, -, hwrites⟩ := hother.writes
  have hholds := hother.holds
  obtain ⟨⟨delivery, phase⟩, writes⟩ := other
  cases phase with
  | found extraction alert => exact hholds.grown hgrown
  | notFound extraction seen => exact hholds.grown hgrown
  | effected extraction outcome effect =>
    apply hinserts.effect_grown hgrown hapart hholds
    intro write hwrite
    rw [hwrites]
    exact List.mem_append_right _ hwrite
  | decided extraction outcome effect decision =>
    obtain ⟨heffect, hid, houtcome, hundecided⟩ := hholds
    refine ⟨?_, hid, houtcome, fun hmem => ?_⟩
    · apply hinserts.effect_grown hgrown hapart heffect
      intro write hwrite
      rw [hwrites]
      exact List.mem_append_right _ (List.mem_append_left _ hwrite)
    · rcases hinserts.decisions _ hmem with hold | ⟨new, hnew, hsame⟩
      · exact hundecided hold
      · refine decision_ne_of_apart hapart hnew ?_ (hsame.trans hid.symm)
        rw [hwrites]
        exact List.mem_append_right _ (List.mem_append_right _ (List.mem_singleton_self _))
  | _ => trivial

theorem deliveries_guarantee : Guarantee deliveries (fun v => Kept v.committed) Progress Unraced where
  symm write held := any_key_comm write.keys held.keys
  begins v delivery hkept := ⟨⟨[], List.forall_mem_nil _, rfl⟩, trivial⟩
  reads v txn locals hkept h hnext := by
    have hprogress := h.next hkept hnext (fun _ hnone => nomatch hnone)
    rw [Option.toList_none, List.append_nil] at hprogress
    exact hprogress
  writes v txn locals write hkept h hnext hvalid :=
    h.next hkept hnext fun _ hupdate => by cases hupdate; exact hvalid
  commits v txn hkept h hdone hunraced := by
    obtain ⟨hafter, hgrown, hinserts⟩ := h.publish hkept hdone hunraced
    exact ⟨hafter, fun other hother hapart => hother.stable hgrown hinserts hapart⟩
  advances v now hnow hkept := by
    refine ⟨hkept, fun other hother => ⟨hother.writes, ?_⟩⟩
    have hholds := hother.holds
    obtain ⟨⟨delivery, phase⟩, writes⟩ := other
    cases phase with
    | notFound extraction seen => exact hholds.later hnow
    | _ => exact hholds

end Transactions

/-- No extraction has been decided, and no alert opened. -/
structure Unalerted (db : Database) : Prop where
  decisions : db.decisions = []
  operationalAlerts : db.operationalAlerts = []

theorem Unalerted.kept {db : Database} (h : Unalerted db) : Kept db where
  listed := by simp [h.decisions]
  apart := by simp [h.operationalAlerts]
  alertKeys := by simp [AlertKeys, h.operationalAlerts]
  kinds := by simp [h.operationalAlerts]
  listedOnce := by simp [h.operationalAlerts]
  decided := by simp [h.operationalAlerts]

/-- Alerts list every novel extraction, and once for each cluster and window,
throughout a run exactly when no commit has raced another. -/
theorem alerted_iff_unraced {db : Database} (h : Unalerted db) (now : Instant)
    (steps : List (ReadCommitted.Step Delivery Instant)) :
    Runs.Throughout (ReadCommitted.step deliveries) (fun s => Alerted s.shared.committed)
        { shared := { committed := db, now := now } } steps ↔
      Runs.AllSteps (ReadCommitted.step deliveries) (CommitsWhen Unraced)
        { shared := { committed := db, now := now } } steps := by
  apply deliveries_guarantee.throughout_iff (P := fun v => Alerted v.committed)
  · exact Invariant.start h.kept
  · exact fun v hkept => hkept.toAlerted
  · intro v txn hkept htxn hdone hafter
    rcases statement_done hdone with hphase | ⟨extraction, outcome, effect, decision, hphase⟩
    · rw [Unraced, hphase]
      trivial
    · obtain ⟨halerts, hdecisions⟩ := view_decided htxn hphase
      have hholds := htxn.holds
      rw [hphase] at hholds
      obtain ⟨heffect, -, -, hundecided⟩ := hholds
      rw [Unraced, hphase]
      exact hkept.unraced_of_alerted heffect hundecided halerts hdecisions hafter

def novelPage (id : Text) : Extraction where
  id := id
  pageId := "p1".toList
  fieldName := "area".toList
  rawValue := "2.5".toList
  routingOutcome := some .outsideCalibratedRegime

def sampleDelivery (id : Text) : Delivery where
  extractionId := id
  noveltyClusterId := some "n1".toList
  effectId := id ++ "-alert".toList
  decisionId := id ++ "-decision".toList

def novelPages : Database where
  extractions := [novelPage "e1".toList, novelPage "e2".toList, novelPage "e3".toList]

def bothFold : List (ReadCommitted.Step Delivery Instant) :=
  [.begin (sampleDelivery "e1".toList), .execute 0, .execute 0, .execute 0, .execute 0, .execute 0,
    .commit 0, .begin (sampleDelivery "e2".toList), .begin (sampleDelivery "e3".toList),
    .execute 1, .execute 1, .execute 1, .execute 2, .execute 2, .execute 2, .execute 1, .execute 1,
    .commit 1, .execute 2, .execute 2, .commit 2]

theorem alerted_iff_bothFold :
    Runs.Throughout (ReadCommitted.step deliveries) (fun s => Alerted s.shared.committed)
        { shared := { committed := novelPages, now := newYear 1 } } bothFold ↔
      Runs.AllSteps (ReadCommitted.step deliveries) (CommitsWhen Unraced)
        { shared := { committed := novelPages, now := newYear 1 } } bothFold :=
  alerted_iff_unraced ⟨rfl, rfl⟩ (newYear 1) bothFold

theorem bothFold_loses :
    ¬ Runs.Throughout (ReadCommitted.step deliveries) (fun s => Alerted s.shared.committed)
      { shared := { committed := novelPages, now := newYear 1 } } bothFold := by
  intro h
  have hlost : (Runs.run (ReadCommitted.step deliveries)
      { shared := { committed := novelPages, now := newYear 1 } } bothFold).any (fun s =>
        s.shared.committed.decisions.any fun decision =>
          decision.outcome = .outsideCalibratedRegime ∧
            ∀ alert ∈ s.shared.committed.operationalAlerts,
              decision.extractionId ∉ alert.extractionIds) = true := by
    decide +kernel
  obtain ⟨s, hrun, hs⟩ := (Option.any_eq_true _ _).mp hlost
  obtain ⟨decision, hdecision, hdecided⟩ := List.any_eq_true.mp hs
  obtain ⟨houtcome, hunlisted⟩ := of_decide_eq_true hdecided
  obtain ⟨alert, halert, hlisted⟩ := (h.at_run hrun).listed decision hdecision houtcome
  exact hunlisted alert halert hlisted

end LandRecords.Decision
