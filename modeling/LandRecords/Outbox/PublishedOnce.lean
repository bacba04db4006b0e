import LandRecords.Outbox.Delivered

/-! Runs without a failure. What was published is dispatched or still locked by the relay
that published it, so that it is not published again, and nothing is left over. -/
namespace LandRecords.Outbox

open Datetime RowLocks Text

variable {E : Type} {s t : OutboxState E} {i : Nat} {txn : OutboxTxn E}

def IsDispatched (rows : List (OutboxMessage E)) (id : Text) : Prop :=
  ∃ row ∈ rows, row.id = id ∧ row.dispatched = true

def CarriedBy (publication : Publication E) (locals : Locals E) : Prop :=
  (∃ batchSize, locals.request = .drain publication.relay batchSize) ∧
    publication.messageId ∈ locals.phase.published.map fun row => row.1.id

structure Unfailing (s : OutboxState E) : Prop where
  base : Invariant (relays E) Kept Progress s
  once : (s.shared.effects.map Publication.messageId).Nodup
  covered : ∀ publication ∈ s.shared.effects,
    IsDispatched s.shared.committed publication.messageId ∨
      ∃ i txn, s.txn? i = some txn ∧ CarriedBy publication txn.locals

section Statements

variable {relay : Text} {batchSize : Nat} {phase : Phase E}

theorem DrainStep.published_subset {now : Instant} {rows : List (OutboxMessage E)}
    {statement : Statement (Phase E) (Write E) Text (Publication E)}
    (h : DrainStep relay batchSize now rows phase statement) {phase' : Phase E}
    (hnext : phase' ∈ statement.nexts) : phase.published ⊆ phase'.published := by
  cases h with
  | published row pending published =>
    rw [List.mem_singleton.mp hnext]
    exact List.subset_append_left _ _
  | publishedAll published =>
    rw [List.mem_singleton.mp hnext]
    exact List.Subset.refl _
  | marked row rest marked =>
    rw [List.mem_singleton.mp hnext]
    simp [Phase.published]
  | _ => first | exact List.nil_subset _ | cases hnext

theorem CarriedBy.next {publication : Publication E} {v : Commits E}
    (h : CarriedBy publication txn.locals) {locals : Locals E}
    (hnext : locals ∈ (nextStatement (relays E) txn v).nexts) : CarriedBy publication locals := by
  obtain ⟨⟨request, phase⟩, writes, locks⟩ := txn
  obtain ⟨⟨batchSize, hrequest⟩, hpublished⟩ := h
  obtain rfl : request = _ := hrequest
  rw [nextStatement_drain, Statement.nexts_mapLocals] at hnext
  obtain ⟨phase', hphase, rfl⟩ := List.mem_map.mp hnext
  refine ⟨⟨batchSize, rfl⟩, ?_⟩
  obtain ⟨row, hrow, hid⟩ := List.mem_map.mp hpublished
  exact List.mem_map.mpr ⟨row, (drainStatement_cases ..).published_subset hphase hrow, hid⟩

theorem held_of_published {row : OutboxMessage E × Instant} (h : row ∈ phase.published) :
    row.1 ∈ phase.held := by
  cases phase with
  | publishing pending published => exact List.mem_append_left _ (List.mem_map_of_mem h)
  | marking rest marked =>
    rw [Phase.held, ← List.map_append]
    exact List.mem_map_of_mem h
  | _ => cases h

theorem Unfailing.carried (h : Unfailing s) (htxn : s.txn? i = some txn)
    {publication : Publication E} (hcarried : CarriedBy publication txn.locals) :
    ∃ row ∈ s.shared.committed, row.id = publication.messageId ∧ row.dispatched = false ∧
      row.id ∈ txn.locks := by
  obtain ⟨⟨batchSize, hrequest⟩, hpublished⟩ := hcarried
  have hprogress := h.base.txns i txn htxn
  rw [Progress, hrequest] at hprogress
  obtain ⟨row, hrow, hid⟩ := List.mem_map.mp hpublished
  obtain ⟨hmem, hopen, hlock⟩ := hprogress.held row.1 (held_of_published hrow)
  exact ⟨row.1, hmem, hid, hopen, hlock⟩

theorem length_publicationsOf_le {v : Commits E}
    (h : (v.effects.map Publication.messageId).Nodup) (id : Text) :
    (publicationsOf v id).length ≤ 1 := by
  have hsame : (publicationsOf v id).map Publication.messageId =
      List.replicate ((publicationsOf v id).map Publication.messageId).length id := by
    apply List.eq_replicate_of_mem
    intro other hother
    obtain ⟨publication, hpublication, rfl⟩ := List.mem_map.mp hother
    exact of_decide_eq_true (List.mem_filter.mp hpublication).2
  have hnodup : ((publicationsOf v id).map Publication.messageId).Nodup :=
    h.sublist (List.filter_sublist.map Publication.messageId)
  rw [hsame, List.nodup_replicate, List.length_map] at hnodup
  exact hnodup

theorem Unfailing.publishedOnce (h : Unfailing s) : PublishedOnce s := by
  have honce := length_publicationsOf_le h.once
  refine ⟨honce, fun row hrow hdispatched => ?_, fun row hrow hopen publication hpublication => ?_⟩
  · obtain ⟨publication, hmem, hid, -, -⟩ := h.base.shared.dispatched row hrow hdispatched
    have hpos : publication ∈ publicationsOf s.shared row.id :=
      List.mem_filter.mpr ⟨hmem, decide_eq_true hid⟩
    exact le_antisymm (honce row.id) (List.length_pos_of_mem hpos)
  · obtain ⟨hmem, hid⟩ := List.mem_filter.mp hpublication
    have hid := of_decide_eq_true hid
    rcases h.covered publication hmem with ⟨other, hother, hsame, hdispatched⟩ |
      ⟨i, txn, htxn, hcarried⟩
    · obtain rfl := List.inj_on_of_nodup_map h.base.shared.keys hother hrow (hsame.trans hid)
      rw [hopen] at hdispatched
      cases hdispatched
    · obtain ⟨other, hother, hsame, -, hlock⟩ := h.carried htxn hcarried
      obtain rfl := List.inj_on_of_nodup_map h.base.shared.keys hother hrow (hsame.trans hid)
      exact ⟨i, txn, htxn, hlock, hcarried.1⟩

theorem Unfailing.unpublished (h : Unfailing s) (htxn : s.txn? i = some txn) {row : OutboxMessage E}
    {pending : List (OutboxMessage E)} {published : List (OutboxMessage E × Instant)}
    (hrequest : txn.locals.request = .drain relay batchSize)
    (hphase : txn.locals.phase = .publishing (row :: pending) published) :
    row.id ∉ s.shared.effects.map Publication.messageId := by
  intro hmem
  obtain ⟨publication, hpublication, hid⟩ := List.mem_map.mp hmem
  have hprogress := h.base.txns i txn htxn
  rw [Progress, hrequest] at hprogress
  simp only [hphase] at hprogress
  have hheld : row ∈ (Phase.publishing (row :: pending) published).held :=
    List.mem_append_right _ List.mem_cons_self
  obtain ⟨hrow, hopen, hlock⟩ := hprogress.held row hheld
  rcases h.covered publication hpublication with ⟨other, hother, hsame, hdispatched⟩ |
    ⟨j, other, hother, hcarried⟩
  · obtain rfl := List.inj_on_of_nodup_map h.base.shared.keys hother hrow (hsame.trans hid)
    rw [hopen] at hdispatched
    cases hdispatched
  · by_cases hij : i = j
    · subst hij
      obtain rfl := Option.some.inj (htxn.symm.trans hother)
      have hpublished := hcarried.2
      rw [hphase, hid] at hpublished
      obtain ⟨before, hbefore, hbeforeId⟩ := List.mem_map.mp hpublished
      have hdistinct := hprogress.distinct.of_append_left
      rw [Phase.held, List.map_append] at hdistinct
      exact List.disjoint_of_nodup_append hdistinct
        (List.mem_map_of_mem (List.mem_map_of_mem hbefore)) (hbeforeId ▸ List.mem_cons_self)
    · obtain ⟨carried, -, hcarriedId, -, hheldLock⟩ := h.carried hother hcarried
      rw [hcarriedId, hid] at hheldLock
      exact h.base.apart i j txn other hij htxn hother hlock hheldLock

/-- A call publishes a message for the first time, and its relay carries it. -/
theorem Unfailing.call (h : Unfailing s) (htxn : s.txn? i = some txn) {locals : Locals E}
    {publication : Publication E}
    (hnext : nextStatement (relays E) txn s.shared = .call locals publication) :
    publication.messageId ∉ s.shared.effects.map Publication.messageId ∧
      CarriedBy publication locals := by
  obtain ⟨⟨request, phase⟩, writes, locks⟩ := txn
  cases request with
  | produce messages =>
    rw [nextStatement_produce] at hnext
    obtain ⟨phase', hinner, -⟩ := Statement.mapLocals_call hnext
    cases phase with
    | producing rest => cases rest <;> cases hinner
    | _ => cases hinner
  | drain relay batchSize =>
    rw [nextStatement_drain] at hnext
    obtain ⟨phase', hinner, rfl⟩ := Statement.mapLocals_call hnext
    have hstep := drainStatement_cases relay batchSize s.shared.now
      (view (relays E) ⟨⟨.drain relay batchSize, phase⟩, writes, locks⟩ s.shared.committed) phase
    rw [hinner] at hstep
    cases hstep with
    | published row pending published =>
      refine ⟨h.unpublished htxn rfl rfl, ⟨batchSize, rfl⟩, ?_⟩
      exact List.mem_map.mpr
        ⟨_, List.mem_append_right _ (List.mem_singleton_self (row, s.shared.now)), rfl⟩

end Statements

section Steps

theorem Unfailing.kept (h : Unfailing s) (hbase : Invariant (relays E) Kept Progress t)
    (hcommitted : t.shared.committed = s.shared.committed)
    (heffects : t.shared.effects = s.shared.effects)
    (hcarried : ∀ publication i txn, s.txn? i = some txn → CarriedBy publication txn.locals →
      ∃ txn', t.txn? i = some txn' ∧ CarriedBy publication txn'.locals) : Unfailing t := by
  refine ⟨hbase, heffects ▸ h.once, fun publication hpublication => ?_⟩
  rcases h.covered publication (heffects ▸ hpublication) with hdispatched | ⟨i, txn, htxn, hcarries⟩
  · exact .inl (hcommitted ▸ hdispatched)
  · obtain ⟨txn', htxn', hcarries'⟩ := hcarried publication i txn htxn hcarries
    exact .inr ⟨i, txn', htxn', hcarries'⟩

theorem carried_setTxn (htxn : s.txn? i = some txn) {txn' : OutboxTxn E}
    (hnext : txn'.locals ∈ (nextStatement (relays E) txn s.shared).nexts)
    {publication : Publication E} (j : Nat) (other : OutboxTxn E) (hother : s.txn? j = some other)
    (hcarried : CarriedBy publication other.locals) :
    ∃ txn'', (s.setTxn i (some txn')).txn? j = some txn'' ∧
      CarriedBy publication txn''.locals := by
  by_cases hij : j = i
  · subst hij
    obtain rfl := Option.some.inj (htxn.symm.trans hother)
    exact ⟨txn', txn?_setTxn_self htxn, hcarried.next hnext⟩
  · exact ⟨other, (txn?_setTxn_other hij).trans hother, hcarried⟩

theorem carried_ended (htxn : s.txn? i = some txn) (hproduces : txn.locals.request.isDrain = false)
    {publication : Publication E} (j : Nat) (other : OutboxTxn E) (hother : s.txn? j = some other)
    (hcarried : CarriedBy publication other.locals) :
    ∃ txn', (s.setTxn i none).txn? j = some txn' ∧ CarriedBy publication txn'.locals := by
  by_cases hij : j = i
  · subst hij
    obtain rfl := Option.some.inj (htxn.symm.trans hother)
    obtain ⟨batchSize, hrequest⟩ := hcarried.1
    rw [hrequest] at hproduces
    cases hproduces
  · exact ⟨other, (txn?_setTxn_other hij).trans hother, hcarried⟩

variable {v : Commits E}

theorem produces_of_fail (h : Progress v txn)
    (hfail : nextStatement (relays E) txn v = .fail) : txn.locals.request.isDrain = false := by
  obtain ⟨⟨request, phase⟩, writes, locks⟩ := txn
  cases request with
  | produce messages => rfl
  | drain relay batchSize =>
    rw [nextStatement_drain] at hfail
    have hstep := drainStatement_cases relay batchSize v.now
      (view (relays E) ⟨⟨.drain relay batchSize, phase⟩, writes, locks⟩ v.committed) phase
    rw [Statement.mapLocals_fail hfail] at hstep
    cases hstep with
    | never rest => exact absurd rfl (RelayProgress.drains h rest)

theorem produces_of_violates {locals : Locals E} {write : Write E} {rows : List (OutboxMessage E)}
    (hnext : nextStatement (relays E) txn v = .write locals write)
    (hinvalid : write.violates rows = true) : txn.locals.request.isDrain = false := by
  obtain ⟨⟨request, phase⟩, writes, locks⟩ := txn
  cases request with
  | produce messages => rfl
  | drain relay batchSize =>
    rw [nextStatement_drain] at hnext
    obtain ⟨phase', hinner, -⟩ := Statement.mapLocals_write hnext
    have hstep := drainStatement_cases relay batchSize v.now
      (view (relays E) ⟨⟨.drain relay batchSize, phase⟩, writes, locks⟩ v.committed) phase
    rw [hinner] at hstep
    cases hstep with
    | marked row rest marked => cases hinvalid

theorem IsDispatched.publish (h : Progress v txn) {id : Text} (hid : IsDispatched v.committed id) :
    IsDispatched (publish (relays E) txn v).committed id := by
  obtain ⟨row, hrow, rfl, hdispatched⟩ := hid
  unfold Progress at h
  split at h
  · refine ⟨afterMarks txn.locals.phase.marked row, ?_, afterMarks_id .., ?_⟩
    · rw [RowLocks.publish, h.view_eq]
      exact List.mem_map_of_mem hrow
    · exact (afterMarks_dispatched ..).mpr (.inl hdispatched)
  · obtain ⟨rows, hrows⟩ := h
    refine ⟨row, ?_, rfl, hdispatched⟩
    rw [RowLocks.publish, hrows.view_eq]
    exact List.mem_append_left _ hrow

theorem CarriedBy.publish {publication : Publication E} (hcarried : CarriedBy publication txn.locals)
    (h : Progress v txn) (hdone : nextStatement (relays E) txn v = .done) :
    IsDispatched (publish (relays E) txn v).committed publication.messageId := by
  obtain ⟨⟨request, phase⟩, writes, locks⟩ := txn
  obtain ⟨⟨batchSize, hrequest⟩, hpublished⟩ := hcarried
  obtain rfl : request = _ := hrequest
  rw [nextStatement_drain] at hdone
  have hstep := drainStatement_cases publication.relay batchSize v.now
    (view (relays E) ⟨⟨.drain publication.relay batchSize, phase⟩, writes, locks⟩ v.committed) phase
  rw [Statement.mapLocals_done hdone] at hstep
  cases hstep with
  | drained marked =>
    have hprogress : RelayProgress v publication.relay (.marking [] marked) _ := h
    rw [Phase.published, List.append_nil] at hpublished
    obtain ⟨mark, hmark, hid⟩ := List.mem_map.mp hpublished
    have hheld : mark.1 ∈ (Phase.marking [] marked).held :=
      List.mem_append_left _ (List.mem_map_of_mem hmark)
    refine ⟨afterMarks marked mark.1, ?_, (afterMarks_id ..).trans hid, ?_⟩
    · rw [RowLocks.publish, hprogress.view_eq]
      exact List.mem_map_of_mem (hprogress.held _ hheld).1
    · exact (afterMarks_dispatched ..).mpr (.inr (List.mem_map_of_mem hmark))

/-- A step that does not fail keeps every publication covered, and publishes nothing
twice. -/
theorem Unfailing.step {a : RowLocks.Step (Request E) Instant} (h : Unfailing s)
    (hok : NoFailure s a) (hstep : RowLocks.step (relays E) s a = some t) : Unfailing t := by
  have hbase := relays_guarantee.step h.base commitsWhen_true hstep
  cases step_cases hstep with
  | begun request =>
    exact h.kept hbase rfl rfl fun _ j other hother hcarried => ⟨other, txn?_begun_of hother, hcarried⟩
  | read i txn locals htxn hnext =>
    exact h.kept hbase rfl rfl fun _ =>
      carried_setTxn htxn (by rw [hnext]; exact List.mem_singleton_self _)
  | wrote i txn locals write htxn hnext hfree hvalid =>
    exact h.kept hbase rfl rfl fun _ =>
      carried_setTxn htxn (by rw [hnext]; exact List.mem_singleton_self _)
  | locked i txn key taken skipped htxn hnext hfree =>
    exact h.kept hbase rfl rfl fun _ =>
      carried_setTxn htxn (by rw [hnext]; exact List.mem_cons_self)
  | skipped i txn key taken skipped htxn hnext hheld =>
    exact h.kept hbase rfl rfl fun _ =>
      carried_setTxn htxn (by rw [hnext]; exact List.mem_cons_of_mem _ List.mem_cons_self)
  | called i txn locals publication htxn hnext =>
    obtain ⟨hfresh, hcarriedNow⟩ := h.call htxn hnext
    have hstays : ({ txn with locals := locals } : OutboxTxn E).locals ∈
        (nextStatement (relays E) txn s.shared).nexts := by
      rw [hnext]
      exact List.mem_singleton_self _
    refine ⟨hbase, ?_, fun other hother => ?_⟩
    · exact Rows.nodup_append_row h.once hfresh
    · rcases List.mem_append.mp hother with hold | hnew
      · rcases h.covered other hold with hdispatched | ⟨j, carrier, hcarrier, hcarried⟩
        · exact .inl hdispatched
        · obtain ⟨carrier', hcarrier', hcarried'⟩ :=
            carried_setTxn htxn hstays j carrier hcarrier hcarried
          exact .inr ⟨j, carrier', hcarrier', hcarried'⟩
      · rw [List.mem_singleton.mp hnew]
        exact .inr ⟨i, _, txn?_setTxn_self htxn, hcarriedNow⟩
  | raised i txn htxn hnext =>
    exact h.kept hbase rfl rfl fun _ =>
      carried_ended htxn (produces_of_fail (h.base.txns i txn htxn) hnext)
  | violated i txn locals write htxn hnext hinvalid =>
    exact h.kept hbase rfl rfl fun _ => carried_ended htxn (produces_of_violates hnext hinvalid)
  | rolledBack i txn htxn =>
    rw [NoFailure, htxn] at hok
    exact h.kept hbase rfl rfl fun _ => carried_ended htxn (by simpa using hok)
  | faulted i txn locals publication reached htxn hnext => exact hok.elim
  | committed i txn htxn hdone =>
    have hprogress := h.base.txns i txn htxn
    refine ⟨hbase, h.once, fun publication hpublication => ?_⟩
    rcases h.covered publication hpublication with hdispatched | ⟨j, other, hother, hcarried⟩
    · exact .inl (hdispatched.publish hprogress)
    · by_cases hij : j = i
      · subst hij
        obtain rfl := Option.some.inj (htxn.symm.trans hother)
        exact .inl (hcarried.publish hprogress hdone)
      · exact .inr ⟨j, other, (txn?_setTxn_other hij).trans hother, hcarried⟩
  | advanced now hnow => exact ⟨hbase, h.once, h.covered⟩

end Steps

end LandRecords.Outbox
