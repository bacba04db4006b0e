import LandRecords.Outbox.PublishedOnce

/-! Nothing is left over: from every state that a run without a failure reaches, relays can
go on until each message is dispatched. -/
namespace LandRecords.Outbox

open Datetime RowLocks Text

variable {E : Type} {s t : OutboxState E} {i : Nat}
variable {relay name : Text} {batchSize size : Nat} {phase phase' : Phase E}
variable {writes : List (Write E)} {locks : List Text} {rows : List (OutboxMessage E)}

def undispatched (rows : List (OutboxMessage E)) : Nat :=
  rows.countP fun row => row.dispatched = false

def Phase.left (rows : List (OutboxMessage E)) : Phase E → Nat
  | .received => 5 * (pendingIds rows).length + 4
  | .scanning candidates _ pending => 5 * candidates.length + 2 * pending.length + 3
  | .locked _ candidates _ pending => 5 * candidates.length + 2 * pending.length + 7
  | .publishing pending published => 2 * pending.length + published.length + 2
  | .marking rest _ => rest.length + 1
  | .producing _ => 0

theorem DrainStep.left_lt {now : Instant}
    {statement : Statement (Phase E) (Write E) Text (Publication E)}
    (h : DrainStep relay batchSize now rows phase statement) {committed : List (OutboxMessage E)}
    (hrows : phase.marked = [] → rows = committed) (hnext : phase' ∈ statement.nexts) :
    phase'.left committed < phase.left committed := by
  cases h with
  | selected =>
    rw [List.mem_singleton.mp hnext, hrows rfl]
    simp [Phase.left]
  | attempted id candidates room pending =>
    simp only [Statement.nexts, List.mem_cons, List.not_mem_nil, or_false] at hnext
    rcases hnext with rfl | rfl <;> simp only [Phase.left, List.length_cons] <;> omega
  | drained marked => cases hnext
  | never rest => cases hnext
  | _ =>
    rw [List.mem_singleton.mp hnext]
    simp only [Phase.left, List.length_append, List.length_cons, List.length_nil]
    omega

def Promising (rows : List (OutboxMessage E)) (batchSize : Nat) : Phase E → Prop
  | .received => 0 < batchSize ∧ ∃ row ∈ rows, row.dispatched = false
  | .scanning candidates room pending =>
      pending ≠ [] ∨ (0 < room ∧ ∃ row ∈ rows, row.dispatched = false ∧ row.id ∈ candidates)
  | .locked id candidates _ pending =>
      pending ≠ [] ∨ ∃ row ∈ rows, row.dispatched = false ∧ row.id ∈ id :: candidates
  | phase => phase.held ≠ []

theorem Promising.next {now : Instant} {committed : List (OutboxMessage E)}
    {statement : Statement (Phase E) (Write E) Text (Publication E)}
    (h : Promising committed batchSize phase)
    (hstep : DrainStep relay batchSize now rows phase statement)
    (hkeys : (committed.map OutboxMessage.id).Nodup)
    (hrows : phase.marked = [] → rows = committed) (hnext : phase' ∈ statement.nexts)
    (hskips : ∀ id taken skipped, statement = .tryLock id taken skipped →
      phase' = taken ∨ id ∉ committed.map OutboxMessage.id) :
    Promising committed batchSize phase' := by
  cases hstep with
  | selected =>
    obtain ⟨hroom, row, hrow, hopen⟩ := h
    rw [List.mem_singleton.mp hnext, hrows rfl]
    refine .inr ⟨hroom, row, hrow, hopen, List.mem_map_of_mem ((mem_orderBy _).mpr ?_)⟩
    exact List.mem_filter.mpr ⟨hrow, decide_eq_true hopen⟩
  | attempted id candidates room pending =>
    have hahead : pending ≠ [] ∨
        ∃ row ∈ committed, row.dispatched = false ∧ row.id ∈ id :: candidates :=
      h.imp_right And.right
    rcases hskips _ _ _ rfl with rfl | hskipped
    · exact hahead
    · simp only [Statement.nexts, List.mem_cons, List.not_mem_nil, or_false] at hnext
      rcases hnext with rfl | rfl
      · exact hahead
      · refine hahead.imp_right fun ⟨row, hrow, hopen, hmem⟩ => ⟨Nat.succ_pos _, row, hrow, hopen, ?_⟩
        rcases List.mem_cons.mp hmem with hown | hrest
        · exact absurd (hown ▸ List.mem_map_of_mem hrow) hskipped
        · exact hrest
  | scanned candidates room pending hend =>
    rw [List.mem_singleton.mp hnext]
    rcases h with hpending | ⟨hroom, row, -, -, hmem⟩
    · exact hpending
    · rcases hend with rfl | rfl
      · cases hmem
      · cases hroom
  | kept candidates room pending row hrow hopen =>
    rw [List.mem_singleton.mp hnext]
    exact .inl (List.append_ne_nil_of_right_ne_nil _ (List.cons_ne_nil _ _))
  | passed id candidates room pending hpassed =>
    rw [List.mem_singleton.mp hnext]
    refine h.imp_right fun ⟨row, hrow, hopen, hmem⟩ => ⟨Nat.succ_pos _, row, hrow, hopen, ?_⟩
    rcases List.mem_cons.mp hmem with hown | hrest
    · have hfound : message? rows id = some row := by
        rw [hrows rfl, ← hown]
        exact Rows.find?_of_mem hkeys hrow
      rw [hpassed row hfound] at hopen
      cases hopen
    · exact hrest
  | published row pending published =>
    rw [List.mem_singleton.mp hnext]
    simp [Promising, Phase.held]
  | publishedAll published =>
    rw [List.mem_singleton.mp hnext]
    simpa [Promising, Phase.held] using h
  | marked row rest marked =>
    rw [List.mem_singleton.mp hnext]
    simp [Promising, Phase.held]
  | drained marked => cases hnext
  | never rest => cases hnext

/-- Steps without a failure, in which the relay of a name begins with a batch size, and
nothing else does. -/
def Draining (relay : Text) (batchSize : Nat) (s : OutboxState E)
    (a : RowLocks.Step (Request E) Instant) : Prop :=
  NoFailure s a ∧ ∀ request, a = .begin request → request = .drain relay batchSize

theorem draining_execute (relay : Text) (batchSize : Nat) (s : OutboxState E) (i : Nat) :
    Draining relay batchSize s (.execute i) := ⟨trivial, nofun⟩

theorem draining_commit (relay : Text) (batchSize : Nat) (s : OutboxState E) (i : Nat) :
    Draining relay batchSize s (.commit i) := ⟨trivial, nofun⟩

theorem draining_begin (relay : Text) (batchSize : Nat) (s : OutboxState E) :
    Draining relay batchSize s (.begin (.drain relay batchSize)) :=
  ⟨trivial, fun _ hbegin => (Step.begin.inj hbegin).symm⟩

structure Beside (s t : OutboxState E) (i : Nat) : Prop where
  others : ∀ j, j ≠ i → t.txn? j = s.txn? j
  length : t.txns.length = s.txns.length
  committed : t.shared.committed = s.shared.committed

theorem beside_setTxn (s : OutboxState E) (i : Nat) (replaced : Option (OutboxTxn E)) :
    Beside s (s.setTxn i replaced) i :=
  ⟨fun _ hj => txn?_setTxn_other hj, List.length_set, rfl⟩

theorem Unfailing.advance (h : Unfailing s)
    (htxn : s.txn? i = some ⟨⟨.drain relay batchSize, phase⟩, writes, locks⟩)
    {statement : Statement (Phase E) (Write E) Text (Publication E)}
    (hinner : drainStatement relay batchSize s.shared.now
      (view (relays E) ⟨⟨.drain relay batchSize, phase⟩, writes, locks⟩ s.shared.committed) phase =
        statement) (hdone : statement ≠ .done) :
    ∃ t phase' writes' locks', RowLocks.step (relays E) s (.execute i) = some t ∧
      t.txn? i = some ⟨⟨.drain relay batchSize, phase'⟩, writes', locks'⟩ ∧
      phase' ∈ statement.nexts ∧ Beside s t i ∧
      ∀ id taken skipped, statement = .tryLock id taken skipped →
        phase' = taken ∨ s.heldElsewhere i id = true := by
  have hprogress : RelayProgress s.shared relay phase _ := h.base.txns i _ htxn
  have hstatement : nextStatement (relays E) ⟨⟨.drain relay batchSize, phase⟩, writes, locks⟩
      s.shared = statement.mapLocals fun phase => ⟨.drain relay batchSize, phase⟩ := by
    rw [nextStatement_drain, hinner]
  have hcases := hinner ▸ drainStatement_cases relay batchSize s.shared.now
    (view (relays E) ⟨⟨.drain relay batchSize, phase⟩, writes, locks⟩ s.shared.committed) phase
  have hbeside := beside_setTxn s i
  cases statement with
  | done => exact absurd rfl hdone
  | fail =>
    cases hcases with
    | never rest => exact absurd rfl (hprogress.drains rest)
  | next phase' =>
    refine ⟨_, phase', writes, locks, ?_, txn?_setTxn_self htxn, List.mem_singleton_self _,
      hbeside _, fun _ _ _ hsame => by cases hsame⟩
    rw [RowLocks.step, htxn, Option.bind_some, hstatement]
    rfl
  | write phase' write =>
    cases hcases with
    | marked row rest marked =>
      have hheld : row.1 ∈ (Phase.marking (row :: rest) marked).held :=
        List.mem_append_right _ (List.mem_map_of_mem List.mem_cons_self)
      have hfree := h.base.heldElsewhere_own htxn (hprogress.held _ hheld).2.2
      refine ⟨_, _, writes ++ [dispatchOf row], locks ++ [row.1.id], ?_, txn?_setTxn_self htxn,
        List.mem_singleton_self _, hbeside _, fun _ _ _ hsame => by cases hsame⟩
      rw [RowLocks.step, htxn, Option.bind_some, hstatement]
      have hkeys : ((relays E).keys (dispatchOf row)).any (s.heldElsewhere i) = false := by
        change (s.heldElsewhere i row.1.id || false) = false
        rw [hfree, Bool.or_false]
      simp only [Statement.mapLocals, hkeys, Bool.false_eq_true, if_false]
      rfl
  | tryLock id taken skipped =>
    cases hheld : s.heldElsewhere i id with
    | false =>
      refine ⟨_, taken, writes, locks ++ [id], ?_, txn?_setTxn_self htxn, List.mem_cons_self,
        hbeside _, fun _ _ _ hsame => ?_⟩
      · rw [RowLocks.step, htxn, Option.bind_some, hstatement]
        simp only [Statement.mapLocals, hheld, Bool.false_eq_true, if_false]
      · cases hsame
        exact .inl rfl
    | true =>
      refine ⟨_, skipped, writes, locks, ?_, txn?_setTxn_self htxn,
        List.mem_cons_of_mem _ List.mem_cons_self, hbeside _, fun _ _ _ hsame => ?_⟩
      · rw [RowLocks.step, htxn, Option.bind_some, hstatement]
        simp only [Statement.mapLocals, hheld, if_true]
      · cases hsame
        exact .inr hheld
  | call phase' publication =>
    refine ⟨(s.setTxn i (some ⟨⟨.drain relay batchSize, phase'⟩, writes, locks⟩)).withEffect publication,
      phase', writes, locks, ?_, txn?_setTxn_self htxn, List.mem_singleton_self _,
      ⟨(hbeside _).others, (hbeside _).length, (hbeside _).committed⟩,
      fun _ _ _ hsame => by cases hsame⟩
    rw [RowLocks.step, htxn, Option.bind_some, hstatement]
    rfl

section Ends

structure Ended (s t : OutboxState E) (i : Nat) : Prop where
  others : ∀ j, j ≠ i → t.txn? j = s.txn? j
  ended : t.txn? i = none
  length : t.txns.length = s.txns.length
  ids : t.shared.committed.map OutboxMessage.id = s.shared.committed.map OutboxMessage.id
  undispatched : undispatched t.shared.committed ≤ undispatched s.shared.committed

theorem undispatched_afterMarks (marked : List (OutboxMessage E × Instant))
    (rows : List (OutboxMessage E)) :
    undispatched (rows.map (afterMarks marked)) ≤ undispatched rows := by
  unfold undispatched
  rw [List.countP_map]
  refine List.countP_mono_left fun row _ hopen => ?_
  refine decide_eq_true (Bool.eq_false_of_not_eq_true fun hdispatched => ?_)
  have hafter := (afterMarks_dispatched marked row).mpr (.inl hdispatched)
  rw [of_decide_eq_true hopen] at hafter
  cases hafter

theorem undispatched_afterMarks_lt {marked : List (OutboxMessage E × Instant)}
    {row : OutboxMessage E} (hrow : row ∈ rows) (hopen : row.dispatched = false)
    (hmarked : row.id ∈ marked.map fun mark => mark.1.id) :
    undispatched (rows.map (afterMarks marked)) < undispatched rows := by
  obtain ⟨front, rest, rfl⟩ := List.append_of_mem hrow
  have hafter := (afterMarks_dispatched marked row).mpr (.inr hmarked)
  have hfront := undispatched_afterMarks marked front
  have hrest := undispatched_afterMarks marked rest
  unfold undispatched at hfront hrest ⊢
  rw [List.map_append, List.map_cons, List.countP_append, List.countP_append, List.countP_cons,
    List.countP_cons, hafter, hopen]
  simp only [Bool.true_eq_false, decide_false, decide_true, Bool.false_eq_true, if_false, if_true]
  omega

theorem Unfailing.commit (h : Unfailing s) {marked : List (OutboxMessage E × Instant)}
    (htxn : s.txn? i = some ⟨⟨.drain relay batchSize, .marking [] marked⟩, writes, locks⟩) :
    ∃ t, RowLocks.step (relays E) s (.commit i) = some t ∧ Ended s t i ∧
      (marked ≠ [] → undispatched t.shared.committed < undispatched s.shared.committed) := by
  have hprogress : RelayProgress s.shared relay (.marking [] marked) _ := h.base.txns i _ htxn
  have hview := hprogress.view_eq
  refine ⟨{ s.setTxn i none with
      shared := publish (relays E) ⟨⟨.drain relay batchSize, .marking [] marked⟩, writes, locks⟩
        s.shared }, ?_, ⟨fun _ hj => txn?_setTxn_other hj, txn?_setTxn_self htxn, List.length_set, ?_, ?_⟩,
    fun hmarked => ?_⟩
  · rw [RowLocks.step, htxn, Option.bind_some, nextStatement_drain]
    rfl
  · rw [publish, hview, map_id_afterMarks]
  · rw [publish, hview]
    exact undispatched_afterMarks ..
  · obtain ⟨mark, hmark⟩ := List.exists_mem_of_ne_nil _ hmarked
    have hheld : mark.1 ∈ (Phase.marking [] marked).held :=
      List.mem_append_left _ (List.mem_map_of_mem hmark)
    obtain ⟨hrow, hopen, -⟩ := hprogress.held _ hheld
    rw [publish, hview]
    exact undispatched_afterMarks_lt hrow hopen (List.mem_map_of_mem hmark)

def Quiet (s : OutboxState E) (i : Nat) : Prop :=
  ∀ id ∈ s.shared.committed.map OutboxMessage.id, s.heldElsewhere i id = false

theorem Beside.heldElsewhere (h : Beside s t i) (id : Text) :
    t.heldElsewhere i id = s.heldElsewhere i id := by
  rw [Bool.eq_iff_iff, heldElsewhere_iff, heldElsewhere_iff]
  constructor
  · rintro ⟨j, other, hij, hother, hlock⟩
    exact ⟨j, other, hij, (h.others j hij).symm.trans hother, hlock⟩
  · rintro ⟨j, other, hij, hother, hlock⟩
    exact ⟨j, other, hij, (h.others j hij).trans hother, hlock⟩

theorem Beside.quiet (h : Beside s t i) (hquiet : Quiet s i) : Quiet t i := by
  intro id hid
  rw [h.heldElsewhere]
  exact hquiet id (h.committed ▸ hid)

theorem Beside.ended {u : OutboxState E} (h : Beside s t i) (hended : Ended t u i) :
    Ended s u i := by
  refine ⟨fun j hj => (hended.others j hj).trans (h.others j hj), hended.ended,
    hended.length.trans h.length, ?_, ?_⟩
  · rw [hended.ids, h.committed]
  · rw [← h.committed]
    exact hended.undispatched

/-- A relay can go on to its commit, by induction on the statements that it has before it. -/
theorem Unfailing.finish (name : Text) (size n : Nat) (h : Unfailing s)
    (htxn : s.txn? i = some ⟨⟨.drain relay batchSize, phase⟩, writes, locks⟩)
    (hleft : phase.left s.shared.committed ≤ n) :
    ∃ t, Runs.Leads (RowLocks.step (relays E)) (Draining name size) s t ∧ Ended s t i ∧
      (Quiet s i → Promising s.shared.committed batchSize phase →
        undispatched t.shared.committed < undispatched s.shared.committed) := by
  induction n generalizing s phase writes locks with
  | zero =>
    have hprogress : RelayProgress s.shared relay phase _ := h.base.txns i _ htxn
    cases phase with
    | producing rest => exact absurd rfl (hprogress.drains rest)
    | _ => simp [Phase.left] at hleft
  | succ n ih =>
    have hprogress : RelayProgress s.shared relay phase _ := h.base.txns i _ htxn
    have hcases := drainStatement_cases relay batchSize s.shared.now
      (view (relays E) ⟨⟨.drain relay batchSize, phase⟩, writes, locks⟩ s.shared.committed) phase
    generalize hinner : drainStatement relay batchSize s.shared.now
      (view (relays E) ⟨⟨.drain relay batchSize, phase⟩, writes, locks⟩ s.shared.committed) phase =
        statement at hcases
    by_cases hdone : statement = .done
    · subst hdone
      cases hcases with
      | drained marked =>
        obtain ⟨t, hstep, hended, hless⟩ := h.commit htxn
        refine ⟨t, .of_step hstep (draining_commit ..), hended, fun _ hpromising => hless ?_⟩
        rintro rfl
        exact hpromising rfl
    · obtain ⟨u, phase', writes', locks', hstep, htxn', hnext, hbeside, hskips⟩ :=
        h.advance htxn hinner hdone
      have hlt := hcases.left_lt hprogress.view_unmarked hnext
      have hok := draining_execute name size s i
      have hrest : phase'.left u.shared.committed ≤ n := by
        rw [hbeside.committed]
        exact Nat.le_of_lt_succ (Nat.lt_of_lt_of_le hlt hleft)
      obtain ⟨t, hleads, hended, hless⟩ := ih (h.step hok.1 hstep) htxn' hrest
      refine ⟨t, (Runs.Leads.of_step hstep hok).trans hleads, hbeside.ended hended,
        fun hquiet hpromising => ?_⟩
      rw [hbeside.committed] at hless
      refine hless (hbeside.quiet hquiet) ?_
      refine hpromising.next hcases h.base.shared.keys hprogress.view_unmarked hnext ?_
      intro id taken skipped hattempt
      refine (hskips id taken skipped hattempt).imp_right fun hheld hmem => ?_
      rw [hquiet id hmem] at hheld
      cases hheld

end Ends

section Sweep

structure Onward (name : Text) (size : Nat) (s t : OutboxState E) : Prop where
  leads : Runs.Leads (RowLocks.step (relays E)) (Draining name size) s t
  ids : t.shared.committed.map OutboxMessage.id = s.shared.committed.map OutboxMessage.id
  undispatched : undispatched t.shared.committed ≤ undispatched s.shared.committed

theorem Onward.trans {u : OutboxState E} (h : Onward name size s t) (hrest : Onward name size t u) :
    Onward name size s u :=
  ⟨h.leads.trans hrest.leads, hrest.ids.trans h.ids, hrest.undispatched.trans h.undispatched⟩

theorem Onward.unfailing (h : Onward name size s t) (hs : Unfailing s) : Unfailing t :=
  h.leads.invariant hs fun _ _ _ hs hok hstep => hs.step hok.1 hstep

theorem Unfailing.sweep (h : Unfailing s) (name : Text) (size k : Nat) :
    ∃ t, Onward name size s t ∧ t.txns.length = s.txns.length ∧
      ∀ i < k, ∀ txn, t.txn? i = some txn → txn.locals.request.isDrain = false := by
  induction k with
  | zero =>
    exact ⟨s, ⟨.refl s, rfl, Nat.le_refl _⟩, rfl, fun i hi => absurd hi (Nat.not_lt_zero i)⟩
  | succ k ih =>
    obtain ⟨t, honward, hlength, hclosed⟩ := ih
    by_cases hopen : ∃ txn, t.txn? k = some txn ∧ txn.locals.request.isDrain = true
    · obtain ⟨⟨⟨request, phase⟩, writes, locks⟩, hrelay, hdrain⟩ := hopen
      cases request with
      | produce messages => cases hdrain
      | drain relay batchSize =>
        obtain ⟨u, hleads, hended, -⟩ := (honward.unfailing h).finish name size _ hrelay (Nat.le_refl _)
        refine ⟨u, honward.trans ⟨hleads, hended.ids, hended.undispatched⟩,
          hended.length.trans hlength, fun i hi txn htxn => ?_⟩
        rcases Nat.lt_succ_iff_lt_or_eq.mp hi with hlt | rfl
        · rw [hended.others i (Nat.ne_of_lt hlt)] at htxn
          exact hclosed i hlt txn htxn
        · rw [hended.ended] at htxn
          cases htxn
    · refine ⟨t, honward, hlength, fun i hi txn htxn => ?_⟩
      rcases Nat.lt_succ_iff_lt_or_eq.mp hi with hlt | rfl
      · exact hclosed i hlt txn htxn
      · exact Bool.eq_false_of_not_eq_true fun hdrain => hopen ⟨txn, htxn, hdrain⟩

/-- What a producer has locked is not committed yet. -/
theorem Unfailing.quiet (h : Unfailing s)
    (hclosed : ∀ j txn, j ≠ i → s.txn? j = some txn → txn.locals.request.isDrain = false) :
    Quiet s i := by
  intro id hid
  rw [← Bool.not_eq_true, heldElsewhere_iff]
  rintro ⟨j, ⟨⟨request, phase⟩, writes, locks⟩, hij, hother, hlock⟩
  cases request with
  | drain relay batchSize =>
    have hproduces := hclosed j _ hij hother
    cases hproduces
  | produce messages =>
    obtain ⟨rows, hrows⟩ := h.base.txns j _ hother
    have hkeys := hrows.keys
    rw [List.map_append] at hkeys
    exact List.disjoint_of_nodup_append hkeys hid (hrows.locks ▸ hlock)

theorem Unfailing.another (h : Unfailing s)
    (hclosed : ∀ j txn, s.txn? j = some txn → txn.locals.request.isDrain = false)
    (hleft : undispatched s.shared.committed ≠ 0) (name : Text) (hsize : 0 < size) :
    ∃ t, Onward name size s t ∧ undispatched t.shared.committed < undispatched s.shared.committed := by
  let begun : OutboxState E :=
    { s with txns := s.txns ++ [some { locals := ⟨.drain name size, .received⟩ }] }
  have hbegin : RowLocks.step (relays E) s (.begin (.drain name size)) = some begun := rfl
  have hok := draining_begin name size s
  have hbegun : Unfailing begun := h.step hok.1 hbegin
  have htxn : begun.txn? s.txns.length = some ⟨⟨.drain name size, .received⟩, [], []⟩ := by
    unfold State.txn?
    rw [List.getElem?_concat_length]
    rfl
  obtain ⟨t, hleads, hended, hless⟩ := hbegun.finish name size _ htxn (Nat.le_refl _)
  have hquiet : Quiet begun s.txns.length := by
    refine hbegun.quiet fun j txn hij hother => ?_
    rcases txn?_of_begun hother with hold | ⟨-, rfl⟩
    · exact hclosed j txn hold
    · exact absurd rfl hij
  obtain ⟨row, hrow, hopen⟩ := List.countP_pos_iff.mp (Nat.pos_of_ne_zero hleft)
  refine ⟨t, ⟨(Runs.Leads.of_step hbegin hok).trans hleads, hended.ids, hended.undispatched⟩, ?_⟩
  exact hless hquiet ⟨hsize, row, hrow, of_decide_eq_true hopen⟩

/-- Relays one after the other dispatch what is left, by induction on how much that is. -/
theorem Unfailing.drain (n : Nat) (h : Unfailing s) (hn : undispatched s.shared.committed ≤ n)
    (name : Text) (hsize : 0 < size) :
    ∃ t, Onward name size s t ∧ undispatched t.shared.committed = 0 := by
  induction n generalizing s with
  | zero => exact ⟨s, ⟨.refl s, rfl, Nat.le_refl _⟩, Nat.le_zero.mp hn⟩
  | succ n ih =>
    obtain ⟨t, hswept, hlength, hclosed⟩ := h.sweep name size s.txns.length
    have hnone : ∀ j txn, t.txn? j = some txn → txn.locals.request.isDrain = false :=
      fun j txn htxn => hclosed j (hlength ▸ txn?_lt htxn) txn htxn
    by_cases hleft : undispatched t.shared.committed = 0
    · exact ⟨t, hswept, hleft⟩
    · obtain ⟨u, hanother, hless⟩ := (hswept.unfailing h).another hnone hleft name hsize
      have honward := hswept.trans hanother
      have hfewer : undispatched u.shared.committed ≤ n := by
        have hswept := hswept.undispatched
        omega
      obtain ⟨v, hrest, hdrained⟩ := ih (honward.unfailing h) hfewer
      exact ⟨v, honward.trans hrest, hdrained⟩

end Sweep

/-- Nothing is left: each of the messages is dispatched, and was published once. -/
structure Drained (s t : OutboxState E) : Prop where
  ids : t.shared.committed.map OutboxMessage.id = s.shared.committed.map OutboxMessage.id
  dispatched : ∀ row ∈ t.shared.committed,
    row.dispatched = true ∧ (publicationsOf t.shared row.id).length = 1

theorem Unfailing.drained (h : Unfailing s) (name : Text) (hsize : 0 < size) :
    ∃ t, Runs.Leads (RowLocks.step (relays E)) (Draining name size) s t ∧ Drained s t := by
  obtain ⟨t, honward, hnone⟩ := h.drain _ (Nat.le_refl _) name hsize
  refine ⟨t, honward.leads, honward.ids, fun row hrow => ?_⟩
  have hdispatched : row.dispatched = true := by
    have hopen := List.countP_eq_zero.mp hnone row hrow
    simpa using hopen
  exact ⟨hdispatched, (honward.unfailing h).publishedOnce.dispatched row hrow hdispatched⟩

def emptyOutbox (E : Type) (now : Instant) : OutboxState E := ⟨⟨[], [], [], now⟩, []⟩

theorem emptyOutbox_unfailing (now : Instant) : Unfailing (emptyOutbox E now) :=
  ⟨.start ⟨List.nodup_nil, fun _ hrow => nomatch hrow⟩, List.nodup_nil, fun _ hmem => nomatch hmem⟩

/-- Whatever fails, a message is dispatched only if it was published, and can be selected
until then. If nothing fails, it is published once, and calls of a relay with any batch
size can go on until nothing is left. -/
theorem drainOnce_relays (now : Instant) (steps : List (RowLocks.Step (Request E) Instant)) :
    Runs.Throughout (RowLocks.step (relays E)) (fun s => Relayed s.shared) (emptyOutbox E now)
        steps ∧
      (Runs.AllSteps (RowLocks.step (relays E)) NoFailure (emptyOutbox E now) steps →
        Runs.Throughout (RowLocks.step (relays E))
          (fun s => PublishedOnce s ∧ ∀ (relay : Text) (batchSize : Nat), 0 < batchSize →
            ∃ t, Runs.Leads (RowLocks.step (relays E)) (Draining relay batchSize) s t ∧
              Drained s t)
          (emptyOutbox E now) steps) := by
  have hstart := emptyOutbox_unfailing (E := E) now
  constructor
  · have hok : Runs.AllSteps (RowLocks.step (relays E)) (CommitsWhen fun _ _ => True)
        (emptyOutbox E now) steps :=
      Runs.allSteps_of_forall fun _ _ => commitsWhen_true
    exact (relays_guarantee.throughout hstart.base hok).imp fun s hs => hs.shared.relayed
  · intro hok
    have hunfailing := Runs.throughout_of_invariant hstart
      (fun _ _ _ hs hok hstep => hs.step hok hstep) hok
    exact hunfailing.imp fun s hs =>
      ⟨hs.publishedOnce, fun relay batchSize hbatch => hs.drained relay hbatch⟩

def bothDrain : List (RowLocks.Step (Request Nat) Instant) :=
  [.begin (.produce [⟨"m1".toList, "q".toList, 1⟩, ⟨"m2".toList, "q".toList, 2⟩]), .execute 0,
    .execute 0, .execute 0, .commit 0, .begin (.drain "a".toList 1), .begin (.drain "b".toList 1),
    .execute 1, .execute 2, .execute 1, .execute 2, .execute 2, .execute 1, .execute 1, .execute 1,
    .execute 2, .execute 2, .execute 2, .execute 1, .execute 1, .commit 1]

theorem drainOnce_relays_race : ∃ s,
    Runs.run (RowLocks.step (relays Nat)) (emptyOutbox Nat (newYear 1)) bothDrain = some s ∧
      s.shared.effects.map Publication.messageId = ["m1".toList, "m2".toList] ∧
        Relayed s.shared ∧ PublishedOnce s ∧
          ∃ t, Runs.Leads (RowLocks.step (relays Nat)) (Draining "a".toList 1) s t ∧ Drained s t := by
  have hreached : (Runs.run (RowLocks.step (relays Nat)) (emptyOutbox Nat (newYear 1))
      bothDrain).any (fun s => s.shared.effects.map Publication.messageId =
        ["m1".toList, "m2".toList]) = true := by
    decide +kernel
  have hok : Runs.AllSteps (RowLocks.step (relays Nat)) NoFailure (emptyOutbox Nat (newYear 1))
      bothDrain := by
    decide +kernel
  obtain ⟨s, hrun, hpublished⟩ := (Option.any_eq_true _ _).mp hreached
  obtain ⟨hrelayed, honce⟩ := drainOnce_relays (newYear 1) bothDrain
  obtain ⟨hs, hdrains⟩ := (honce hok).at_run hrun
  exact ⟨s, hrun, of_decide_eq_true hpublished, hrelayed.at_run hrun, hs,
    hdrains _ 1 Nat.one_pos⟩

end LandRecords.Outbox
