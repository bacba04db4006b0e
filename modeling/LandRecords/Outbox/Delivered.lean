import LandRecords.Outbox.Relay

/-! A message is published before it is dispatched, whatever fails, and once if nothing
fails. -/
namespace LandRecords.Outbox

open Datetime RowLocks Text

variable {E : Type} {v : Commits E} {txn : OutboxTxn E}

section Statements

variable {relay : Text} {batchSize : Nat} {now : Instant} {rows : List (OutboxMessage E)}

inductive DrainStep (relay : Text) (batchSize : Nat) (now : Instant) (rows : List (OutboxMessage E)) :
    Phase E → Statement (Phase E) (Write E) Text (Publication E) → Prop
  | selected :
      DrainStep relay batchSize now rows .received (.next (.scanning (pendingIds rows) batchSize []))
  | attempted (id : Text) (candidates : List Text) (room : Nat) (pending : List (OutboxMessage E)) :
      DrainStep relay batchSize now rows (.scanning (id :: candidates) (room + 1) pending)
        (.tryLock id (.locked id candidates room pending) (.scanning candidates (room + 1) pending))
  | scanned (candidates : List Text) (room : Nat) (pending : List (OutboxMessage E))
      (hend : candidates = [] ∨ room = 0) :
      DrainStep relay batchSize now rows (.scanning candidates room pending)
        (.next (.publishing pending []))
  | kept (candidates : List Text) (room : Nat) (pending : List (OutboxMessage E))
      (row : OutboxMessage E) (hrow : row ∈ rows) (hopen : row.dispatched = false) :
      DrainStep relay batchSize now rows (.locked row.id candidates room pending)
        (.next (.scanning candidates room (pending ++ [row])))
  | passed (id : Text) (candidates : List Text) (room : Nat) (pending : List (OutboxMessage E))
      (hpassed : ∀ row ∈ message? rows id, row.dispatched = true) :
      DrainStep relay batchSize now rows (.locked id candidates room pending)
        (.next (.scanning candidates (room + 1) pending))
  | published (row : OutboxMessage E) (pending : List (OutboxMessage E))
      (published : List (OutboxMessage E × Instant)) :
      DrainStep relay batchSize now rows (.publishing (row :: pending) published)
        (.call (.publishing pending (published ++ [(row, now)])) (publicationOf relay row))
  | publishedAll (published : List (OutboxMessage E × Instant)) :
      DrainStep relay batchSize now rows (.publishing [] published) (.next (.marking published []))
  | marked (row : OutboxMessage E × Instant) (rest marked : List (OutboxMessage E × Instant)) :
      DrainStep relay batchSize now rows (.marking (row :: rest) marked)
        (.write (.marking rest (marked ++ [row])) (dispatchOf row))
  | drained (marked : List (OutboxMessage E × Instant)) :
      DrainStep relay batchSize now rows (.marking [] marked) .done
  | never (rest : List (NewMessage E)) :
      DrainStep relay batchSize now rows (.producing rest) .fail

theorem drainStatement_cases (relay : Text) (batchSize : Nat) (now : Instant)
    (rows : List (OutboxMessage E)) (phase : Phase E) :
    DrainStep relay batchSize now rows phase (drainStatement relay batchSize now rows phase) := by
  cases phase with
  | received => exact .selected
  | scanning candidates room pending =>
    cases candidates with
    | nil => exact .scanned [] room pending (.inl rfl)
    | cons id candidates =>
      cases room with
      | zero => exact .scanned (id :: candidates) 0 pending (.inr rfl)
      | succ room => exact .attempted id candidates room pending
  | locked id candidates room pending =>
    simp only [drainStatement]
    split
    · rename_i row hrow
      obtain ⟨hfound, hopen⟩ := Option.filter_eq_some_iff.mp hrow
      obtain rfl : row.id = id := Rows.find?_key hfound
      exact .kept candidates room pending row (List.mem_of_find?_eq_some hfound)
        (of_decide_eq_true hopen)
    · rename_i hnone
      refine .passed id candidates room pending fun row hrow => ?_
      have hclosed := Option.filter_eq_none_iff.mp hnone row hrow
      simpa using hclosed
  | publishing pending published =>
    cases pending with
    | nil => exact .publishedAll published
    | cons row pending => exact .published row pending published
  | marking rest marked =>
    cases rest with
    | nil => exact .drained marked
    | cons row rest => exact .marked row rest marked
  | producing rest => exact .never rest

end Statements

def Phase.held : Phase E → List (OutboxMessage E)
  | .scanning _ _ pending | .locked _ _ _ pending => pending
  | .publishing pending published => published.map Prod.fst ++ pending
  | .marking rest marked => marked.map Prod.fst ++ rest.map Prod.fst
  | _ => []

def Phase.published : Phase E → List (OutboxMessage E × Instant)
  | .publishing _ published => published
  | .marking rest marked => marked ++ rest
  | _ => []

def Phase.marked : Phase E → List (OutboxMessage E × Instant)
  | .marking _ marked => marked
  | _ => []

def Phase.ahead : Phase E → List Text
  | .scanning candidates _ _ => candidates
  | .locked id candidates _ _ => id :: candidates
  | _ => []

structure RelayProgress (v : Commits E) (relay : Text) (phase : Phase E) (txn : OutboxTxn E) :
    Prop where
  writes : txn.writes = phase.marked.map dispatchOf
  held : ∀ row ∈ phase.held, row ∈ v.committed ∧ row.dispatched = false ∧ row.id ∈ txn.locks
  locked : ∀ id candidates room pending, phase = .locked id candidates room pending →
    id ∈ txn.locks
  distinct : (phase.held.map OutboxMessage.id ++ phase.ahead).Nodup
  published : ∀ row ∈ phase.published, publicationOf relay row.1 ∈ v.effects
  drains : ∀ rest, phase ≠ .producing rest

structure ProducerProgress (v : Commits E) (txn : OutboxTxn E) (rows : List (OutboxMessage E)) :
    Prop where
  writes : txn.writes = rows.map .addMessage
  locks : txn.locks = rows.map OutboxMessage.id
  keys : ((v.committed ++ rows).map OutboxMessage.id).Nodup
  undispatched : ∀ row ∈ rows, row.dispatched = false

def Progress (v : Commits E) (txn : OutboxTxn E) : Prop :=
  match txn.locals.request with
  | .drain relay _ => RelayProgress v relay txn.locals.phase txn
  | .produce _ => ∃ rows, ProducerProgress v txn rows

structure Kept (v : Commits E) : Prop where
  keys : (v.committed.map OutboxMessage.id).Nodup
  dispatched : ∀ row ∈ v.committed, row.dispatched = true → Published v row

theorem Kept.relayed (h : Kept v) : Relayed v := by
  refine ⟨h.dispatched, fun row hrow hunpublished => ?_⟩
  have hopen : row.dispatched = false := by
    rw [← Bool.not_eq_true]
    exact fun hdispatched => hunpublished (h.dispatched row hrow hdispatched)
  refine ⟨hopen, List.mem_map_of_mem ((mem_orderBy _).mpr ?_)⟩
  exact List.mem_filter.mpr ⟨hrow, decide_eq_true hopen⟩

section Views

def afterMarks (marked : List (OutboxMessage E × Instant)) (row : OutboxMessage E) :
    OutboxMessage E :=
  marked.foldl (fun row mark =>
    if row.id = mark.1.id then dispatchedOn mark.2 (mark.1.dispatchAttempts + 1) row else row) row

@[simp] theorem afterMarks_id (marked : List (OutboxMessage E × Instant)) (row : OutboxMessage E) :
    (afterMarks marked row).id = row.id := by
  induction marked generalizing row with
  | nil => rfl
  | cons mark marked ih =>
    refine (ih _).trans ?_
    by_cases hown : row.id = mark.1.id
    · simp only [if_pos hown, dispatchedOn]
    · simp only [if_neg hown]

theorem afterMarks_content (marked : List (OutboxMessage E × Instant)) (row : OutboxMessage E) :
    (afterMarks marked row).queue = row.queue ∧ (afterMarks marked row).envelope = row.envelope := by
  induction marked generalizing row with
  | nil => exact ⟨rfl, rfl⟩
  | cons mark marked ih =>
    obtain ⟨hqueue, henvelope⟩ := ih
      (if row.id = mark.1.id then dispatchedOn mark.2 (mark.1.dispatchAttempts + 1) row else row)
    by_cases hown : row.id = mark.1.id
    · rw [if_pos hown] at hqueue henvelope
      rw [afterMarks, List.foldl_cons, if_pos hown]
      exact ⟨hqueue, henvelope⟩
    · rw [if_neg hown] at hqueue henvelope
      rw [afterMarks, List.foldl_cons, if_neg hown]
      exact ⟨hqueue, henvelope⟩

theorem afterMarks_dispatched (marked : List (OutboxMessage E × Instant)) (row : OutboxMessage E) :
    (afterMarks marked row).dispatched = true ↔
      row.dispatched = true ∨ row.id ∈ marked.map fun mark => mark.1.id := by
  induction marked generalizing row with
  | nil => simp [afterMarks]
  | cons mark marked ih =>
    refine (ih _).trans ?_
    by_cases hown : row.id = mark.1.id
    · simp [hown, dispatchedOn]
    · simp [hown]

theorem afterMarks_other {marked : List (OutboxMessage E × Instant)} {row : OutboxMessage E}
    (h : row.id ∉ marked.map fun mark => mark.1.id) : afterMarks marked row = row := by
  induction marked with
  | nil => rfl
  | cons mark marked ih =>
    rw [List.map_cons, List.mem_cons, not_or] at h
    rw [afterMarks, List.foldl_cons, if_neg h.1]
    exact ih h.2

theorem foldl_dispatch (marked : List (OutboxMessage E × Instant)) (rows : List (OutboxMessage E)) :
    (marked.map dispatchOf).foldl (fun rows write => write.apply rows) rows =
      rows.map (afterMarks marked) := by
  induction marked generalizing rows with
  | nil => exact (List.map_id' rows).symm
  | cons mark marked ih =>
    refine (ih _).trans ?_
    exact List.map_map ..

theorem foldl_addMessage (added rows : List (OutboxMessage E)) :
    (added.map Write.addMessage).foldl (fun rows write => write.apply rows) rows = rows ++ added := by
  induction added generalizing rows with
  | nil => exact (List.append_nil rows).symm
  | cons row added ih =>
    refine (ih _).trans ?_
    exact List.append_assoc ..

theorem RelayProgress.view_eq {relay : Text} {phase : Phase E} (h : RelayProgress v relay phase txn) :
    view (relays E) txn v.committed = v.committed.map (afterMarks phase.marked) := by
  rw [view, h.writes]
  exact foldl_dispatch ..

theorem ProducerProgress.view_eq {rows : List (OutboxMessage E)} (h : ProducerProgress v txn rows) :
    view (relays E) txn v.committed = v.committed ++ rows := by
  rw [view, h.writes]
  exact foldl_addMessage ..

theorem RelayProgress.view_unmarked {relay : Text} {phase : Phase E}
    (h : RelayProgress v relay phase txn) (hmarked : phase.marked = []) :
    view (relays E) txn v.committed = v.committed := by
  rw [h.view_eq, hmarked]
  exact List.map_id' _

theorem map_id_afterMarks (marked : List (OutboxMessage E × Instant))
    (rows : List (OutboxMessage E)) :
    (rows.map (afterMarks marked)).map OutboxMessage.id = rows.map OutboxMessage.id := by
  rw [List.map_map]
  exact List.map_congr_left fun row _ => afterMarks_id marked row

theorem pendingIds_nodup {rows : List (OutboxMessage E)}
    (hkeys : (rows.map OutboxMessage.id).Nodup) : (pendingIds rows).Nodup := by
  unfold pendingIds
  rw [((orderBy_perm OutboxMessage.createdAt _).map OutboxMessage.id).nodup_iff]
  exact hkeys.sublist (List.filter_sublist.map OutboxMessage.id)

end Views

section Relays

variable {relay : Text} {batchSize : Nat} {phase phase' : Phase E}

theorem RelayProgress.next (h : RelayProgress v relay phase txn) (hkept : Kept v)
    (hstep : DrainStep relay batchSize v.now (view (relays E) txn v.committed) phase (.next phase'))
    (locals : Locals E) : RelayProgress v relay phase' ⟨locals, txn.writes, txn.locks⟩ := by
  cases hstep with
  | selected =>
    refine ⟨h.writes, (fun _ hrow => nomatch hrow), nofun, ?_, (fun _ hrow => nomatch hrow), nofun⟩
    rw [h.view_unmarked rfl]
    exact pendingIds_nodup hkept.keys
  | scanned candidates room pending hend =>
    refine ⟨h.writes, h.held, nofun, ?_, (fun _ hrow => nomatch hrow), nofun⟩
    exact (List.append_nil _).symm ▸ h.distinct.of_append_left
  | kept candidates room pending row hrow hopen =>
    rw [h.view_unmarked rfl] at hrow
    refine ⟨h.writes, fun held hheld => ?_, nofun, ?_, h.published, nofun⟩
    · rcases List.mem_append.mp hheld with hold | hnew
      · exact h.held held hold
      · rw [List.mem_singleton.mp hnew]
        exact ⟨hrow, hopen, h.locked _ _ _ _ rfl⟩
    · have hdistinct := h.distinct
      simp only [Phase.held, Phase.ahead, List.map_append, List.map_singleton,
        List.append_assoc, List.singleton_append] at hdistinct ⊢
      exact hdistinct
  | passed id candidates room pending hpassed =>
    refine ⟨h.writes, h.held, nofun, ?_, h.published, nofun⟩
    exact h.distinct.sublist (List.Sublist.append_left (List.sublist_cons_self _ _) _)
  | publishedAll published =>
    have hheld : (Phase.marking published []).held = (Phase.publishing [] published).held :=
      (List.append_nil _).symm
    refine ⟨h.writes, hheld ▸ h.held, nofun, ?_, h.published, nofun⟩
    rw [hheld]
    exact h.distinct

theorem RelayProgress.taken {id : Text} {skipped : Phase E} (h : RelayProgress v relay phase txn)
    {now : Instant} {rows : List (OutboxMessage E)}
    (hstep : DrainStep relay batchSize now rows phase (.tryLock id phase' skipped))
    (locals : Locals E) : RelayProgress v relay phase' ⟨locals, txn.writes, txn.locks ++ [id]⟩ := by
  cases hstep with
  | attempted id candidates room pending =>
    refine ⟨h.writes, fun row hrow => ?_, fun _ _ _ _ hlocked => ?_, h.distinct, h.published, nofun⟩
    · obtain ⟨hmem, hopen, hlock⟩ := h.held row hrow
      exact ⟨hmem, hopen, List.mem_append_left _ hlock⟩
    · cases hlocked
      exact List.mem_append_right _ (List.mem_singleton_self _)

theorem RelayProgress.skipped {id : Text} {taken : Phase E} (h : RelayProgress v relay phase txn)
    {now : Instant} {rows : List (OutboxMessage E)}
    (hstep : DrainStep relay batchSize now rows phase (.tryLock id taken phase'))
    (locals : Locals E) : RelayProgress v relay phase' ⟨locals, txn.writes, txn.locks⟩ := by
  cases hstep with
  | attempted id candidates room pending =>
    refine ⟨h.writes, h.held, nofun, ?_, h.published, nofun⟩
    exact h.distinct.sublist (List.Sublist.append_left (List.sublist_cons_self _ _) _)

theorem RelayProgress.called {publication : Publication E} (h : RelayProgress v relay phase txn)
    {now : Instant} {rows : List (OutboxMessage E)}
    (hstep : DrainStep relay batchSize now rows phase (.call phase' publication))
    (locals : Locals E) :
    RelayProgress { v with effects := v.effects ++ [publication] } relay phase'
      ⟨locals, txn.writes, txn.locks⟩ := by
  cases hstep with
  | published row pending published =>
    have hheld : (Phase.publishing pending (published ++ [(row, now)])).held =
        (Phase.publishing (row :: pending) published).held := by
      simp [Phase.held]
    refine ⟨h.writes, hheld ▸ h.held, nofun, ?_, fun other hother => ?_, nofun⟩
    · rw [hheld]
      exact h.distinct
    · rcases List.mem_append.mp hother with hold | hnew
      · exact List.mem_append_left _ (h.published other hold)
      · rw [List.mem_singleton.mp hnew]
        exact List.mem_append_right _ (List.mem_singleton_self _)

theorem RelayProgress.wrote {write : Write E} (h : RelayProgress v relay phase txn)
    {now : Instant} {rows : List (OutboxMessage E)}
    (hstep : DrainStep relay batchSize now rows phase (.write phase' write)) (locals : Locals E) :
    RelayProgress v relay phase' ⟨locals, txn.writes ++ [write], txn.locks ++ write.keys⟩ := by
  cases hstep with
  | marked row rest marked =>
    have hheld : (Phase.marking rest (marked ++ [row])).held =
        (Phase.marking (row :: rest) marked).held := by
      simp [Phase.held]
    have hpublished : (Phase.marking rest (marked ++ [row])).published =
        (Phase.marking (row :: rest) marked).published := by
      simp [Phase.published]
    refine ⟨?_, fun held hmem => ?_, nofun, ?_, hpublished ▸ h.published, nofun⟩
    · rw [h.writes]
      change marked.map dispatchOf ++ [row].map dispatchOf = (marked ++ [row]).map dispatchOf
      exact List.map_append.symm
    · obtain ⟨hrow, hopen, hlock⟩ := h.held held (hheld ▸ hmem)
      exact ⟨hrow, hopen, List.mem_append_left _ hlock⟩
    · rw [hheld]
      exact h.distinct

theorem Published.mono {row : OutboxMessage E} {effects : List (Publication E)}
    (h : Published v row) : Published { v with effects := v.effects ++ effects } row := by
  obtain ⟨publication, hmem, hsame⟩ := h
  exact ⟨publication, List.mem_append_left _ hmem, hsame⟩

theorem RelayProgress.publish_kept (h : RelayProgress v relay phase txn) (hkept : Kept v)
    (hrest : phase.marked = phase.published) : Kept (publish (relays E) txn v) := by
  constructor
  · rw [publish, h.view_eq, map_id_afterMarks]
    exact hkept.keys
  · intro after hafter hdispatched
    rw [publish, h.view_eq] at hafter
    obtain ⟨row, hrow, rfl⟩ := List.mem_map.mp hafter
    obtain ⟨hqueue, henvelope⟩ := afterMarks_content phase.marked row
    have hpublished : Published v row := by
      rcases (afterMarks_dispatched phase.marked row).mp hdispatched with hold | hmarked
      · exact hkept.dispatched row hrow hold
      · obtain ⟨mark, hmark, hid⟩ := List.mem_map.mp hmarked
        have hheld : mark.1 ∈ phase.held := by
          cases phase with
          | marking rest marked => exact List.mem_append_left _ (List.mem_map_of_mem hmark)
          | _ => cases hmark
        obtain rfl := List.inj_on_of_nodup_map hkept.keys (h.held _ hheld).1 hrow hid
        exact ⟨_, h.published mark (hrest ▸ hmark), rfl, rfl, rfl⟩
    obtain ⟨publication, hmem, hid, hsameQueue, hsameEnvelope⟩ := hpublished
    exact ⟨publication, hmem, hid.trans (afterMarks_id ..).symm, hsameQueue.trans hqueue.symm,
      hsameEnvelope.trans henvelope.symm⟩

theorem RelayProgress.publish_relay (h : RelayProgress v relay phase txn) {other : OutboxTxn E}
    {otherRelay : Text} {otherPhase : Phase E}
    (hother : RelayProgress v otherRelay otherPhase other) (hapart : Apart (relays E) txn other) :
    RelayProgress (publish (relays E) txn v) otherRelay otherPhase other := by
  refine ⟨hother.writes, fun row hrow => ?_, hother.locked, hother.distinct, hother.published,
    hother.drains⟩
  obtain ⟨hmem, hopen, hlock⟩ := hother.held row hrow
  refine ⟨?_, hopen, hlock⟩
  have hunmarked : row.id ∉ phase.marked.map fun mark => mark.1.id := by
    intro hmarked
    obtain ⟨mark, hmark, hid⟩ := List.mem_map.mp hmarked
    have hwrite : dispatchOf mark ∈ txn.writes := h.writes ▸ List.mem_map_of_mem hmark
    exact hapart _ hwrite mark.1.id (List.mem_singleton_self _) (hid ▸ hlock)
  rw [publish, h.view_eq]
  exact List.mem_map.mpr ⟨row, hmem, afterMarks_other hunmarked⟩

theorem RelayProgress.publish_producer (h : RelayProgress v relay phase txn) {other : OutboxTxn E}
    {rows : List (OutboxMessage E)} (hother : ProducerProgress v other rows) :
    ProducerProgress (publish (relays E) txn v) other rows := by
  refine ⟨hother.writes, hother.locks, ?_, hother.undispatched⟩
  rw [publish, h.view_eq, List.map_append, map_id_afterMarks, ← List.map_append]
  exact hother.keys

end Relays

section Producers

variable {rows : List (OutboxMessage E)}

theorem ProducerProgress.publish_kept (h : ProducerProgress v txn rows) (hkept : Kept v) :
    Kept (publish (relays E) txn v) := by
  constructor
  · rw [publish, h.view_eq]
    exact h.keys
  · intro row hrow hdispatched
    rw [publish, h.view_eq] at hrow
    rcases List.mem_append.mp hrow with hold | hnew
    · exact hkept.dispatched row hold hdispatched
    · rw [h.undispatched row hnew] at hdispatched
      cases hdispatched

theorem ProducerProgress.publish_relay (h : ProducerProgress v txn rows) {other : OutboxTxn E}
    {relay : Text} {phase : Phase E} (hother : RelayProgress v relay phase other) :
    RelayProgress (publish (relays E) txn v) relay phase other := by
  refine ⟨hother.writes, fun row hrow => ?_, hother.locked, hother.distinct, hother.published,
    hother.drains⟩
  obtain ⟨hmem, hopen, hlock⟩ := hother.held row hrow
  refine ⟨?_, hopen, hlock⟩
  rw [publish, h.view_eq]
  exact List.mem_append_left _ hmem

theorem ProducerProgress.publish_producer (h : ProducerProgress v txn rows) {other : OutboxTxn E}
    {otherRows : List (OutboxMessage E)} (hother : ProducerProgress v other otherRows)
    (hapart : Apart (relays E) txn other) :
    ProducerProgress (publish (relays E) txn v) other otherRows := by
  refine ⟨hother.writes, hother.locks, ?_, hother.undispatched⟩
  have hkeys := hother.keys
  rw [publish, h.view_eq]
  rw [List.map_append] at hkeys ⊢
  apply List.Nodup.append h.keys hkeys.of_append_right
  intro id hseen hnew
  rw [List.map_append] at hseen
  rcases List.mem_append.mp hseen with hcommitted | hown
  · exact List.disjoint_of_nodup_append hkeys hcommitted hnew
  · obtain ⟨row, hrow, rfl⟩ := List.mem_map.mp hown
    have hwrite : .addMessage row ∈ txn.writes := h.writes ▸ List.mem_map_of_mem hrow
    exact hapart _ hwrite row.id (List.mem_singleton_self _) (hother.locks ▸ hnew)

theorem ProducerProgress.wrote (h : ProducerProgress v txn rows) {row : OutboxMessage E}
    (hopen : row.dispatched = false)
    (hvalid : Write.violates (view (relays E) txn v.committed) (.addMessage row) = false)
    (locals : Locals E) :
    ProducerProgress v ⟨locals, txn.writes ++ [.addMessage row], txn.locks ++ [row.id]⟩
      (rows ++ [row]) := by
  refine ⟨?_, ?_, ?_, fun other hother => ?_⟩
  · rw [h.writes, List.map_append, List.map_singleton]
  · rw [h.locks, List.map_append, List.map_singleton]
  · rw [← List.append_assoc]
    have hfresh := of_decide_eq_false hvalid
    rw [h.view_eq] at hfresh
    exact Rows.nodup_append_row h.keys hfresh
  · rcases List.mem_append.mp hother with hold | hnew
    · exact h.undispatched other hold
    · rw [List.mem_singleton.mp hnew]
      exact hopen

end Producers

theorem Progress.publish (h : Progress v txn) {other : OutboxTxn E} (hother : Progress v other)
    (hapart : Apart (relays E) txn other) : Progress (publish (relays E) txn v) other := by
  unfold Progress at h hother ⊢
  split at h
  · split at hother
    · exact h.publish_relay hother hapart
    · obtain ⟨rows, hrows⟩ := hother
      exact ⟨rows, h.publish_producer hrows⟩
  · obtain ⟨rows, hrows⟩ := h
    split at hother
    · exact hrows.publish_relay hother
    · obtain ⟨otherRows, hotherRows⟩ := hother
      exact ⟨otherRows, hrows.publish_producer hotherRows hapart⟩

section Requests

variable {relay : Text} {batchSize : Nat} {phase : Phase E} {messages : List (NewMessage E)}
variable {writes : List (Write E)} {locks : List Text}

theorem nextStatement_drain :
    nextStatement (relays E) ⟨⟨.drain relay batchSize, phase⟩, writes, locks⟩ v =
      (drainStatement relay batchSize v.now
        (view (relays E) ⟨⟨.drain relay batchSize, phase⟩, writes, locks⟩ v.committed) phase).mapLocals
          fun phase => ⟨.drain relay batchSize, phase⟩ := rfl

theorem nextStatement_produce :
    nextStatement (relays E) ⟨⟨.produce messages, phase⟩, writes, locks⟩ v =
      (produceStatement messages v.now phase).mapLocals fun phase => ⟨.produce messages, phase⟩ := rfl

theorem relays_guarantee : Guarantee (relays E) Kept Progress fun _ _ => True where
  begins v request hkept := by
    cases request with
    | drain relay batchSize => exact ⟨rfl, (fun _ h => nomatch h), nofun, List.nodup_nil,
        (fun _ h => nomatch h), nofun⟩
    | produce messages =>
      refine ⟨[], rfl, rfl, ?_, fun _ h => nomatch h⟩
      rw [List.append_nil]
      exact hkept.keys
  reads v txn locals hkept h hnext := by
    obtain ⟨⟨request, phase⟩, writes, locks⟩ := txn
    cases request with
    | drain relay batchSize =>
      rw [nextStatement_drain] at hnext
      obtain ⟨phase', hinner, rfl⟩ := Statement.mapLocals_next hnext
      exact RelayProgress.next h hkept (hinner ▸ drainStatement_cases ..) _
    | produce messages =>
      rw [nextStatement_produce] at hnext
      obtain ⟨phase', hinner, rfl⟩ := Statement.mapLocals_next hnext
      obtain ⟨rows, hrows⟩ := h
      exact ⟨rows, hrows.writes, hrows.locks, hrows.keys, hrows.undispatched⟩
  writes v txn locals write hkept h hnext hvalid := by
    obtain ⟨⟨request, phase⟩, writes, locks⟩ := txn
    cases request with
    | drain relay batchSize =>
      rw [nextStatement_drain] at hnext
      obtain ⟨phase', hinner, rfl⟩ := Statement.mapLocals_write hnext
      exact RelayProgress.wrote h (hinner ▸ drainStatement_cases ..) _
    | produce messages =>
      rw [nextStatement_produce] at hnext
      obtain ⟨phase', hinner, rfl⟩ := Statement.mapLocals_write hnext
      obtain ⟨rows, hrows⟩ := h
      cases phase with
      | producing rest =>
        cases rest with
        | nil => cases hinner
        | cons message rest =>
          cases hinner
          exact ⟨_, hrows.wrote rfl hvalid _⟩
      | _ => cases hinner
  locks v txn key taken skipped hkept h hnext := by
    obtain ⟨⟨request, phase⟩, writes, locks⟩ := txn
    cases request with
    | drain relay batchSize =>
      rw [nextStatement_drain] at hnext
      obtain ⟨phaseTaken, phaseSkipped, hinner, rfl, rfl⟩ := Statement.mapLocals_tryLock hnext
      exact ⟨RelayProgress.taken h (hinner ▸ drainStatement_cases ..) _,
        RelayProgress.skipped h (hinner ▸ drainStatement_cases ..) _⟩
    | produce messages =>
      rw [nextStatement_produce] at hnext
      obtain ⟨phaseTaken, phaseSkipped, hinner, rfl, rfl⟩ := Statement.mapLocals_tryLock hnext
      cases phase with
      | producing rest => cases rest <;> cases hinner
      | _ => cases hinner
  calls v txn locals publication hkept h hnext := by
    have hothers : ∀ other, Progress v other →
        Progress { v with effects := v.effects ++ [publication] } other := by
      intro other hother
      unfold Progress at hother ⊢
      split at hother
      · exact ⟨hother.writes, hother.held, hother.locked, hother.distinct,
          fun row hrow => List.mem_append_left _ (hother.published row hrow), hother.drains⟩
      · obtain ⟨rows, hrows⟩ := hother
        exact ⟨rows, hrows.writes, hrows.locks, hrows.keys, hrows.undispatched⟩
    refine ⟨⟨hkept.keys, fun row hrow hdispatched => ?_⟩, ?_, hothers⟩
    · exact (hkept.dispatched row hrow hdispatched).mono
    · obtain ⟨⟨request, phase⟩, writes, locks⟩ := txn
      cases request with
      | drain relay batchSize =>
        rw [nextStatement_drain] at hnext
        obtain ⟨phase', hinner, rfl⟩ := Statement.mapLocals_call hnext
        exact RelayProgress.called h (hinner ▸ drainStatement_cases ..) _
      | produce messages =>
        rw [nextStatement_produce] at hnext
        obtain ⟨phase', hinner, rfl⟩ := Statement.mapLocals_call hnext
        cases phase with
        | producing rest => cases rest <;> cases hinner
        | _ => cases hinner
  commits v txn hkept h hdone _ := by
    refine ⟨?_, fun other hother hapart => h.publish hother hapart⟩
    obtain ⟨⟨request, phase⟩, writes, locks⟩ := txn
    cases request with
    | drain relay batchSize =>
      rw [nextStatement_drain] at hdone
      have hstep := drainStatement_cases relay batchSize v.now
        (view (relays E) ⟨⟨.drain relay batchSize, phase⟩, writes, locks⟩ v.committed) phase
      rw [Statement.mapLocals_done hdone] at hstep
      refine RelayProgress.publish_kept h hkept ?_
      cases hstep with
      | drained marked => exact (List.append_nil _).symm
    | produce messages =>
      obtain ⟨rows, hrows⟩ := h
      exact hrows.publish_kept hkept
  advances v now hnow hkept := by
    refine ⟨⟨hkept.keys, hkept.dispatched⟩, fun other hother => ?_⟩
    unfold Progress at hother ⊢
    split at hother
    · exact ⟨hother.writes, hother.held, hother.locked, hother.distinct, hother.published,
        hother.drains⟩
    · obtain ⟨rows, hrows⟩ := hother
      exact ⟨rows, hrows.writes, hrows.locks, hrows.keys, hrows.undispatched⟩

end Requests

end LandRecords.Outbox
