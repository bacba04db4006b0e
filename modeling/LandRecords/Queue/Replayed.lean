import LandRecords.Queue.Bookkeeping

/-! A replay compared with the first run: the messages after the position come
again, in order, and none of them looks like a retry. The in-memory driver keeps
its delivery counters over a replay. -/
namespace LandRecords.Queue

open Text

section Port

variable {σ δ : Type}

inductive PortCall (δ : Type)
  | publish (queue : Text) (message : δ)
  | consume (queue group : Text) (count : Nat)
  | ack (queue group sequenceId : Text)

namespace QueuePort

variable (port : QueuePort σ δ)

def perform (consumerName : Text) (s : σ) : PortCall δ → σ
  | .publish queue message => (port.publish queue message s).2
  | .consume queue group count => (port.consume queue group consumerName count s).2
  | .ack queue group sequenceId => port.ack queue group sequenceId s

def ackMessages (queue group : Text) (messages : List (QueueMessage δ)) (s : σ) : σ :=
  messages.foldl (fun s message => port.ack queue group message.sequenceId s) s

def consumeAndAck (queue group consumerName : Text) : List Nat → σ → List (QueueMessage δ)
  | [], _ => []
  | count :: rest, s =>
      let consumed := port.consume queue group consumerName count s
      consumed.1 ++ consumeAndAck queue group consumerName rest
        (port.ackMessages queue group consumed.1 consumed.2)

end QueuePort

def positionId (stream : List (Text × δ)) : Nat → Text
  | 0 => "0".toList
  | position + 1 => (stream.map Prod.fst).getD position []

def ReplaysFirstRun (port : QueuePort σ δ) (queue group consumerName : Text)
    (stream : List (Text × δ)) (position : Nat) (s : σ) : Prop :=
  ∀ counts : List Nat,
    port.consumeAndAck queue group consumerName counts
        (port.replayFrom queue group (positionId stream position) s) =
      ((stream.drop position).take counts.sum).map fun entry => ⟨entry.1, entry.2, 1⟩

theorem drop_take_length {α : Type} (l : List α) (count : Nat) :
    l.drop (l.take count).length = l.drop count := by
  rw [List.length_take]
  rcases Nat.le_total count l.length with h | h
  · rw [Nat.min_eq_left h]
  · rw [Nat.min_eq_right h, List.drop_length, List.drop_eq_nil_of_le h]

end Port

namespace InMemoryQueue

variable {δ : Type} {queue group consumerName : Text}

structure ReadingFrom (queue group : Text) (position : Nat) (q : InMemoryQueue δ) : Prop where
  pending : q.pending (queue, group) = []
  cursor : q.cursors (queue, group) = some position

theorem deliver_counts_other {q : InMemoryQueue δ} {entry : Text × δ} {id : Text}
    (hne : id ≠ entry.1) : (deliver queue group q entry).2.deliveryCounts (queue, group, id) =
      q.deliveryCounts (queue, group, id) := by
  have hkey : (queue, group, id) ≠ (queue, group, entry.1) := fun heq =>
    hne (Prod.ext_iff.mp (Prod.ext_iff.mp heq).2).2
  simp only [deliver, Function.update_of_ne hkey]

theorem deliverAll_counts_other {entries : List (Text × δ)} {id : Text} (q : InMemoryQueue δ)
    (hfresh : id ∉ entries.map Prod.fst) :
    (deliverAll queue group q entries).2.deliveryCounts (queue, group, id) =
      q.deliveryCounts (queue, group, id) := by
  induction entries generalizing q with
  | nil => rfl
  | cons entry rest ih =>
    rw [List.map_cons, List.mem_cons, not_or] at hfresh
    exact (ih _ hfresh.2).trans (deliver_counts_other hfresh.1)

theorem ackMessages_frame (queue group : Text) (messages : List (QueueMessage δ))
    (q : InMemoryQueue δ) :
    (port.ackMessages queue group messages q).streams = q.streams ∧
      (port.ackMessages queue group messages q).cursors = q.cursors ∧
      (port.ackMessages queue group messages q).deliveryCounts = q.deliveryCounts ∧
      (port.ackMessages queue group messages q).pending (queue, group) =
        (q.pending (queue, group)).filter fun pending =>
          pending.sequenceId ∉ messages.map QueueMessage.sequenceId := by
  induction messages generalizing q with
  | nil => exact ⟨rfl, rfl, rfl, by simp [QueuePort.ackMessages]⟩
  | cons message rest ih =>
    obtain ⟨hstreams, hcursors, hcounts, hpending⟩ :=
      ih (ack queue group message.sequenceId q)
    refine ⟨hstreams, hcursors, hcounts, hpending.trans ?_⟩
    simp only [ack, Function.update_self, List.filter_filter, List.map_cons, List.mem_cons, not_or]
    refine List.filter_congr fun pending _ => ?_
    simp [Bool.and_comm]

section Round

variable {q : InMemoryQueue δ} {position : Nat}

def withCursor (queue group : Text) (next : Nat) (q : InMemoryQueue δ) : InMemoryQueue δ :=
  { q with cursors := Function.update q.cursors (queue, group) (some next) }

theorem ReadingFrom.consume_eq (h : ReadingFrom queue group position q) (count : Nat) :
    let batch := ((q.streams queue).drop position).take count
    consume queue group consumerName count q =
      deliverAll queue group (withCursor queue group (position + batch.length) q) batch := by
  have hensured : ensureGroup queue group "0".toList q = q := by
    unfold ensureGroup
    rw [h.cursor]
  have hempty : ¬q.pending (queue, group) ≠ [] := not_not.mpr h.pending
  intro batch
  rw [InMemoryQueue.consume_eq, hensured]
  simp only [advanced, consumed, if_neg hempty, h.cursor, Option.getD_some]
  rfl

/-- A call of a group without pending messages returns the next entries, and leaves
nothing pending once they are acked. -/
theorem ReadingFrom.round (h : ReadingFrom queue group position q)
    (hdistinct : ((q.streams queue).map Prod.fst).Nodup) (consumerName : Text) (count : Nat) :
    let batch := ((q.streams queue).drop position).take count
    let delivered := consume queue group consumerName count q
    let next := port.ackMessages queue group delivered.1 delivered.2
    delivered.1 = batch.map (redelivered queue group q) ∧
      ReadingFrom queue group (position + batch.length) next ∧
      next.streams = q.streams ∧
      ∀ id ∉ batch.map Prod.fst,
        next.deliveryCounts (queue, group, id) = q.deliveryCounts (queue, group, id) := by
  intro batch delivered next
  have hbatch : (batch.map Prod.fst).Nodup := hdistinct.sublist
    (((List.take_sublist _ _).trans (List.drop_sublist _ _)).map _)
  have hdelivered : delivered =
      deliverAll queue group (withCursor queue group (position + batch.length) q) batch :=
    h.consume_eq count
  obtain ⟨hstreams, hcursors, hcounts, hpending⟩ :=
    ackMessages_frame queue group delivered.1 delivered.2
  obtain ⟨hkeptStreams, -, hkeptCursors⟩ :=
    deliverAll_streams (withCursor queue group (position + batch.length) q) batch
  rw [← hdelivered] at hkeptStreams hkeptCursors
  refine ⟨?_, ⟨?_, ?_⟩, hstreams.trans hkeptStreams, fun id hfresh => ?_⟩
  · rw [hdelivered, deliverAll_messages hbatch]
    rfl
  · refine hpending.trans (List.filter_eq_nil_iff.mpr fun message hmessage => ?_)
    rw [hdelivered] at hmessage
    rcases mem_pending_deliverAll hmessage with hmem | hmem
    · rw [← hdelivered] at hmem
      simpa using ⟨message, hmem, rfl⟩
    · rw [show (withCursor queue group (position + batch.length) q).pending = q.pending from rfl,
        h.pending] at hmem
      exact absurd hmem List.not_mem_nil
  · rw [hcursors, hkeptCursors]
    exact Function.update_self ..
  · rw [hcounts, hdelivered]
    exact deliverAll_counts_other _ hfresh

theorem ReadingFrom.consumeAndAck (h : ReadingFrom queue group position q)
    (hdistinct : ((q.streams queue).map Prod.fst).Nodup) (counts : List Nat) :
    port.consumeAndAck queue group consumerName counts q =
      (((q.streams queue).drop position).take counts.sum).map (redelivered queue group q) := by
  induction counts generalizing q position with
  | nil => simp [QueuePort.consumeAndAck]
  | cons count rest ih =>
    obtain ⟨hmessages, hnext, hstreams, hcounts⟩ := h.round hdistinct consumerName count
    have hrest := ih hnext (by rw [hstreams]; exact hdistinct)
    rw [hstreams, ← List.drop_drop, drop_take_length] at hrest
    rw [List.sum_cons, List.take_add, List.map_append, ← hmessages]
    refine congrArg _ (hrest.trans (List.map_congr_left fun entry hentry => ?_))
    -- an entry of a later batch has another id than those of this one
    have hfresh : entry.1 ∉ (((q.streams queue).drop position).take count).map Prod.fst := by
      have hsuffix := hdistinct.sublist ((List.drop_sublist position _).map Prod.fst)
      rw [← List.take_append_drop count ((q.streams queue).drop position), List.map_append,
        List.nodup_append] at hsuffix
      exact fun hmem => hsuffix.2.2 _ hmem _
        (List.mem_map_of_mem (List.mem_of_mem_take hentry)) rfl
    simp only [redelivered, hcounts entry.1 hfresh]

end Round

theorem replayFrom_reading {q : InMemoryQueue δ} {position : Nat}
    (hdistinct : ((q.streams queue).map Prod.fst).Nodup)
    (hstart : "0".toList ∉ (q.streams queue).map Prod.fst)
    (hposition : position ≤ (q.streams queue).length) :
    ReadingFrom queue group position
      (replayFrom queue group (positionId (q.streams queue) position) q) := by
  refine ⟨Function.update_self .., (Function.update_self ..).trans (congrArg some ?_)⟩
  cases position with
  | zero =>
    have hnone : (q.streams queue).findIdx?
        (fun entry => decide (entry.1 = positionId (q.streams queue) 0)) = none := by
      rw [List.findIdx?_eq_none_iff]
      intro entry hentry
      exact decide_eq_false fun hid : entry.1 = "0".toList =>
        hstart (hid ▸ List.mem_map_of_mem hentry)
    rw [hnone]
  | succ position =>
    have hlt : position < (q.streams queue).length := hposition
    have hid : positionId (q.streams queue) (position + 1) = (q.streams queue)[position].1 := by
      simp [positionId, hlt]
    have hfound : (q.streams queue).findIdx?
        (fun entry => decide (entry.1 = positionId (q.streams queue) (position + 1))) =
          some position := by
      rw [List.findIdx?_eq_some_iff_getElem]
      refine ⟨hlt, decide_eq_true hid.symm, fun earlier hearlier => ?_⟩
      rw [hid, decide_eq_true_eq]
      intro hsame
      have hlast : position < ((q.streams queue).map Prod.fst).length := by simpa using hlt
      have hfirst : earlier < ((q.streams queue).map Prod.fst).length := hearlier.trans hlast
      have hids : ((q.streams queue).map Prod.fst)[earlier] =
          ((q.streams queue).map Prod.fst)[position] := by
        rw [List.getElem_map, List.getElem_map, hsame]
      exact absurd (hdistinct.getElem_inj_iff.mp hids) hearlier.ne
    rw [hfound]

/-- Entry ids start behind the one that stands for the start of a stream. -/
structure Counted (q : InMemoryQueue δ) : Prop where
  invariant : q.Invariant
  started : ∀ queue, "0".toList ∉ (q.streams queue).map Prod.fst

theorem Counted.perform {q : InMemoryQueue δ} (h : q.Counted) (consumerName : Text)
    (c : PortCall δ) : (port.perform consumerName q c).Counted := by
  cases c with
  | publish name message =>
    refine ⟨h.invariant.publish name message, fun queue => ?_⟩
    have hnew : seqId (q.nextSeq + 1) ≠ seqId 0 := fun heq => by
      have := seqId_injective heq
      omega
    simp only [QueuePort.perform, port, publish]
    by_cases hqueue : queue = name
    · subst hqueue
      rw [Function.update_self, List.map_append, List.mem_append, not_or]
      exact ⟨h.started queue, fun hmem => hnew (List.mem_singleton.mp hmem).symm⟩
    · rw [Function.update_of_ne hqueue]
      exact h.started queue
  | consume queue group count =>
    have hinvariant : (InMemoryQueue.consume queue group consumerName count q).2.Invariant :=
      h.invariant.consume
    refine ⟨hinvariant, fun name => ?_⟩
    simp only [QueuePort.perform, port]
    rw [consume_streams]
    exact h.started name
  | ack queue group sequenceId => exact ⟨h.invariant.ack queue group sequenceId, h.started⟩

theorem counted_calls (consumerName : Text) (calls : List (PortCall δ)) :
    (calls.foldl (port.perform consumerName) (empty : InMemoryQueue δ)).Counted := by
  have hempty : (empty : InMemoryQueue δ).Counted := ⟨invariant_empty, fun _ => List.not_mem_nil⟩
  revert hempty
  generalize (empty : InMemoryQueue δ) = q
  induction calls generalizing q with
  | nil => exact id
  | cons c rest ih => exact fun h => ih _ (h.perform consumerName c)

theorem Counted.replaysFirstRun_iff {q : InMemoryQueue δ} (h : q.Counted) {position : Nat}
    (hposition : position ≤ (q.streams queue).length) :
    ReplaysFirstRun port queue group consumerName (q.streams queue) position q ↔
      ∀ entry ∈ (q.streams queue).drop position,
        q.deliveryCounts (queue, group, entry.1) = 0 := by
  have hdistinct := h.invariant.distinct queue
  have hreading : ReadingFrom queue group position
      (replayFrom queue group (positionId (q.streams queue) position) q) :=
    replayFrom_reading hdistinct (h.started queue) hposition
  have hcalls (counts : List Nat) : port.consumeAndAck queue group consumerName counts
      (replayFrom queue group (positionId (q.streams queue) position) q) =
        (((q.streams queue).drop position).take counts.sum).map (redelivered queue group q) :=
    hreading.consumeAndAck hdistinct counts
  constructor
  · intro hreplays entry hentry
    have hall := hreplays [((q.streams queue).drop position).length]
    rw [show port.replayFrom = replayFrom from rfl, hcalls, List.sum_singleton,
      List.take_length] at hall
    have hmessage := List.map_inj_left.mp hall entry hentry
    simpa [redelivered] using hmessage
  · intro hzero counts
    rw [show port.replayFrom = replayFrom from rfl, hcalls]
    refine List.map_congr_left fun entry hentry => ?_
    simp [redelivered, hzero entry (List.mem_of_mem_take hentry)]

end InMemoryQueue

end LandRecords.Queue
