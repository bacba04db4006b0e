import LandRecords.Queue.Bookkeeping
import LandRecords.Queue.ReaderLog
import Mathlib

/-! The in-memory driver refines the log of one consumer per group. -/
namespace LandRecords.Queue.InMemoryQueue

open Text

variable {δ : Type} {q : InMemoryQueue δ} {queue group : Text}

section Deliver

theorem deliver_again {done rest : List (QueueMessage δ)} {message : QueueMessage δ}
    (hpending : q.pending (queue, group) = done ++ message :: rest)
    (hnodup : ((q.pending (queue, group)).map QueueMessage.sequenceId).Nodup) :
    (deliver queue group q (message.sequenceId, message.data)).2.pending (queue, group) =
      done ++ redelivered queue group q (message.sequenceId, message.data) :: rest := by
  rw [hpending, List.map_append, List.map_cons, List.nodup_append] at hnodup
  obtain ⟨-, hrest, hapart⟩ := hnodup
  rw [List.nodup_cons] at hrest
  have hkeep : ∀ other ∈ done ++ rest, other.sequenceId ≠ message.sequenceId := by
    intro other hother hid
    rcases List.mem_append.mp hother with hdone | hlater
    · exact hapart _ (List.mem_map_of_mem hdone) _ List.mem_cons_self hid
    · exact hrest.1 (hid ▸ List.mem_map_of_mem hlater)
  have hsame : ∀ others : List (QueueMessage δ),
      (∀ other ∈ others, other.sequenceId ≠ message.sequenceId) →
      others.map (fun other => if other.sequenceId = message.sequenceId then
        redelivered queue group q (message.sequenceId, message.data) else other) = others := by
    intro others hothers
    refine (List.map_congr_left fun other hother => if_neg (hothers other hother)).trans ?_
    exact List.map_id _
  simp only [deliver, Function.update_self]
  rw [if_pos (by simp [hpending]), hpending, List.map_append, List.map_cons, if_pos rfl]
  congr 1
  · exact hsame done fun other hother => hkeep other (List.mem_append_left _ hother)
  · congr 1
    exact hsame rest fun other hother => hkeep other (List.mem_append_right _ hother)

theorem deliver_ids_again {done rest : List (QueueMessage δ)} {message : QueueMessage δ}
    (hpending : q.pending (queue, group) = done ++ message :: rest)
    (hnodup : ((q.pending (queue, group)).map QueueMessage.sequenceId).Nodup) :
    (((deliver queue group q (message.sequenceId, message.data)).2.pending
      (queue, group)).map QueueMessage.sequenceId).Nodup := by
  rw [deliver_again hpending hnodup]
  rw [hpending] at hnodup
  simpa [redelivered] using hnodup

theorem deliverAll_again {done olds rest : List (QueueMessage δ)}
    (hpending : q.pending (queue, group) = done ++ olds ++ rest)
    (hnodup : ((q.pending (queue, group)).map QueueMessage.sequenceId).Nodup) :
    (deliverAll queue group q (olds.map fun old => (old.sequenceId, old.data))).2.pending
      (queue, group) = done ++ (deliverAll queue group q
        (olds.map fun old => (old.sequenceId, old.data))).1 ++ rest := by
  induction olds generalizing q done with
  | nil => simpa [deliverAll] using hpending
  | cons old olds ih =>
    have hsplit : q.pending (queue, group) = done ++ old :: (olds ++ rest) := by simpa using hpending
    have hnext := deliver_again hsplit hnodup
    have hshifted : (deliver queue group q (old.sequenceId, old.data)).2.pending (queue, group) =
        (done ++ [redelivered queue group q (old.sequenceId, old.data)]) ++ olds ++ rest := by
      simpa using hnext
    have hrest := ih hshifted (deliver_ids_again hsplit hnodup)
    simp only [List.map_cons, deliverAll]
    rw [hrest]
    simp [deliver, redelivered]

theorem deliverAll_new {entries : List (Text × δ)} (hnodup : (entries.map Prod.fst).Nodup)
    (hnew : ∀ entry ∈ entries, entry.1 ∉ (q.pending (queue, group)).map QueueMessage.sequenceId) :
    (deliverAll queue group q entries).2.pending (queue, group) =
      q.pending (queue, group) ++ (deliverAll queue group q entries).1 := by
  induction entries generalizing q with
  | nil => simp [deliverAll]
  | cons entry rest ih =>
    rw [List.map_cons, List.nodup_cons] at hnodup
    have hfirst : (deliver queue group q entry).2.pending (queue, group) =
        q.pending (queue, group) ++ [(deliver queue group q entry).1] := by
      simp only [deliver, Function.update_self]
      rw [if_neg (hnew entry List.mem_cons_self)]
    simp only [deliverAll]
    rw [ih hnodup.2, hfirst, List.append_assoc, List.singleton_append]
    intro other hother
    rw [hfirst, List.map_append, List.mem_append, not_or]
    refine ⟨hnew other (List.mem_cons_of_mem _ hother), fun hmem => hnodup.1 ?_⟩
    have hid : other.1 = entry.1 := by simpa [deliver] using hmem
    exact hid ▸ List.mem_map_of_mem hother

end Deliver

structure Keeps (q : InMemoryQueue δ) (published : Text → List (Text × δ)) (log : ReaderLog δ) :
    Prop where
  invariant : q.Invariant
  streams : ∀ queue, q.streams queue = published queue
  messages : ∀ queue, (published queue).map Prod.snd = log.messages queue
  numbered : ∀ queue, ∃ numbers : List ℕ, numbers.Pairwise (· < ·) ∧
    (∀ n ∈ numbers, n ≤ q.nextSeq) ∧ (published queue).map Prod.fst = numbers.map seqId
  sound : log.Sound
  cursors : ∀ key, q.cursors key = (log.readers key).map Reader.cursor
  pending : ∀ queue group, List.Forall₂ (Names (published queue))
    (log.readerOf queue group).pending (q.pending (queue, group))

variable {published : Text → List (Text × δ)} {log : ReaderLog δ}

theorem keeps_empty : Keeps (empty : InMemoryQueue δ) (fun _ => []) ReaderLog.empty where
  invariant := invariant_empty
  streams _ := rfl
  messages _ := rfl
  numbered _ := ⟨[], .nil, fun _ h => (nomatch h), rfl⟩
  sound := ReaderLog.sound_empty
  cursors _ := rfl
  pending _ _ := .nil

theorem Keeps.publish (h : Keeps q published log) (queue : Text) (message : δ) :
    Keeps (publish queue message q).2 (Function.update published queue
      (published queue ++ [((publish queue message q).1, message)])) (log.publish queue message) where
  invariant := h.invariant.publish queue message
  streams queue' := by
    by_cases hqueue : queue' = queue
    · subst hqueue
      simp [InMemoryQueue.publish, h.streams]
    · simp [InMemoryQueue.publish, hqueue, h.streams]
  messages queue' := by
    by_cases hqueue : queue' = queue
    · subst hqueue
      simp [ReaderLog.publish, h.messages]
    · simp [ReaderLog.publish, hqueue, h.messages]
  numbered queue' := by
    obtain ⟨numbers, hincreasing, hbound, hids⟩ := h.numbered queue'
    by_cases hqueue : queue' = queue
    · subst hqueue
      refine ⟨numbers ++ [q.nextSeq + 1], ?_, ?_, ?_⟩
      · refine List.pairwise_append.mpr ⟨hincreasing, List.pairwise_singleton _ _, ?_⟩
        intro n hn m hm
        have := hbound n hn
        have := List.mem_singleton.mp hm
        omega
      · intro n hn
        rcases List.mem_append.mp hn with hold | hlast
        · exact (hbound n hold).trans (Nat.le_succ _)
        · exact (List.mem_singleton.mp hlast).le
      · simp [InMemoryQueue.publish, hids]
    · refine ⟨numbers, hincreasing, fun n hn => (hbound n hn).trans (Nat.le_succ _), ?_⟩
      simpa [hqueue] using hids
  sound := h.sound.publish queue message
  cursors := h.cursors
  pending queue' group := by
    refine (h.pending queue' group).imp fun place old hname => hname.grow ?_
    by_cases hqueue : queue' = queue
    · subst hqueue
      simp
    · simp [hqueue]

theorem Keeps.ensureGroup (h : Keeps q published log) (queue group : Text) (start : Start) :
    Keeps (ensureGroup queue group start.text q) published (log.ensureGroup queue group start) := by
  have hcursor := h.cursors (queue, group)
  cases hreader : log.readers (queue, group) with
  | some reader =>
    rw [hreader] at hcursor
    unfold InMemoryQueue.ensureGroup ReaderLog.ensureGroup
    rw [hcursor, hreader]
    exact h
  | none =>
    rw [hreader] at hcursor
    have hlength : (q.streams queue).length = (log.messages queue).length := by
      rw [h.streams, ← h.messages, List.length_map]
    obtain ⟨first, hlog, hfirst⟩ : ∃ first : Reader,
        log.ensureGroup queue group start = log.withReader queue group first ∧ first.pending = [] ∧
        (if start.text = "0".toList then 0 else (q.streams queue).length) = first.cursor := by
      unfold ReaderLog.ensureGroup
      rw [hreader]
      cases start with
      | beginning => exact ⟨Reader.start, rfl, rfl, rfl⟩
      | «end» => exact ⟨_, rfl, rfl, hlength⟩
    have hqueue : InMemoryQueue.ensureGroup queue group start.text q =
        { q with cursors := Function.update q.cursors (queue, group) (some first.cursor) } := by
      unfold InMemoryQueue.ensureGroup
      rw [hcursor]
      simp only [Option.map_none, hfirst.2]
    have hsound := h.sound.ensureGroup queue group start
    have hinvariant := h.invariant.ensureGroup queue group start.text
    rw [hlog] at hsound ⊢
    rw [hqueue] at hinvariant ⊢
    refine ⟨hinvariant, h.streams, h.messages, h.numbered, hsound, fun key => ?_, fun queue' group' => ?_⟩
    · by_cases hkey : key = (queue, group)
      · subst hkey
        simp [ReaderLog.withReader]
      · simp only [ReaderLog.withReader, Function.update_of_ne hkey]
        exact h.cursors key
    · by_cases hkey : (queue', group') = (queue, group)
      · obtain ⟨rfl, rfl⟩ := hkey
        have hold := h.pending queue group
        rw [ReaderLog.readerOf, hreader] at hold
        rw [ReaderLog.readerOf_withReader, hfirst.1]
        exact hold
      · rw [ReaderLog.readerOf_withReader_of_ne hkey]
        exact h.pending queue' group'

/-! ## Consuming -/

variable {reader : Reader} {count : ℕ}

theorem Keeps.pending_nil (h : Keeps q published log) :
    q.pending (queue, group) ≠ [] ↔ (log.readerOf queue group).pending ≠ [] := by
  rw [← List.length_pos_iff, ← List.length_pos_iff, (h.pending queue group).length_eq]

theorem Keeps.cursor (h : Keeps q published log)
    (hreader : log.readers (queue, group) = some reader) :
    (q.cursors (queue, group)).getD 0 = reader.cursor ∧ log.readerOf queue group = reader := by
  rw [h.cursors, ReaderLog.readerOf, hreader]
  exact ⟨rfl, rfl⟩

theorem Keeps.unread (h : Keeps q published log)
    (hreader : log.readers (queue, group) = some reader) {entry : Text × δ}
    (hentry : entry ∈ (published queue).drop reader.cursor) :
    q.deliveryCounts (queue, group, entry.1) = 0 ∧
      entry.1 ∉ (q.pending (queue, group)).map QueueMessage.sequenceId := by
  have hzero : q.deliveryCounts (queue, group, entry.1) = 0 := by
    by_contra hne
    have hread := h.invariant.read queue group entry.1 hne
    rw [readIds, h.streams, (h.cursor hreader).1] at hread
    have hdistinct := h.invariant.distinct queue
    rw [h.streams, ← List.take_append_drop reader.cursor (published queue), List.map_append,
      List.nodup_append] at hdistinct
    exact hdistinct.2.2 _ hread _ (List.mem_map_of_mem hentry) rfl
  refine ⟨hzero, fun hmem => ?_⟩
  obtain ⟨message, hmessage, hid⟩ := List.mem_map.mp hmem
  obtain ⟨hpositive, hcount⟩ := h.invariant.counted queue group message hmessage
  rw [hid] at hcount
  omega

/-- The messages that `consume` returns, and the pending ones after it. -/
structure Delivers (q : InMemoryQueue δ) (published : Text → List (Text × δ))
    (reader : Reader) (queue group : Text) (count : ℕ) : Prop where
  names : List.Forall₂ (Names (published queue))
    (reader.read (published queue).length count).1
    (deliverAll queue group (advanced queue group count q) (consumed queue group count q)).1
  pending : List.Forall₂ (Names (published queue))
    (reader.read (published queue).length count).2.pending
    ((deliverAll queue group (advanced queue group count q)
      (consumed queue group count q)).2.pending (queue, group))
  cursor : (advanced queue group count q).cursors =
    Function.update q.cursors (queue, group)
      (some (reader.read (published queue).length count).2.cursor)

theorem Keeps.delivers_again (h : Keeps q published log)
    (hreader : log.readers (queue, group) = some reader) (hpending : reader.pending ≠ []) (count : ℕ) :
    Delivers q published reader queue group count := by
  have hreaderOf := (h.cursor hreader).2
  have hsome : q.pending (queue, group) ≠ [] := h.pending_nil.mpr (hreaderOf ▸ hpending)
  have hnames := h.pending queue group
  rw [hreaderOf] at hnames
  have hmessages : (deliverAll queue group q (consumed queue group count q)).1 =
      ((q.pending (queue, group)).take count).map fun message =>
        { message with deliveryCount := message.deliveryCount + 1 } := by
    rw [deliverAll_messages (consumed_nodup h.invariant), consumed, if_pos hsome, List.map_map]
    refine List.map_congr_left fun message hmessage => ?_
    simp only [Function.comp_apply, redelivered,
      (h.invariant.counted queue group message (List.mem_of_mem_take hmessage)).2]
  have hafter : (deliverAll queue group q (consumed queue group count q)).2.pending (queue, group) =
      (deliverAll queue group q (consumed queue group count q)).1 ++
        (q.pending (queue, group)).drop count := by
    have hsplit : q.pending (queue, group) = [] ++ (q.pending (queue, group)).take count ++
        (q.pending (queue, group)).drop count := by simp
    rw [consumed, if_pos hsome]
    exact deliverAll_again hsplit (h.invariant.keyed queue group)
  have hagain : List.Forall₂ (Names (published queue)) ((reader.pending.take count).map Place.again)
      (deliverAll queue group q (consumed queue group count q)).1 := by
    rw [hmessages, List.forall₂_map_left_iff, List.forall₂_map_right_iff]
    exact (List.forall₂_take count hnames).imp fun place message hname =>
      ⟨hname.1, congrArg (· + 1) hname.2⟩
  have hread : reader.read (published queue).length count =
      ((reader.pending.take count).map Place.again, { reader with
        pending := (reader.pending.take count).map Place.again ++ reader.pending.drop count }) :=
    if_pos hpending
  have hadvanced : advanced queue group count q = q := if_pos hsome
  refine ⟨?_, ?_, ?_⟩
  · rw [hread, hadvanced]
    exact hagain
  · rw [hread, hadvanced, hafter]
    exact List.rel_append hagain (List.forall₂_drop count hnames)
  · rw [hread, hadvanced, eq_comm, Function.update_eq_self_iff, h.cursors, hreader]
    rfl

theorem Keeps.delivers_new (h : Keeps q published log)
    (hreader : log.readers (queue, group) = some reader) (hpending : reader.pending = []) (count : ℕ) :
    Delivers q published reader queue group count := by
  obtain ⟨hcursor, hreaderOf⟩ := h.cursor hreader
  have hnone : ¬ q.pending (queue, group) ≠ [] := by
    rw [h.pending_nil, hreaderOf, not_not]
    exact hpending
  have hconsumed : consumed queue group count q =
      ((published queue).drop reader.cursor).take count := by
    rw [consumed, if_neg hnone, hcursor, h.streams]
  have hlength : (consumed queue group count q).length =
      min count ((published queue).length - reader.cursor) := by
    rw [hconsumed, List.length_take, List.length_drop]
  have hkeepsPending : (advanced queue group count q).pending = q.pending := advanced_frame.2.1
  have hcounts : (advanced queue group count q).deliveryCounts = q.deliveryCounts :=
    advanced_frame.2.2.1
  have hunread : ∀ entry ∈ consumed queue group count q,
      q.deliveryCounts (queue, group, entry.1) = 0 ∧
        entry.1 ∉ (q.pending (queue, group)).map QueueMessage.sequenceId := by
    intro entry hentry
    rw [hconsumed] at hentry
    exact h.unread hreader (List.mem_of_mem_take hentry)
  have hmessages : (deliverAll queue group (advanced queue group count q)
      (consumed queue group count q)).1 = (consumed queue group count q).map fun entry =>
        ⟨entry.1, entry.2, 1⟩ := by
    rw [deliverAll_messages (consumed_nodup h.invariant)]
    refine List.map_congr_left fun entry hentry => ?_
    simp only [redelivered, hcounts, (hunread entry hentry).1]
  have hafter : (deliverAll queue group (advanced queue group count q)
      (consumed queue group count q)).2.pending (queue, group) =
      (deliverAll queue group (advanced queue group count q) (consumed queue group count q)).1 := by
    rw [deliverAll_new (consumed_nodup h.invariant), hkeepsPending, not_not.mp hnone,
      List.nil_append]
    rw [hkeepsPending]
    exact fun entry hentry => (hunread entry hentry).2
  have hread : reader.read (published queue).length count =
      ((List.range' reader.cursor (consumed queue group count q).length).map (Place.mk · 1),
        ⟨reader.cursor + (consumed queue group count q).length,
          (List.range' reader.cursor (consumed queue group count q).length).map (Place.mk · 1)⟩) := by
    rw [Reader.read, if_neg (not_not.mpr hpending), hlength]
    simp
  have hnew : List.Forall₂ (Names (published queue))
      ((List.range' reader.cursor (consumed queue group count q).length).map (Place.mk · 1))
      (deliverAll queue group (advanced queue group count q) (consumed queue group count q)).1 := by
    rw [hmessages, List.forall₂_map_left_iff, List.forall₂_map_right_iff, hconsumed]
    exact (forall₂_places (published queue) reader.cursor count).imp fun index entry hentry =>
      ⟨hentry, rfl⟩
  refine ⟨?_, ?_, ?_⟩
  · rw [hread]
    exact hnew
  · rw [hread, hafter]
    exact hnew
  · rw [hread, advanced, if_neg hnone, hcursor]

theorem Keeps.delivers (h : Keeps q published log)
    (hreader : log.readers (queue, group) = some reader) (count : ℕ) :
    Delivers q published reader queue group count := by
  by_cases hpending : reader.pending = []
  · exact h.delivers_new hreader hpending count
  · exact h.delivers_again hreader hpending count

theorem Keeps.consume (h : Keeps q published log) (queue group consumerName : Text) (count : ℕ) :
    List.Forall₂ (Names (published queue)) (log.consume queue group count).1
        (consume queue group consumerName count q).1 ∧
      Keeps (consume queue group consumerName count q).2 published
        (log.consume queue group count).2 := by
  have hensured := h.ensureGroup queue group .beginning
  rw [ReaderLog.ensureGroup_beginning] at hensured
  have hreader : (log.withReader queue group (log.readerOf queue group)).readers (queue, group) =
      some (log.readerOf queue group) := by
    rw [ReaderLog.readers_withReader, Function.update_self]
  have hdelivers := hensured.delivers hreader count
  have hlength : (published queue).length = (log.messages queue).length := by
    rw [← h.messages, List.length_map]
  obtain ⟨hnames, hpending, hcursor⟩ := hdelivers
  rw [hlength] at hnames hpending hcursor
  have hconsume : InMemoryQueue.consume queue group consumerName count q =
      deliverAll queue group
        (advanced queue group count (InMemoryQueue.ensureGroup queue group Start.beginning.text q))
        (consumed queue group count (InMemoryQueue.ensureGroup queue group Start.beginning.text q)) :=
    consume_eq
  refine ⟨hconsume ▸ hnames, h.invariant.consume, fun queue' => ?_, h.messages, ?_,
    h.sound.consume queue group count, fun key => ?_, fun queue' group' => ?_⟩
  · rw [consume_streams]
    exact h.streams queue'
  · have hseq : (InMemoryQueue.consume queue group consumerName count q).2.nextSeq = q.nextSeq := by
      rw [hconsume, (deliverAll_streams _ _).2.1, advanced_frame.2.2.2]
      exact (ensureGroup_frame queue group _ q).2.2.2
    rw [hseq]
    exact h.numbered
  · rw [hconsume, (deliverAll_streams _ _).2.2, hcursor]
    simp only [ReaderLog.consume, ReaderLog.readers_withReader]
    by_cases hkey : key = (queue, group)
    · subst hkey
      simp
    · have hother := hensured.cursors key
      rw [ReaderLog.readers_withReader, Function.update_of_ne hkey] at hother
      rw [Function.update_of_ne hkey, Function.update_of_ne hkey]
      exact hother
  · by_cases hkey : (queue', group') = (queue, group)
    · obtain ⟨rfl, rfl⟩ := hkey
      simp only [ReaderLog.consume, ReaderLog.readerOf_withReader]
      rw [hconsume]
      exact hpending
    · simp only [ReaderLog.consume, ReaderLog.readerOf_withReader_of_ne hkey]
      rw [consume_other hkey]
      exact h.pending queue' group'

theorem Keeps.ack (h : Keeps q published log) (queue group : Text) {index : ℕ} {entry : Text × δ}
    (hentry : (published queue)[index]? = some entry) :
    Keeps (ack queue group entry.1 q) published (log.ack queue group index) where
  invariant := h.invariant.ack queue group entry.1
  streams := h.streams
  messages queue' := by
    have hmessages : (log.ack queue group index).messages = log.messages := by
      unfold ReaderLog.ack
      split
      · rfl
      · rfl
    rw [hmessages]
    exact h.messages queue'
  numbered := h.numbered
  sound := h.sound.ack queue group index
  cursors key := by
    refine (h.cursors key).trans ?_
    unfold ReaderLog.ack
    split
    · rfl
    · rename_i reader hreader
      rw [ReaderLog.readers_withReader]
      by_cases hkey : key = (queue, group)
      · subst hkey
        simp [hreader, Reader.ack]
      · rw [Function.update_of_ne hkey]
  pending queue' group' := by
    by_cases hkey : (queue', group') = (queue, group)
    · obtain ⟨rfl, rfl⟩ := hkey
      rw [ReaderLog.readerOf_ack]
      simp only [InMemoryQueue.ack, Function.update_self, Reader.ack]
      have hdistinct := h.invariant.distinct queue
      rw [h.streams] at hdistinct
      refine List.rel_filter (fun place message hname => ?_) (h.pending queue group)
      change decide (place.index ≠ index) = true ↔ decide (message.sequenceId ≠ entry.1) = true
      rw [decide_eq_true_iff, decide_eq_true_iff, not_iff_not]
      exact (hname.id_eq_iff hdistinct hentry).symm
    · rw [ReaderLog.readerOf_ack_of_ne hkey]
      simp only [InMemoryQueue.ack, Function.update_of_ne hkey]
      exact h.pending queue' group'

theorem refines (consumerOf : Text × Text → Text) : Refines port consumerOf (Keeps (δ := δ)) where
  publish h queue message := h.publish queue message
  ensureGroup h queue group start := h.ensureGroup queue group start
  consume h queue group count := h.consume queue group (consumerOf (queue, group)) count
  ack h queue group _ _ hentry := h.ack queue group hentry

end LandRecords.Queue.InMemoryQueue
