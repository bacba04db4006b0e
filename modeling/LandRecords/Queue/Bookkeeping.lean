import LandRecords.Queue.InMemory
import Std.Data.String.ToNat
import Mathlib

/-! What the in-memory driver keeps track of while no group is replayed: entry ids
are distinct, counters belong to entries that were read, and a pending message
carries its counter. -/
namespace LandRecords.Queue.InMemoryQueue

open Text

variable {δ : Type}

theorem seqId_injective : Function.Injective seqId := by
  intro m n h
  exact Nat.repr_injective (String.toList_injective h)

def readIds (queue group : Text) (q : InMemoryQueue δ) : List Text :=
  ((q.streams queue).take ((q.cursors (queue, group)).getD 0)).map Prod.fst

structure Invariant (q : InMemoryQueue δ) : Prop where
  numbered : ∀ queue, ∀ entry ∈ q.streams queue, ∃ k ≤ q.nextSeq, entry.1 = seqId k
  distinct : ∀ queue, ((q.streams queue).map Prod.fst).Nodup
  read : ∀ queue group id, q.deliveryCounts (queue, group, id) ≠ 0 → id ∈ q.readIds queue group
  counted : ∀ queue group, ∀ message ∈ q.pending (queue, group), 1 ≤ message.deliveryCount ∧
    q.deliveryCounts (queue, group, message.sequenceId) = message.deliveryCount
  keyed : ∀ queue group, ((q.pending (queue, group)).map QueueMessage.sequenceId).Nodup

theorem invariant_empty : Invariant (empty : InMemoryQueue δ) where
  numbered _ _ h := absurd h List.not_mem_nil
  distinct _ := List.nodup_nil
  read _ _ _ h := absurd rfl h
  counted _ _ _ h := absurd h List.not_mem_nil
  keyed _ _ := List.nodup_nil

theorem Invariant.publish {q : InMemoryQueue δ} (h : q.Invariant) (name : Text) (message : δ) :
    (publish name message q).2.Invariant where
  numbered queue entry hentry := by
    by_cases hqueue : queue = name
    · subst hqueue
      simp only [InMemoryQueue.publish, Function.update_self, List.mem_append,
        List.mem_singleton] at hentry ⊢
      rcases hentry with hentry | rfl
      · obtain ⟨k, hk, hid⟩ := h.numbered queue entry hentry
        exact ⟨k, by omega, hid⟩
      · exact ⟨q.nextSeq + 1, Nat.le_refl _, rfl⟩
    · simp only [InMemoryQueue.publish, Function.update_of_ne hqueue] at hentry ⊢
      obtain ⟨k, hk, hid⟩ := h.numbered queue entry hentry
      exact ⟨k, by omega, hid⟩
  distinct queue := by
    by_cases hqueue : queue = name
    · subst hqueue
      have hfresh : seqId (q.nextSeq + 1) ∉ (q.streams queue).map Prod.fst := by
        intro hmem
        obtain ⟨entry, hentry, hid⟩ := List.mem_map.mp hmem
        obtain ⟨k, hk, hnumber⟩ := h.numbered queue entry hentry
        have := seqId_injective (hnumber.symm.trans hid)
        omega
      simp only [InMemoryQueue.publish, Function.update_self, List.map_append, List.map_cons,
        List.map_nil]
      exact List.concat_eq_append ▸ List.Nodup.concat hfresh (h.distinct queue)
    · simp only [InMemoryQueue.publish, Function.update_of_ne hqueue]
      exact h.distinct queue
  read queue group id hcount := by
    have hread := h.read queue group id hcount
    by_cases hqueue : queue = name
    · subst hqueue
      simp only [readIds, InMemoryQueue.publish, Function.update_self] at hread ⊢
      exact List.map_subset _ (List.IsPrefix.take (List.prefix_append _ _) _).subset hread
    · simpa only [readIds, InMemoryQueue.publish, Function.update_of_ne hqueue] using hread
  counted := h.counted
  keyed := h.keyed

theorem Invariant.ack {q : InMemoryQueue δ} (h : q.Invariant) (name group sequenceId : Text) :
    (ack name group sequenceId q).Invariant where
  numbered := h.numbered
  distinct := h.distinct
  read := h.read
  counted queue other message hmessage := by
    by_cases hkey : (queue, other) = (name, group)
    · simp only [InMemoryQueue.ack, hkey, Function.update_self] at hmessage
      rw [← hkey] at hmessage
      exact h.counted queue other message (List.mem_of_mem_filter hmessage)
    · simp only [InMemoryQueue.ack, Function.update_of_ne hkey] at hmessage
      exact h.counted queue other message hmessage
  keyed queue other := by
    by_cases hkey : (queue, other) = (name, group)
    · simp only [InMemoryQueue.ack, hkey, Function.update_self]
      exact (h.keyed name group).sublist (List.filter_sublist.map _)
    · simp only [InMemoryQueue.ack, Function.update_of_ne hkey]
      exact h.keyed queue other

theorem Invariant.ensureGroup {q : InMemoryQueue δ} (h : q.Invariant) (name group start : Text) :
    (ensureGroup name group start q).Invariant := by
  unfold InMemoryQueue.ensureGroup
  split
  · exact h
  · next hnone =>
    refine { h with read := ?_ }
    intro queue other id hcount
    have hread := h.read queue other id hcount
    by_cases hkey : (queue, other) = (name, group)
    · simp [readIds, hkey, hnone] at hread
    · simpa only [readIds, Function.update_of_ne hkey] using hread

section Deliver

variable {queue group : Text}

def redelivered (queue group : Text) (q : InMemoryQueue δ) (entry : Text × δ) : QueueMessage δ :=
  ⟨entry.1, entry.2, q.deliveryCounts (queue, group, entry.1) + 1⟩

theorem mem_pending_deliver {q : InMemoryQueue δ} {entry : Text × δ} {message : QueueMessage δ} :
    message ∈ (deliver queue group q entry).2.pending (queue, group) ↔
      message = redelivered queue group q entry ∨
        message ∈ q.pending (queue, group) ∧ message.sequenceId ≠ entry.1 := by
  simp only [deliver, Function.update_self]
  split
  · next hpending =>
    obtain ⟨old, hold, hid⟩ := List.mem_map.mp hpending
    constructor
    · intro hmem
      obtain ⟨other, hother, rfl⟩ := List.mem_map.mp hmem
      split
      · exact .inl rfl
      · next hne => exact .inr ⟨hother, hne⟩
    · rintro (rfl | ⟨hmem, hne⟩)
      · exact List.mem_map.mpr ⟨old, hold, if_pos hid⟩
      · exact List.mem_map.mpr ⟨message, hmem, if_neg hne⟩
  · next hpending =>
    rw [List.mem_append, List.mem_singleton, or_comm]
    refine or_congr_right (iff_self_and.mpr fun hmem hid => hpending ?_)
    exact List.mem_map.mpr ⟨message, hmem, hid⟩

theorem deliver_other {q : InMemoryQueue δ} {entry : Text × δ} {key : Text × Text}
    (hkey : key ≠ (queue, group)) :
    (deliver queue group q entry).2.pending key = q.pending key :=
  Function.update_of_ne hkey _ _

theorem Invariant.deliver {q : InMemoryQueue δ} (h : q.Invariant) {entry : Text × δ}
    (hread : entry.1 ∈ q.readIds queue group) : (deliver queue group q entry).2.Invariant where
  numbered := h.numbered
  distinct := h.distinct
  read name other id hcount := by
    by_cases hkey : (name, other, id) = (queue, group, entry.1)
    · obtain ⟨rfl, rfl, rfl⟩ := hkey
      exact hread
    · simp only [InMemoryQueue.deliver, Function.update_of_ne hkey] at hcount
      exact h.read name other id hcount
  counted name other message hmessage := by
    by_cases hkey : (name, other) = (queue, group)
    · obtain ⟨rfl, rfl⟩ := hkey
      rcases mem_pending_deliver.mp hmessage with rfl | ⟨hmem, hne⟩
      · simp [InMemoryQueue.deliver, redelivered]
      · have hcounted := h.counted queue group message hmem
        simpa [InMemoryQueue.deliver, hne] using hcounted
    · rw [deliver_other hkey] at hmessage
      have hcounted := h.counted name other message hmessage
      have hne : (name, other, message.sequenceId) ≠ (queue, group, entry.1) := by
        intro heq
        simp only [Prod.mk.injEq] at heq
        exact hkey (Prod.ext heq.1 heq.2.1)
      simpa only [InMemoryQueue.deliver, Function.update_of_ne hne] using hcounted
  keyed name other := by
    by_cases hkey : (name, other) = (queue, group)
    · obtain ⟨rfl, rfl⟩ := hkey
      have hkeyed := h.keyed queue group
      simp only [InMemoryQueue.deliver, Function.update_self]
      split
      · have hids : ((q.pending (queue, group)).map fun m => if m.sequenceId = entry.1 then
            redelivered queue group q entry else m).map QueueMessage.sequenceId =
            (q.pending (queue, group)).map QueueMessage.sequenceId := by
          rw [List.map_map]
          refine List.map_congr_left fun m _ => ?_
          simp only [Function.comp_apply]
          split
          · next hid => exact hid.symm
          · rfl
        exact hids ▸ hkeyed
      · next hfresh =>
        rw [List.map_append]
        exact List.concat_eq_append ▸ List.Nodup.concat hfresh hkeyed
    · rw [deliver_other hkey]
      exact h.keyed name other

theorem deliverAll_streams (q : InMemoryQueue δ) (entries : List (Text × δ)) :
    (deliverAll queue group q entries).2.streams = q.streams ∧
      (deliverAll queue group q entries).2.nextSeq = q.nextSeq ∧
      (deliverAll queue group q entries).2.cursors = q.cursors := by
  induction entries generalizing q with
  | nil => exact ⟨rfl, rfl, rfl⟩
  | cons entry rest ih => exact ih (deliver queue group q entry).2

theorem deliverAll_other {key : Text × Text} (hkey : key ≠ (queue, group))
    (q : InMemoryQueue δ) (entries : List (Text × δ)) :
    (deliverAll queue group q entries).2.pending key = q.pending key := by
  induction entries generalizing q with
  | nil => rfl
  | cons entry rest ih => exact (ih (deliver queue group q entry).2).trans (deliver_other hkey)

theorem Invariant.deliverAll {q : InMemoryQueue δ} (h : q.Invariant) {entries : List (Text × δ)}
    (hread : ∀ entry ∈ entries, entry.1 ∈ q.readIds queue group) :
    (deliverAll queue group q entries).2.Invariant := by
  induction entries generalizing q with
  | nil => exact h
  | cons entry rest ih =>
    exact ih (h.deliver (hread entry List.mem_cons_self)) fun other hother =>
      hread other (List.mem_cons_of_mem _ hother)

theorem deliverAll_messages {q : InMemoryQueue δ} {entries : List (Text × δ)}
    (hnodup : (entries.map Prod.fst).Nodup) :
    (deliverAll queue group q entries).1 = entries.map (redelivered queue group q) := by
  induction entries generalizing q with
  | nil => rfl
  | cons entry rest ih =>
    rw [List.map_cons, List.nodup_cons] at hnodup
    have hrest : rest.map (redelivered queue group (deliver queue group q entry).2) =
        rest.map (redelivered queue group q) := by
      refine List.map_congr_left fun other hother => ?_
      have hne : other.1 ≠ entry.1 := by
        intro hid
        exact hnodup.1 (hid ▸ List.mem_map_of_mem hother)
      simp [redelivered, deliver, hne]
    simp only [InMemoryQueue.deliverAll, List.map_cons]
    rw [ih hnodup.2, hrest]
    rfl

theorem mem_pending_deliverAll {q : InMemoryQueue δ} {entries : List (Text × δ)}
    {message : QueueMessage δ}
    (h : message ∈ (deliverAll queue group q entries).2.pending (queue, group)) :
    message ∈ (deliverAll queue group q entries).1 ∨ message ∈ q.pending (queue, group) := by
  induction entries generalizing q with
  | nil => exact .inr h
  | cons entry rest ih =>
    rcases ih h with hmem | hmem
    · exact .inl (List.mem_cons_of_mem _ hmem)
    · rcases mem_pending_deliver.mp hmem with rfl | ⟨hmem, -⟩
      · exact .inl List.mem_cons_self
      · exact .inr hmem

end Deliver

section Consume

variable {queue group : Text} {consumerName : Text} {count : Nat} {q : InMemoryQueue δ}

theorem ensureGroup_frame (queue group start : Text) (q : InMemoryQueue δ) :
    (ensureGroup queue group start q).streams = q.streams ∧
      (ensureGroup queue group start q).pending = q.pending ∧
      (ensureGroup queue group start q).deliveryCounts = q.deliveryCounts ∧
      (ensureGroup queue group start q).nextSeq = q.nextSeq := by
  unfold ensureGroup
  split
  · exact ⟨rfl, rfl, rfl, rfl⟩
  · exact ⟨rfl, rfl, rfl, rfl⟩

/-- The entries that `consume` delivers. -/
def consumed (queue group : Text) (count : Nat) (q : InMemoryQueue δ) : List (Text × δ) :=
  if q.pending (queue, group) ≠ [] then
    ((q.pending (queue, group)).take count).map fun message => (message.sequenceId, message.data)
  else ((q.streams queue).drop ((q.cursors (queue, group)).getD 0)).take count

/-- The queue just before `consume` delivers. -/
def advanced (queue group : Text) (count : Nat) (q : InMemoryQueue δ) : InMemoryQueue δ :=
  if q.pending (queue, group) ≠ [] then q
  else
    let next := (q.cursors (queue, group)).getD 0 + (consumed queue group count q).length
    { q with cursors := Function.update q.cursors (queue, group) (some next) }

theorem consume_eq : consume queue group consumerName count q =
    deliverAll queue group (advanced queue group count (ensureGroup queue group "0".toList q))
      (consumed queue group count (ensureGroup queue group "0".toList q)) := by
  unfold consume advanced consumed
  simp only []
  split
  · rfl
  · rfl

theorem advanced_frame : (advanced queue group count q).streams = q.streams ∧
    (advanced queue group count q).pending = q.pending ∧
    (advanced queue group count q).deliveryCounts = q.deliveryCounts ∧
    (advanced queue group count q).nextSeq = q.nextSeq := by
  unfold advanced
  split
  · exact ⟨rfl, rfl, rfl, rfl⟩
  · exact ⟨rfl, rfl, rfl, rfl⟩

theorem Invariant.advanced (h : q.Invariant) : (advanced queue group count q).Invariant := by
  unfold InMemoryQueue.advanced
  split
  · exact h
  · refine { h with read := ?_ }
    intro name other id hcount
    have hread := h.read name other id hcount
    by_cases hkey : (name, other) = (queue, group)
    · obtain ⟨rfl, rfl⟩ := hkey
      simp only [readIds, Function.update_self, Option.getD_some] at hread ⊢
      exact List.map_subset _ (List.take_prefix_take_left (Nat.le_add_right _ _)).subset hread
    · simpa only [readIds, Function.update_of_ne hkey] using hread

theorem consumed_read (h : q.Invariant) {entry : Text × δ}
    (hentry : entry ∈ consumed queue group count q) :
    entry.1 ∈ (InMemoryQueue.advanced queue group count q).readIds queue group := by
  unfold InMemoryQueue.advanced
  by_cases hpending : q.pending (queue, group) ≠ []
  · rw [if_pos hpending]
    unfold consumed at hentry
    rw [if_pos hpending] at hentry
    obtain ⟨message, hmessage, rfl⟩ := List.mem_map.mp hentry
    obtain ⟨hpositive, hcount⟩ := h.counted queue group message (List.mem_of_mem_take hmessage)
    exact h.read queue group message.sequenceId (by omega)
  · rw [if_neg hpending]
    simp only [readIds, Function.update_self, Option.getD_some]
    have hconsumed : consumed queue group count q =
        ((q.streams queue).drop ((q.cursors (queue, group)).getD 0)).take count := if_neg hpending
    rw [List.take_add, List.map_append]
    refine List.mem_append_right _ (List.mem_map_of_mem ?_)
    rw [hconsumed] at hentry ⊢
    rwa [← List.prefix_iff_eq_take.mp (List.take_prefix _ _)]

theorem consumed_nodup (h : q.Invariant) :
    ((consumed queue group count q).map Prod.fst).Nodup := by
  unfold consumed
  split
  · rw [List.map_map]
    exact (h.keyed queue group).sublist ((List.take_sublist _ _).map _)
  · exact (h.distinct queue).sublist
      (((List.take_sublist _ _).trans (List.drop_sublist _ _)).map _)

theorem Invariant.consume (h : q.Invariant) :
    (consume queue group consumerName count q).2.Invariant := by
  rw [consume_eq]
  have hensured := h.ensureGroup queue group "0".toList
  exact hensured.advanced.deliverAll fun entry hentry => consumed_read hensured hentry

theorem consume_streams : (consume queue group consumerName count q).2.streams = q.streams := by
  rw [consume_eq, (deliverAll_streams _ _).1, advanced_frame.1]
  exact (ensureGroup_frame queue group _ q).1

theorem consume_other {key : Text × Text} (hkey : key ≠ (queue, group)) :
    (consume queue group consumerName count q).2.pending key = q.pending key := by
  rw [consume_eq, deliverAll_other hkey, advanced_frame.2.1]
  exact congrFun (ensureGroup_frame queue group _ q).2.1 key

theorem mem_pending_consume {message : QueueMessage δ}
    (h : message ∈ (consume queue group consumerName count q).2.pending (queue, group)) :
    message ∈ (consume queue group consumerName count q).1 ∨
      message ∈ q.pending (queue, group) := by
  rw [consume_eq] at h ⊢
  rcases mem_pending_deliverAll h with hmem | hmem
  · exact .inl hmem
  · rw [advanced_frame.2.1, (ensureGroup_frame queue group _ q).2.1] at hmem
    exact .inr hmem

/-- A message is returned for the first time, or it was pending and its counter
goes up by one. -/
theorem mem_consume (h : q.Invariant) {message : QueueMessage δ}
    (hmessage : message ∈ (consume queue group consumerName count q).1) :
    message.deliveryCount = 1 ∨ ∃ other ∈ q.pending (queue, group),
      other.sequenceId = message.sequenceId ∧
        message.deliveryCount = other.deliveryCount + 1 := by
  have hensured := h.ensureGroup queue group "0".toList
  obtain ⟨hstreams, hpending, hcounts, -⟩ := ensureGroup_frame queue group "0".toList q
  rw [consume_eq, deliverAll_messages (consumed_nodup hensured)] at hmessage
  obtain ⟨entry, hentry, rfl⟩ := List.mem_map.mp hmessage
  simp only [redelivered, advanced_frame.2.2.1]
  unfold consumed at hentry
  split at hentry
  · obtain ⟨other, hother, rfl⟩ := List.mem_map.mp hentry
    have hmem := List.mem_of_mem_take hother
    have hcounted := (hensured.counted queue group other hmem).2
    rw [hpending] at hmem
    exact .inr ⟨other, hmem, rfl, by rw [hcounted]⟩
  · refine .inl ?_
    by_contra hne
    have hread := hensured.read queue group entry.1 (by omega)
    have hdistinct := hensured.distinct queue
    rw [← List.take_append_drop ((ensureGroup queue group "0".toList q).cursors
      (queue, group) |>.getD 0) ((ensureGroup queue group "0".toList q).streams queue),
      List.map_append, List.nodup_append] at hdistinct
    exact hdistinct.2.2 _ hread _
      (List.mem_map_of_mem (List.mem_of_mem_take hentry)) rfl

end Consume

end LandRecords.Queue.InMemoryQueue
