import LandRecords.Queue.Port
import Mathlib

/-! The in-memory driver: one stream per queue, and per group a cursor into the
stream, the pending messages in delivery order and the delivery counters. -/
namespace LandRecords.Queue

open Text

structure InMemoryQueue (δ : Type) where
  streams : Text → List (Text × δ)
  nextSeq : Nat
  /-- The index of the next unread entry of a group, once the group exists. -/
  cursors : Text × Text → Option Nat
  pending : Text × Text → List (QueueMessage δ)
  deliveryCounts : Text × Text × Text → Nat

namespace InMemoryQueue

variable {δ : Type}

def empty : InMemoryQueue δ where
  streams _ := []
  nextSeq := 0
  cursors _ := none
  pending _ := []
  deliveryCounts _ := 0

/-- `str(n)`. -/
def seqId (n : Nat) : Text := (toString n).toList

def publish (queue : Text) (message : δ) (q : InMemoryQueue δ) : Text × InMemoryQueue δ :=
  let seq := q.nextSeq + 1
  (seqId seq, { q with
    nextSeq := seq
    streams := Function.update q.streams queue (q.streams queue ++ [(seqId seq, message)]) })

def ensureGroup (queue group start : Text) (q : InMemoryQueue δ) : InMemoryQueue δ :=
  match q.cursors (queue, group) with
  | some _ => q
  | none => { q with
      cursors := Function.update q.cursors (queue, group)
        (some (if start = "0".toList then 0 else (q.streams queue).length)) }

def deliver (queue group : Text) (q : InMemoryQueue δ) (entry : Text × δ) :
    QueueMessage δ × InMemoryQueue δ :=
  let count := q.deliveryCounts (queue, group, entry.1) + 1
  let message := ⟨entry.1, entry.2, count⟩
  let pending := q.pending (queue, group)
  (message, { q with
    deliveryCounts := Function.update q.deliveryCounts (queue, group, entry.1) count
    pending := Function.update q.pending (queue, group)
      (if entry.1 ∈ pending.map QueueMessage.sequenceId then
        pending.map fun other => if other.sequenceId = entry.1 then message else other
      else pending ++ [message]) })

/-- The two delivery loops of `consume`. -/
def deliverAll (queue group : Text) (q : InMemoryQueue δ) :
    List (Text × δ) → List (QueueMessage δ) × InMemoryQueue δ
  | [] => ([], q)
  | entry :: rest =>
      let delivered := deliver queue group q entry
      let others := deliverAll queue group delivered.2 rest
      (delivered.1 :: others.1, others.2)

def consume (queue group _consumerName : Text) (count : Nat) (q : InMemoryQueue δ) :
    List (QueueMessage δ) × InMemoryQueue δ :=
  let q := ensureGroup queue group "0".toList q
  if q.pending (queue, group) ≠ [] then
    deliverAll queue group q (((q.pending (queue, group)).take count).map fun message =>
      (message.sequenceId, message.data))
  else
    let cursor := (q.cursors (queue, group)).getD 0
    let batch := ((q.streams queue).drop cursor).take count
    deliverAll queue group
      { q with cursors := Function.update q.cursors (queue, group) (some (cursor + batch.length)) }
      batch

def ack (queue group sequenceId : Text) (q : InMemoryQueue δ) : InMemoryQueue δ :=
  { q with
    pending := Function.update q.pending (queue, group)
      ((q.pending (queue, group)).filter fun message => message.sequenceId ≠ sequenceId) }

def replayFrom (queue group sequenceId : Text) (q : InMemoryQueue δ) : InMemoryQueue δ :=
  let index := (q.streams queue).findIdx? fun entry => entry.1 = sequenceId
  { q with
    cursors := Function.update q.cursors (queue, group)
      (some (match index with | none => 0 | some i => i + 1))
    pending := Function.update q.pending (queue, group) [] }

def pendingCount (queue group : Text) (q : InMemoryQueue δ) : Nat :=
  (q.pending (queue, group)).length

def port : QueuePort (InMemoryQueue δ) δ where
  publish := publish
  ensureGroup := ensureGroup
  consume := consume
  ack := ack
  replayFrom := replayFrom

end InMemoryQueue

end LandRecords.Queue
