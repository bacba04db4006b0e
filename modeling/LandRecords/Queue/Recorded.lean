import LandRecords.Queue.Port

/-! A port that keeps a record of the calls made on it. What becomes of a message is read off the
record, and not off what the caller says of itself; the port underneath does what it did. -/
namespace LandRecords.Queue

inductive RecordedCall (δ : Type)
  | published (queue : Text) (message : δ)
  | consumed (queue group : Text) (messages : List (QueueMessage δ))
  | acked (queue group sequenceId : Text)

structure RecordedQueue (σ δ : Type) where
  queue : σ
  calls : List (RecordedCall δ) := []

variable {σ τ δ Env : Type}

def QueuePort.recorded (port : QueuePort σ δ) : QueuePort (RecordedQueue σ δ) δ where
  publish queue message r :=
    let published := port.publish queue message r.queue
    (published.1, ⟨published.2, r.calls ++ [.published queue message]⟩)
  ensureGroup queue group start r := { r with queue := port.ensureGroup queue group start r.queue }
  consume queue group consumerName count r :=
    let consumed := port.consume queue group consumerName count r.queue
    (consumed.1, ⟨consumed.2, r.calls ++ [.consumed queue group consumed.1]⟩)
  ack queue group sequenceId r :=
    ⟨port.ack queue group sequenceId r.queue, r.calls ++ [.acked queue group sequenceId]⟩
  replayFrom queue group sequenceId r :=
    { r with queue := port.replayFrom queue group sequenceId r.queue }

/-- What other parties do to the queue is not recorded. -/
def RecordedQueue.others (act : Env → σ → σ) (action : Env) (r : RecordedQueue σ δ) : RecordedQueue σ δ :=
  { r with queue := act action r.queue }

structure QueuePort.SeenAs (seen : τ → σ) (fine : QueuePort τ δ) (port : QueuePort σ δ) :
    Prop where
  publish : ∀ queue message t, port.publish queue message (seen t) =
    ((fine.publish queue message t).1, seen (fine.publish queue message t).2)
  ensureGroup : ∀ queue group start t, port.ensureGroup queue group start (seen t) =
    seen (fine.ensureGroup queue group start t)
  consume : ∀ queue group consumerName count t,
    port.consume queue group consumerName count (seen t) =
      ((fine.consume queue group consumerName count t).1,
        seen (fine.consume queue group consumerName count t).2)
  ack : ∀ queue group sequenceId t, port.ack queue group sequenceId (seen t) =
    seen (fine.ack queue group sequenceId t)
  replayFrom : ∀ queue group sequenceId t, port.replayFrom queue group sequenceId (seen t) =
    seen (fine.replayFrom queue group sequenceId t)

theorem QueuePort.recorded_seenAs (port : QueuePort σ δ) :
    QueuePort.SeenAs RecordedQueue.queue port.recorded port where
  publish _ _ _ := rfl
  ensureGroup _ _ _ _ := rfl
  consume _ _ _ _ _ := rfl
  ack _ _ _ _ := rfl
  replayFrom _ _ _ _ := rfl

def HandedOut (queue group : Text) (calls : List (RecordedCall δ)) (msg : QueueMessage δ) : Prop :=
  ∃ messages, .consumed queue group messages ∈ calls ∧ msg ∈ messages

theorem HandedOut.mono {queue group : Text} {calls calls' : List (RecordedCall δ)}
    {msg : QueueMessage δ} (h : HandedOut queue group calls msg) (hcalls : calls ⊆ calls') :
    HandedOut queue group calls' msg := by
  obtain ⟨messages, hconsumed, hmsg⟩ := h
  exact ⟨messages, hcalls hconsumed, hmsg⟩

end LandRecords.Queue
