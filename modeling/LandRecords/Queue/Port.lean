import LandRecords.Base.Text

/-! The broker port that publishers and workers share. A driver is a state type
with these operations on it; `consume` is taken at the moment it returns, so an
empty result stands for the end of its blocking time. -/
namespace LandRecords.Queue

structure QueueMessage (δ : Type) where
  sequenceId : Text
  data : δ
  deliveryCount : Nat
deriving DecidableEq

structure QueuePort (σ δ : Type) where
  publish (queue : Text) (message : δ) : σ → Text × σ
  ensureGroup (queue group start : Text) : σ → σ
  consume (queue group consumerName : Text) (count : Nat) : σ → List (QueueMessage δ) × σ
  ack (queue group sequenceId : Text) : σ → σ
  replayFrom (queue group sequenceId : Text) : σ → σ

end LandRecords.Queue
