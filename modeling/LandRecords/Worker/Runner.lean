import LandRecords.Audit.Chain
import LandRecords.Base.Fallible
import LandRecords.Base.Runs
import LandRecords.Queue.Port

/-! The worker runner over an arbitrary queue port. Every operation of a delivery
has its own fault, and a trace records what became durable and which handlers
failed. -/
namespace LandRecords.Worker

open Queue Text

structure WorkerRunner where
  queueName : Text
  group : Text
  consumerName : Text
  maxDeliveries : Int := 5
  batchCount : Nat := 1

inductive Event
  /-- The handler returned. -/
  | handled (sequenceId : Text)
  /-- The handler was invoked and raised, or the process died in it. -/
  | handlerFailed (sequenceId : Text)
  /-- The transaction of the handler was committed. -/
  | committed (sequenceId : Text)
  /-- The message was published to the dead-letter queue. -/
  | deadLettered (sequenceId dlqId : Text)
  /-- The dead-letter audit entry was committed. -/
  | audited (sequenceId : Text) (entry : Audit.AppendArgs)
  | acked (sequenceId : Text)
deriving DecidableEq

structure World (σ : Type) where
  queue : σ
  trace : List Event

structure DeliveryFaults where
  /-- A stop was requested before the message is reached. -/
  stopRequested : Bool := false
  handler : Fault Text := .none
  commit : Fault Text := .none
  ack : Fault Text := .none
  rollback : Fault Text := .none
  publish : Fault Text := .none
  recordDeadLettered : Fault Text := .none
  auditCommit : Fault Text := .none
  deadLetterAck : Fault Text := .none

structure CycleFaults where
  stopRequested : Bool := false
  consume : Fault Text := .none
  deliveries : List DeliveryFaults := []

def WorkerRunner.dlqName (runner : WorkerRunner) : Text := runner.queueName ++ ".DLQ".toList

/-- The arguments that `record_dead_lettered` appends to the audit chain. -/
def recordDeadLettered (queue messageId : Text) (deliveryCount : Nat) (errorClass : Text) :
    Audit.AppendArgs where
  actor := "system:worker-runner".toList
  action := "queue.dead_lettered".toList
  subject := some (queue ++ ":".toList ++ messageId)
  purpose := some ("delivery_count=".toList ++ Audit.intText deliveryCount ++ ":error=".toList ++
    errorClass)
  shardKey := some Audit.systemShardKey

section Delivery

variable {σ δ : Type} (port : QueuePort σ δ) (runner : WorkerRunner)

def record (event : Event) (w : World σ) : Unit × World σ :=
  ((), { w with trace := w.trace ++ [event] })

/-- The handler only flushes, so that nothing of it is durable before the commit. -/
def invokeHandler (msg : QueueMessage δ) (fault : Fault Text) : Fallible (World σ) Text Unit :=
  fun w =>
    match fault with
    | .none => (.returned (), (record (.handled msg.sequenceId) w).2)
    | .raises _ errorClass =>
        (.raised errorClass, (record (.handlerFailed msg.sequenceId) w).2)
    | .crashes _ => (.crashed, (record (.handlerFailed msg.sequenceId) w).2)

def ackMessage (msg : QueueMessage δ) (w : World σ) : Unit × World σ :=
  record (.acked msg.sequenceId)
    { w with queue := port.ack runner.queueName runner.group msg.sequenceId w.queue }

def publishDeadLetter (msg : QueueMessage δ) (w : World σ) : Unit × World σ :=
  let published := port.publish runner.dlqName msg.data w.queue
  record (.deadLettered msg.sequenceId published.1) { w with queue := published.2 }

/-- `_dead_letter`. -/
def deadLetter (msg : QueueMessage δ) (errorClass : Text) (faults : DeliveryFaults) :
    Fallible (World σ) Text Unit := do
  Fallible.perform faults.publish (publishDeadLetter port runner msg)
  Fallible.perform faults.recordDeadLettered fun w => ((), w)
  Fallible.perform faults.auditCommit (record (.audited msg.sequenceId
    (recordDeadLettered runner.queueName msg.sequenceId msg.deliveryCount errorClass)))
  Fallible.perform faults.deadLetterAck (ackMessage port runner msg)

/-- The body of the `try` block. -/
def attempt (msg : QueueMessage δ) (faults : DeliveryFaults) : Fallible (World σ) Text Unit := do
  invokeHandler msg faults.handler
  Fallible.perform faults.commit (record (.committed msg.sequenceId))
  Fallible.perform faults.ack (ackMessage port runner msg)

/-- The loop body of `run_once` for one message. -/
def deliver (msg : QueueMessage δ) (faults : DeliveryFaults) : Fallible (World σ) Text Unit :=
  if runner.maxDeliveries < msg.deliveryCount then
    deadLetter port runner msg "MaxDeliveriesExceeded".toList faults
  else
    Fallible.handle (attempt port runner msg faults) fun errorClass => do
      Fallible.perform faults.rollback fun w => ((), w)
      if runner.maxDeliveries ≤ msg.deliveryCount then
        deadLetter port runner msg errorClass faults
      else Fallible.raise errorClass

def processBatch : List (QueueMessage δ) → List DeliveryFaults → Nat →
    Fallible (World σ) Text Nat
  | [], _, processed => pure processed
  | msg :: rest, faults, processed =>
      if (faults.headD {}).stopRequested then pure processed
      else do
        deliver port runner msg (faults.headD {})
        processBatch rest faults.tail (processed + 1)

def consumeBatch (consumerName : Text) (fault : Fault Text) :
    Fallible (World σ) Text (List (QueueMessage δ)) :=
  Fallible.perform fault fun w =>
    let consumed := port.consume runner.queueName runner.group consumerName runner.batchCount w.queue
    (consumed.1, { w with queue := consumed.2 })

def runOnce (faults : CycleFaults) : Fallible (World σ) Text Nat :=
  if faults.stopRequested then pure 0
  else do
    let messages ← consumeBatch port runner runner.consumerName faults.consume
    if messages.isEmpty then pure 0 else processBatch port runner messages faults.deliveries 0

/-- `run_loop` logs an exception and goes on. A cycle that follows a stop or a
crash is the first one of the restarted worker. -/
def runLoop (cycles : List CycleFaults) (w : World σ) : World σ :=
  cycles.foldl (fun w faults => (runOnce port runner faults w).2) w

end Delivery

structure State (σ δ : Type) where
  world : World σ
  batch : List (QueueMessage δ)

/-- A step of the worker, or an action of other parties on the queue. -/
inductive Step (Env : Type)
  | others (action : Env)
  | consume (consumerName : Text) (fault : Fault Text)
  | deliver (faults : DeliveryFaults)

section Machine

variable {σ δ Env : Type} (act : Env → σ → σ) (port : QueuePort σ δ) (runner : WorkerRunner)

def State.initial (queue : σ) : State σ δ := ⟨⟨queue, []⟩, []⟩

/-- A delivery that does not return leaves the rest of the batch unacked. -/
def step (s : State σ δ) : Step Env → Option (State σ δ)
  | .others action => some { s with world := { s.world with queue := act action s.world.queue } }
  | .consume consumerName fault =>
      if s.batch.isEmpty then
        let consumed := consumeBatch port runner consumerName fault s.world
        some ⟨consumed.2, consumed.1.getD []⟩
      else none
  | .deliver faults =>
      match s.batch with
      | [] => none
      | msg :: rest =>
          if faults.stopRequested then some { s with batch := [] }
          else
            let delivered := deliver port runner msg faults s.world
            some ⟨delivered.2, if delivered.1 = .returned () then rest else []⟩

end Machine

end LandRecords.Worker
