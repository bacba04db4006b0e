import LandRecords.Worker.Delivery

/-! No message is lost: an ack comes after the commit of the handler's transaction, or after the
message was published to the dead-letter queue and the entry about it was committed. Publishes and
acks are read off the record of a port, and not off what the worker notes. -/
namespace LandRecords.Worker

open Queue Text Fallible

/-- Nothing of the message is lost by an ack after these calls and events. -/
def Settled {δ : Type} (runner : WorkerRunner) (past : List (RecordedCall δ)) (events : List Event)
    (msg : QueueMessage δ) : Prop :=
  .committed msg.sequenceId ∈ events ∨
    .published runner.dlqName msg.data ∈ past ∧ ∃ errorClass, .audited msg.sequenceId
      (recordDeadLettered runner.queueName msg.sequenceId msg.deliveryCount errorClass) ∈ events

section Delivery

variable {σ δ : Type} {port : QueuePort σ δ} {runner : WorkerRunner} {msg : QueueMessage δ}
variable {v w : World (RecordedQueue σ δ)} {events events' : List Event} {calls past : List (RecordedCall δ)}

theorem Settled.mono (h : Settled runner past events msg) {past' : List (RecordedCall δ)}
    (hpast : past ⊆ past') (hevents : events ⊆ events') : Settled runner past' events' msg := by
  rcases h with hcommitted | ⟨hpublished, errorClass, haudited⟩
  · exact .inl (hevents hcommitted)
  · exact .inr ⟨hpast hpublished, errorClass, hevents haudited⟩

/-- An ack is of a message that was handed out before and of which `Kept` holds by then. -/
def AckOf (runner : WorkerRunner) (Kept : List (RecordedCall δ) → QueueMessage δ → Prop)
    (past : List (RecordedCall δ)) (call : RecordedCall δ) : Prop :=
  ∀ queue group sequenceId, call = .acked queue group sequenceId →
    queue = runner.queueName ∧ group = runner.group ∧ ∃ msg : QueueMessage δ,
      msg.sequenceId = sequenceId ∧ HandedOut runner.queueName runner.group past msg ∧ Kept past msg

theorem AckOf.imp {runner : WorkerRunner} {Kept Kept' : List (RecordedCall δ) → QueueMessage δ → Prop}
    {call : RecordedCall δ} (h : AckOf runner Kept past call)
    (himp : ∀ msg, Kept past msg → Kept' past msg) : AckOf runner Kept' past call := by
  intro queue group sequenceId hack
  obtain ⟨hqueue, hgroup, msg, hid, hmsg, hkept⟩ := h queue group sequenceId hack
  exact ⟨hqueue, hgroup, msg, hid, hmsg, himp msg hkept⟩

def OwnAck (runner : WorkerRunner) (msg : QueueMessage δ) (events : List Event)
    (past : List (RecordedCall δ)) (call : RecordedCall δ) : Prop :=
  ∀ queue group sequenceId, call = .acked queue group sequenceId →
    queue = runner.queueName ∧ group = runner.group ∧ sequenceId = msg.sequenceId ∧
      Settled runner past events msg

structure Adds (runner : WorkerRunner) (msg : QueueMessage δ) (v w : World (RecordedQueue σ δ))
    (events : List Event) (calls : List (RecordedCall δ)) : Prop where
  trace : w.trace = v.trace ++ events
  called : w.queue.calls = v.queue.calls ++ calls
  acks : GuardedFrom (OwnAck runner msg events) v.queue.calls calls

theorem Adds.none : Adds runner msg v v [] [] :=
  ⟨(List.append_nil _).symm, (List.append_nil _).symm, trivial⟩

theorem Adds.record (h : Adds runner msg v w events calls) (event : Event) :
    Adds runner msg v (Worker.record event w).2 (events ++ [event]) calls := by
  refine ⟨?_, h.called, ?_⟩
  · change w.trace ++ [event] = _
    rw [h.trace, List.append_assoc]
  · apply Guarded.imp_from h.acks
    intro past call _ hown queue group sequenceId hcall
    have ⟨hqueue, hgroup, hid, hsettled⟩ := hown queue group sequenceId hcall
    exact ⟨hqueue, hgroup, hid,
      hsettled.mono (List.Subset.refl _) (List.subset_append_left _ _)⟩

variable (port) in
theorem Adds.publish (h : Adds runner msg v w events calls) :
    ∃ events', Adds runner msg v (publishDeadLetter port.recorded runner msg w).2 events'
      (calls ++ [.published runner.dlqName msg.data]) := by
  let published := port.publish runner.dlqName msg.data w.queue.queue
  have hcall : Adds runner msg v
      ⟨⟨published.2, w.queue.calls ++ [.published runner.dlqName msg.data]⟩, w.trace⟩ events
      (calls ++ [.published runner.dlqName msg.data]) := by
    refine ⟨h.trace, ?_, ?_⟩
    · change w.queue.calls ++ _ = _
      rw [h.called, List.append_assoc]
    · refine Guarded.guardedFrom_append.mpr ⟨h.acks, ?_, trivial⟩
      intro queue group sequenceId hack
      cases hack
  exact ⟨_, hcall.record (.deadLettered msg.sequenceId published.1)⟩

theorem Adds.ack (h : Adds runner msg v w events calls)
    (hsettled : Settled runner (v.queue.calls ++ calls) events msg) :
    ∃ events' calls', Adds runner msg v (ackMessage port.recorded runner msg w).2 events' calls' := by
  have hcall : Adds runner msg v
      ⟨⟨port.ack runner.queueName runner.group msg.sequenceId w.queue.queue,
        w.queue.calls ++ [.acked runner.queueName runner.group msg.sequenceId]⟩, w.trace⟩ events
      (calls ++ [.acked runner.queueName runner.group msg.sequenceId]) := by
    refine ⟨h.trace, ?_, ?_⟩
    · change w.queue.calls ++ _ = _
      rw [h.called, List.append_assoc]
    · refine Guarded.guardedFrom_append.mpr ⟨h.acks, ?_, trivial⟩
      intro queue group sequenceId hack
      cases hack
      exact ⟨rfl, rfl, rfl, hsettled⟩
  exact ⟨_, _, hcall.record (.acked msg.sequenceId)⟩

def Added (runner : WorkerRunner) (msg : QueueMessage δ) (v w : World (RecordedQueue σ δ)) : Prop :=
  ∃ events calls, Adds runner msg v w events calls

theorem ackMessage_added (fault : Fault Text) :
    Triple (fun w => ∃ events calls, Adds runner msg v w events calls ∧
        Settled runner (v.queue.calls ++ calls) events msg)
      (perform fault (ackMessage port.recorded runner msg)) (fun _ => Added runner msg v)
      (fun _ => Added runner msg v) (Added runner msg v) := by
  apply triple_perform_establishes
  · rintro w ⟨events, calls, hadds, -⟩
    exact ⟨events, calls, hadds⟩
  · rintro w ⟨events, calls, hadds, hsettled⟩
    exact hadds.ack hsettled
  · exact fun _ _ h => h

variable (v) in
theorem deadLetter_added (msg : QueueMessage δ) (errorClass : Text) (faults : DeliveryFaults) :
    Preserves (Added runner msg v) (deadLetter port.recorded runner msg errorClass faults) := by
  let Published (w : World (RecordedQueue σ δ)) : Prop := ∃ events calls,
    Adds runner msg v w events calls ∧ .published runner.dlqName msg.data ∈ calls
  let Audited (w : World (RecordedQueue σ δ)) : Prop := ∃ events calls,
    Adds runner msg v w events calls ∧ Settled runner (v.queue.calls ++ calls) events msg
  have hforget : ∀ w, Published w → Added runner msg v w := by
    rintro w ⟨events, calls, hadds, -⟩
    exact ⟨events, calls, hadds⟩
  have hpublish : Triple (Added runner msg v)
      (perform faults.publish (publishDeadLetter port.recorded runner msg)) (fun _ => Published)
      (fun _ => Added runner msg v) (Added runner msg v) := by
    apply triple_perform_establishes (fun _ h => h) _ fun _ => hforget
    rintro w ⟨events, calls, hadds⟩
    obtain ⟨events', hpublished⟩ := hadds.publish port
    exact ⟨events', _, hpublished, List.mem_append_right _ (List.mem_singleton_self _)⟩
  have hrecord : Triple Published (perform faults.recordDeadLettered fun w => ((), w))
      (fun _ => Published) (fun _ => Added runner msg v) (Added runner msg v) :=
    triple_perform_establishes hforget (fun _ h => h) fun _ => hforget
  have haudit : Triple Published (perform faults.auditCommit (Worker.record
      (.audited msg.sequenceId (recordDeadLettered runner.queueName msg.sequenceId
        msg.deliveryCount errorClass)))) (fun _ => Audited)
      (fun _ => Added runner msg v) (Added runner msg v) := by
    apply triple_perform_establishes hforget
    · rintro w ⟨events, calls, hadds, hpublished⟩
      exact ⟨_, calls, hadds.record _, .inr ⟨List.mem_append_right _ hpublished, errorClass,
        List.mem_append_right _ (List.mem_singleton_self _)⟩⟩
    · rintro _ w ⟨events, calls, hadds, -⟩
      exact ⟨events, calls, hadds⟩
  exact triple_bind hpublish fun _ => triple_bind hrecord fun _ => triple_bind haudit fun _ =>
    ackMessage_added faults.deadLetterAck

variable (v) in
theorem attempt_added (msg : QueueMessage δ) (faults : DeliveryFaults) :
    Preserves (Added runner msg v) (attempt port.recorded runner msg faults) := by
  let Committed (w : World (RecordedQueue σ δ)) : Prop := ∃ events calls,
    Adds runner msg v w events calls ∧ Settled runner (v.queue.calls ++ calls) events msg
  have hnoted : ∀ event w, Added runner msg v w → Added runner msg v (Worker.record event w).2 := by
    rintro event w ⟨events, calls, hadds⟩
    exact ⟨_, calls, hadds.record event⟩
  have hhandler : Preserves (Added runner msg v)
      (invokeHandler msg faults.handler : Fallible (World (RecordedQueue σ δ)) Text Unit) := by
    intro w hw
    cases hfault : faults.handler with
    | none => exact hnoted _ w hw
    | raises _ _ => exact hnoted _ w hw
    | crashes _ => exact hnoted _ w hw
  have hcommit : Triple (Added runner msg v)
      (perform faults.commit (Worker.record (.committed msg.sequenceId))) (fun _ => Committed)
      (fun _ => Added runner msg v) (Added runner msg v) := by
    apply triple_perform_establishes (fun _ h => h)
    · rintro w ⟨events, calls, hadds⟩
      exact ⟨_, calls, hadds.record _,
        .inl (List.mem_append_right _ (List.mem_singleton_self _))⟩
    · rintro _ w ⟨events, calls, hadds, -⟩
      exact ⟨events, calls, hadds⟩
  exact triple_bind hhandler fun _ => triple_bind hcommit fun _ => ackMessage_added faults.ack

variable (port runner) in
/-- Whatever fails in a delivery, it acks no other message, and its own once it is settled. -/
theorem deliver_added (msg : QueueMessage δ) (faults : DeliveryFaults)
    (v : World (RecordedQueue σ δ)) :
    Added runner msg v (deliver port.recorded runner msg faults v).2 := by
  have hdelivery : Preserves (Added runner msg v) (deliver port.recorded runner msg faults) := by
    unfold deliver
    split
    · exact deadLetter_added v msg _ faults
    · apply triple_handle (attempt_added v msg faults)
      intro errorClass
      apply triple_bind (preserves_perform fun _ h => h)
      intro _
      split
      · exact deadLetter_added v msg errorClass faults
      · exact triple_raise fun _ h => h
  exact hdelivery.world ⟨[], [], .none⟩

end Delivery

/-! ## Every run -/

section Runs

variable {σ δ Env : Type} (act : Env → σ → σ) (port : QueuePort σ δ) (runner : WorkerRunner)

/-- Every ack of the record is of a settled message. -/
def AcksSettled (runner : WorkerRunner) (w : World (RecordedQueue σ δ)) : Prop :=
  Guarded (AckOf runner fun past msg => Settled runner past w.trace msg) w.queue.calls

structure AcksKept (runner : WorkerRunner) (s : State (RecordedQueue σ δ) δ) : Prop where
  settled : AcksSettled runner s.world
  batch : ∀ msg ∈ s.batch, HandedOut runner.queueName runner.group s.world.queue.calls msg

variable {runner} in
theorem AcksSettled.added {msg : QueueMessage δ} {v w : World (RecordedQueue σ δ)}
    (h : AcksSettled runner v) (hadded : Added runner msg v w)
    (hmsg : HandedOut runner.queueName runner.group v.queue.calls msg) : AcksSettled runner w := by
  obtain ⟨events, calls, hadds⟩ := hadded
  unfold AcksSettled
  rw [hadds.called, hadds.trace]
  refine Guarded.guardedFrom_append.mpr ⟨Guarded.imp_from h ?_, Guarded.imp_from hadds.acks ?_⟩
  · intro past call _ hcall
    exact hcall.imp fun other hother =>
      hother.mono (List.Subset.refl _) (List.subset_append_left _ _)
  · intro past call hpast hown queue group sequenceId hack
    obtain ⟨hqueue, hgroup, hid, hsettled⟩ := hown queue group sequenceId hack
    exact ⟨hqueue, hgroup, msg, hid.symm, hmsg.mono hpast.subset,
      hsettled.mono (List.Subset.refl _) (List.subset_append_right _ _)⟩

theorem consumeBatch_kept (consumerName : Text) (fault : Fault Text)
    (w : World (RecordedQueue σ δ)) (h : AcksSettled runner w) :
    AcksKept runner ⟨(consumeBatch port.recorded runner consumerName fault w).2,
      (consumeBatch port.recorded runner consumerName fault w).1.getD []⟩ := by
  let consumed := port.consume runner.queueName runner.group consumerName runner.batchCount
    w.queue.queue
  let call : RecordedCall δ := .consumed runner.queueName runner.group consumed.1
  have hafter : AcksSettled runner (⟨⟨consumed.2, w.queue.calls ++ [call]⟩, w.trace⟩ : World _) :=
    Guarded.concat.mpr ⟨h, fun queue group sequenceId hack => nomatch hack⟩
  cases fault with
  | none =>
    exact ⟨hafter, fun msg hmsg =>
      ⟨consumed.1, List.mem_append_right _ (List.mem_singleton_self _), hmsg⟩⟩
  | raises tookEffect _ => cases tookEffect <;> exact ⟨by assumption, fun _ hmsg => nomatch hmsg⟩
  | crashes tookEffect => cases tookEffect <;> exact ⟨by assumption, fun _ hmsg => nomatch hmsg⟩

theorem acksKept_step (s : State (RecordedQueue σ δ) δ) (a : Step Env) (t : State (RecordedQueue σ δ) δ)
    (hs : AcksKept runner s) (h : step (RecordedQueue.others act) port.recorded runner s a = some t) :
    AcksKept runner t := by
  rcases step_cases h with ⟨_, _, rfl⟩ | ⟨consumerName, fault, _, _, hworld, hbatch⟩ |
    ⟨_, _, _, _, _, _, rfl⟩ | ⟨faults, msg, rest, _, hbatch, _, hworld, hrest⟩
  · exact ⟨hs.settled, hs.batch⟩
  · obtain ⟨world, batch⟩ := t
    obtain rfl : world = _ := hworld
    obtain rfl : batch = _ := hbatch
    exact consumeBatch_kept port runner consumerName fault s.world hs.settled
  · exact ⟨hs.settled, fun _ hmsg => nomatch hmsg⟩
  · have hmsgs : ∀ other ∈ msg :: rest, HandedOut runner.queueName runner.group
        s.world.queue.calls other := hbatch ▸ hs.batch
    have hadded := deliver_added port runner msg faults s.world
    rw [← hworld] at hadded
    refine ⟨hs.settled.added hadded (hmsgs msg List.mem_cons_self), fun other hother => ?_⟩
    obtain ⟨events, calls, hadds⟩ := hadded
    rw [hrest] at hother
    have hkept : other ∈ rest := by
      split at hother
      · exact hother
      · cases hother
    rw [hadds.called]
    exact (hmsgs other (List.mem_cons_of_mem _ hkept)).mono (List.subset_append_left _ _)

theorem acksSettled_throughout (world : World (RecordedQueue σ δ)) (h : AcksSettled runner world)
    (steps : List (Step Env)) :
    Runs.Throughout (step (RecordedQueue.others act) port.recorded runner)
      (fun s => AcksSettled runner s.world) ⟨world, []⟩ steps := by
  have hstart : AcksKept runner (⟨world, []⟩ : State (RecordedQueue σ δ) δ) :=
    ⟨h, fun _ hmsg => nomatch hmsg⟩
  exact (Runs.throughout_of_preserved hstart (acksKept_step act port runner)).imp
    fun _ hs => hs.settled

/-- A message is acked only after its handler's transaction was committed, or after it was
published to the dead-letter queue and the entry about it was committed: in every run of the
steps, and over any number of cycles and restarts of `run_loop`. The record of the port changes
nothing of the run. -/
theorem acked_only_settled (queue : σ) :
    (∀ steps : List (Step Env),
      Runs.run (step act port runner) (State.initial queue) steps =
        (Runs.run (step (RecordedQueue.others act) port.recorded runner) (State.initial ⟨queue, []⟩)
          steps).map (State.mapQueue RecordedQueue.queue) ∧
      Runs.Throughout (step (RecordedQueue.others act) port.recorded runner)
        (fun s => AcksSettled runner s.world) (State.initial ⟨queue, []⟩) steps) ∧
    ∀ cycles : List CycleFaults,
      AcksSettled runner (runLoop port.recorded runner cycles ⟨⟨queue, []⟩, []⟩) := by
  have hinitial : AcksSettled runner (⟨⟨queue, []⟩, []⟩ : World (RecordedQueue σ δ)) := Guarded.nil
  refine ⟨fun steps => ⟨?_, acksSettled_throughout act port runner _ hinitial steps⟩,
    fun cycles => ?_⟩
  · exact Runs.run_seen (step_seen port.recorded_seenAs runner fun _ _ => rfl)
      (State.initial ⟨queue, []⟩) steps
  · obtain ⟨steps, hrun⟩ := run_runLoop (RecordedQueue.others act) port.recorded runner cycles
      ⟨⟨queue, []⟩, []⟩
    exact (acksSettled_throughout act port runner _ hinitial steps).at_run hrun

end Runs

end LandRecords.Worker
