import LandRecords.Queue.Bookkeeping
import LandRecords.Worker.DeadLetter

/-! When a message is dead-lettered whose handler never failed. The delivery
counter goes up when a batch is consumed, so a batch that is left early counts a
delivery of messages that were not handled. -/
namespace LandRecords.Worker

open Queue Text Fallible

/-- Every dead letter is of a message whose handler failed before. -/
def FailedFirst : List Event → Prop :=
  Guarded (DeadLetterRule fun past sequenceId => .handlerFailed sequenceId ∈ past)

instance : DecidablePred FailedFirst := fun trace =>
  inferInstanceAs (Decidable (Guarded _ trace))

/-- The dead-letter queue holds messages only whose handler failed before they
were published to it. -/
def OnlyFailed {δ : Type} (runner : WorkerRunner) (w : World (InMemoryQueue δ)) : Prop :=
  FailedFirst w.trace ∧ ∀ entry ∈ w.queue.streams runner.dlqName,
    ∃ sequenceId, .deadLettered sequenceId entry.1 ∈ w.trace ∧ .handlerFailed sequenceId ∈ w.trace

/-- Publishers of any queue but the dead-letter queue, and other groups. -/
inductive OtherParty (runner : WorkerRunner) (δ : Type)
  | publish (queue : Text) (message : δ) (elsewhere : queue ≠ runner.dlqName)
  | consume (queue group consumerName : Text) (count : Nat)
      (elsewhere : (queue, group) ≠ (runner.queueName, runner.group))
  | ack (queue group sequenceId : Text)
      (elsewhere : (queue, group) ≠ (runner.queueName, runner.group))

def OtherParty.act {runner : WorkerRunner} {δ : Type} :
    OtherParty runner δ → InMemoryQueue δ → InMemoryQueue δ
  | .publish queue message _, q => (InMemoryQueue.publish queue message q).2
  | .consume queue group consumerName count _, q =>
      (InMemoryQueue.consume queue group consumerName count q).2
  | .ack queue group sequenceId _, q => InMemoryQueue.ack queue group sequenceId q

section Condition

variable {δ : Type}

/-- The message has used up its deliveries and its handler has not failed. -/
def AtRisk (runner : WorkerRunner) (past : List Event) (msg : QueueMessage δ) : Prop :=
  runner.maxDeliveries ≤ msg.deliveryCount ∧ .handlerFailed msg.sequenceId ∉ past

def SettlesQuietly (runner : WorkerRunner) (msg : QueueMessage δ) (faults : DeliveryFaults) :
    Prop :=
  faults.commit = .none ∧ faults.ack.tookEffect = true ∧
    ¬(DeadLetters runner msg faults ∧ faults.publish.tookEffect = true)

def CutsNothingAtRisk (runner : WorkerRunner) (past : List Event) (faults : DeliveryFaults) :
    List (QueueMessage δ) → Prop
  | [] => True
  | msg :: rest =>
      if faults.stopRequested then ∀ left ∈ msg :: rest, ¬AtRisk runner past left
      else
        (¬DeliveryReturns runner msg faults → ∀ left ∈ rest, ¬AtRisk runner past left) ∧
          (faults.handler = .none → AtRisk runner past msg → SettlesQuietly runner msg faults)

/-- The condition on a step, from the faults and the state before it. -/
def LeavesNothingAtRisk {Env : Type} (runner : WorkerRunner) (s : State (InMemoryQueue δ) δ) :
    Step Env → Prop
  | .others _ => True
  | .consume consumerName fault => fault ≠ .none → fault.tookEffect = true →
      ∀ left ∈ (InMemoryQueue.consume runner.queueName runner.group consumerName runner.batchCount
        s.world.queue).1, ¬AtRisk runner s.world.trace left
  | .deliver faults => CutsNothingAtRisk runner s.world.trace faults s.batch

instance (runner : WorkerRunner) (past : List Event) (msg : QueueMessage δ) :
    Decidable (AtRisk runner past msg) :=
  inferInstanceAs (Decidable (_ ∧ _))

instance (runner : WorkerRunner) (msg : QueueMessage δ) (faults : DeliveryFaults) :
    Decidable (SettlesQuietly runner msg faults) :=
  inferInstanceAs (Decidable (_ ∧ _ ∧ ¬(_ ∧ _)))

instance (runner : WorkerRunner) (past : List Event) (faults : DeliveryFaults) :
    ∀ batch : List (QueueMessage δ), Decidable (CutsNothingAtRisk runner past faults batch)
  | [] => inferInstanceAs (Decidable True)
  | msg :: rest =>
      inferInstanceAs (Decidable (if faults.stopRequested then
          ∀ left ∈ msg :: rest, ¬AtRisk runner past left
        else (¬DeliveryReturns runner msg faults → ∀ left ∈ rest, ¬AtRisk runner past left) ∧
          (faults.handler = .none → AtRisk runner past msg → SettlesQuietly runner msg faults)))

instance {Env : Type} (runner : WorkerRunner) (s : State (InMemoryQueue δ) δ) :
    ∀ a : Step Env, Decidable (LeavesNothingAtRisk runner s a)
  | .others _ => inferInstanceAs (Decidable True)
  | .consume consumerName fault =>
      inferInstanceAs (Decidable (fault ≠ .none → fault.tookEffect = true →
        ∀ left ∈ (InMemoryQueue.consume runner.queueName runner.group consumerName
          runner.batchCount s.world.queue).1, ¬AtRisk runner s.world.trace left))
  | .deliver faults =>
      inferInstanceAs (Decidable (CutsNothingAtRisk runner s.world.trace faults s.batch))

end Condition

section Invariant

variable {δ : Type} {runner : WorkerRunner}

def LettersTraced (runner : WorkerRunner) (w : World (InMemoryQueue δ)) : Prop :=
  ∀ entry ∈ w.queue.streams runner.dlqName,
    ∃ sequenceId, .deadLettered sequenceId entry.1 ∈ w.trace

structure Kept (runner : WorkerRunner) (w w' : World (InMemoryQueue δ)) : Prop where
  queue : w'.queue.Invariant
  letters : LettersTraced runner w'
  trace : w.trace ⊆ w'.trace
  pending : w'.queue.pending (runner.queueName, runner.group) ⊆
    w.queue.pending (runner.queueName, runner.group)

theorem kept_closed (w : World (InMemoryQueue δ)) (msg : QueueMessage δ) :
    DeliveryClosed InMemoryQueue.port runner msg (Kept runner w) := by
  have hrecord : ∀ event w', Kept runner w w' → Kept runner w (record event w').2 := by
    intro event w' h
    have hletters : LettersTraced runner (record event w').2 := by
      intro entry hentry
      obtain ⟨sequenceId, hmem⟩ := h.letters entry hentry
      exact ⟨sequenceId, List.mem_append_left _ hmem⟩
    exact ⟨h.queue, hletters, fun _ hmem => List.mem_append_left _ (h.trace hmem), h.pending⟩
  refine ⟨hrecord, fun w' h => hrecord _ _ ?_, fun w' h => ?_⟩
  · refine ⟨h.queue.ack _ _ _, h.letters, h.trace, fun m hm => h.pending ?_⟩
    simp only [InMemoryQueue.port, InMemoryQueue.ack, Function.update_self] at hm
    exact List.mem_of_mem_filter hm
  · refine ⟨h.queue.publish _ _, ?_, fun _ hmem => List.mem_append_left _ (h.trace hmem),
      h.pending⟩
    intro entry hentry
    simp only [publishDeadLetter, record, InMemoryQueue.port, InMemoryQueue.publish,
      Function.update_self, List.mem_append, List.mem_singleton] at hentry
    rcases hentry with hentry | rfl
    · obtain ⟨sequenceId, hmem⟩ := h.letters entry hentry
      exact ⟨sequenceId, List.mem_append_left _ hmem⟩
    · exact ⟨msg.sequenceId, List.mem_append_right _ (.head _)⟩

def NotPending (runner : WorkerRunner) (msg : QueueMessage δ) (w : World (InMemoryQueue δ)) :
    Prop :=
  ∀ other ∈ w.queue.pending (runner.queueName, runner.group), other.sequenceId ≠ msg.sequenceId

theorem ackMessage_notPending (msg : QueueMessage δ) (w : World (InMemoryQueue δ)) :
    NotPending runner msg (ackMessage InMemoryQueue.port runner msg w).2 := by
  intro other hother
  simp only [ackMessage, record, InMemoryQueue.port, InMemoryQueue.ack,
    Function.update_self] at hother
  simpa using (List.mem_filter.mp hother).2

theorem notPending_closed (msg : QueueMessage δ) :
    DeliveryClosed InMemoryQueue.port runner msg (NotPending runner msg) where
  record _ _ h := h
  ack w _ := ackMessage_notPending msg w
  publish _ h := h

theorem attempt_notPending {msg : QueueMessage δ} {faults : DeliveryFaults}
    (hhandler : faults.handler = .none) (hcommit : faults.commit = .none)
    (hack : faults.ack.tookEffect = true) (w : World (InMemoryQueue δ)) :
    NotPending runner msg (attempt InMemoryQueue.port runner msg faults w).2 := by
  rw [attempt_handled hhandler, commitAndAck, hcommit, perform_bind, perform_world, hack]
  exact ackMessage_notPending msg _

structure Tracked (runner : WorkerRunner) (s : State (InMemoryQueue δ) δ) : Prop where
  queue : s.world.queue.Invariant
  failed : FailedFirst s.world.trace
  letters : LettersTraced runner s.world
  /-- A message past its deliveries gets into a batch only after a failure. -/
  batch : ∀ msg ∈ s.batch, runner.maxDeliveries < msg.deliveryCount →
    .handlerFailed msg.sequenceId ∈ s.world.trace
  pending : ∀ msg ∈ s.world.queue.pending (runner.queueName, runner.group),
    msg ∈ s.batch ∨ ¬AtRisk runner s.world.trace msg

theorem AtRisk.of_subset {past past' : List Event} {msg : QueueMessage δ} (hsubset : past ⊆ past')
    (h : AtRisk runner past' msg) : AtRisk runner past msg :=
  ⟨h.1, fun hmem => h.2 (hsubset hmem)⟩

theorem Tracked.onlyFailed {s : State (InMemoryQueue δ) δ} (h : Tracked runner s) :
    OnlyFailed runner s.world := by
  refine ⟨h.failed, fun entry hentry => ?_⟩
  obtain ⟨sequenceId, hletter⟩ := h.letters entry hentry
  obtain ⟨past, later, htrace⟩ := List.append_of_mem hletter
  have hallowed := Guarded.iff_forall_past.mp h.failed past _
    ⟨later, by rw [htrace, List.append_assoc]; rfl⟩
  exact ⟨sequenceId, hletter, htrace ▸ List.mem_append_left _ hallowed⟩

section Deliver

variable {s : State (InMemoryQueue δ) δ} {msg : QueueMessage δ} {rest : List (QueueMessage δ)}
  {faults : DeliveryFaults}

theorem Tracked.kept (h : Tracked runner s) (msg : QueueMessage δ) (faults : DeliveryFaults) :
    Kept runner s.world (deliver InMemoryQueue.port runner msg faults s.world).2 :=
  ((kept_closed s.world msg).deliver faults).world
    ⟨h.queue, h.letters, fun _ hmem => hmem, fun _ hmem => hmem⟩

theorem handlerFailed_closed (sequenceId : Text) (msg : QueueMessage δ) :
    DeliveryClosed InMemoryQueue.port runner msg
      fun w : World (InMemoryQueue δ) => .handlerFailed sequenceId ∈ w.trace where
  record _ _ h := List.mem_append_left _ h
  ack _ h := List.mem_append_left _ h
  publish _ h := List.mem_append_left _ h

theorem Tracked.failed_deliver (h : Tracked runner s) (hbatch : s.batch = msg :: rest)
    (hquiet : faults.handler = .none → AtRisk runner s.world.trace msg →
      SettlesQuietly runner msg faults) :
    FailedFirst (deliver InMemoryQueue.port runner msg faults s.world).2.trace := by
  refine (deliver_guarded msg faults s.world).mpr ⟨h.failed, fun hletter hpublish => ?_⟩
  unfold pastOfDeadLetter
  by_cases hover : runner.maxDeliveries < msg.deliveryCount
  · rw [if_pos hover]
    exact h.batch msg (hbatch ▸ List.mem_cons_self) hover
  rw [if_neg hover]
  have hcount : runner.maxDeliveries ≤ msg.deliveryCount := by
    rcases hletter with hover | ⟨heq, -⟩ <;> omega
  by_cases hhandler : faults.handler = .none
  · by_cases hbefore : .handlerFailed msg.sequenceId ∈ s.world.trace
    · exact ((handlerFailed_closed msg.sequenceId msg).attempt faults).world hbefore
    · exact absurd ⟨hletter, hpublish⟩ (hquiet hhandler ⟨hcount, hbefore⟩).2.2
  · rw [attempt_failed hhandler]
    exact List.mem_append_right _ (.head _)

/-- After a delivery that was cut off its message is acked or not at risk. -/
theorem Tracked.settled_deliver (h : Tracked runner s) (hbatch : s.batch = msg :: rest)
    (hquiet : faults.handler = .none → AtRisk runner s.world.trace msg →
      SettlesQuietly runner msg faults) :
    NotPending runner msg (deliver InMemoryQueue.port runner msg faults s.world).2 ∨
      ¬AtRisk runner (deliver InMemoryQueue.port runner msg faults s.world).2.trace msg := by
  by_cases hrisk : AtRisk runner s.world.trace msg
  · have hcount : msg.deliveryCount ≤ runner.maxDeliveries := by
      by_contra hover
      exact hrisk.2 (h.batch msg (hbatch ▸ List.mem_cons_self) (by omega))
    by_cases hhandler : faults.handler = .none
    · obtain ⟨hcommit, hack, -⟩ := hquiet hhandler hrisk
      exact .inl ((notPending_closed msg).deliver_of_attempt hcount
        (attempt_notPending hhandler hcommit hack s.world))
    · refine .inr fun hafter => hafter.2 ?_
      apply (handlerFailed_closed msg.sequenceId msg).deliver_of_attempt hcount
      rw [attempt_failed hhandler]
      exact List.mem_append_right _ (.head _)
  · exact .inr fun hafter => hrisk (hafter.of_subset (h.kept msg faults).trace)

theorem Tracked.deliver {t : State (InMemoryQueue δ) δ} (h : Tracked runner s)
    (hbatch : s.batch = msg :: rest)
    (hworld : t.world = (Worker.deliver InMemoryQueue.port runner msg faults s.world).2)
    (hnext : t.batch = if DeliveryReturns runner msg faults then rest else [])
    (hcut : ¬DeliveryReturns runner msg faults → ∀ left ∈ rest, ¬AtRisk runner s.world.trace left)
    (hquiet : faults.handler = .none → AtRisk runner s.world.trace msg →
      SettlesQuietly runner msg faults) : Tracked runner t := by
  have hkept := h.kept msg faults
  have hfailed := h.failed_deliver hbatch hquiet
  have hsettled := h.settled_deliver hbatch hquiet
  rw [← hworld] at hkept hfailed hsettled
  have hpending : ∀ m ∈ t.world.queue.pending (runner.queueName, runner.group),
      m = msg ∨ m ∈ rest ∨ ¬AtRisk runner t.world.trace m := by
    intro m hm
    rcases h.pending m (hkept.pending hm) with hmem | hrisk
    · rw [hbatch] at hmem
      exact (List.mem_cons.mp hmem).imp_right .inl
    · exact .inr (.inr fun hafter => hrisk (hafter.of_subset hkept.trace))
  by_cases hreturns : DeliveryReturns runner msg faults
  · have hacked : NotPending runner msg t.world :=
      hworld ▸ deliver_acked (ackMessage_notPending msg) hreturns
    rw [if_pos hreturns] at hnext
    refine ⟨hkept.queue, hfailed, hkept.letters, ?_, ?_⟩
    · intro m hm hover
      rw [hnext] at hm
      exact hkept.trace (h.batch m (hbatch ▸ List.mem_cons_of_mem _ hm) hover)
    · intro m hm
      rcases hpending m hm with rfl | hmem | hrisk
      · exact absurd rfl (hacked m hm)
      · exact .inl (hnext ▸ hmem)
      · exact .inr hrisk
  · rw [if_neg hreturns] at hnext
    refine ⟨hkept.queue, hfailed, hkept.letters, ?_, ?_⟩
    · intro m hm
      rw [hnext] at hm
      exact absurd hm List.not_mem_nil
    · intro m hm
      rcases hpending m hm with rfl | hmem | hrisk
      · exact hsettled.imp_left fun hgone => absurd rfl (hgone m hm)
      · exact .inr fun hafter => hcut hreturns m hmem (hafter.of_subset hkept.trace)
      · exact .inr hrisk

end Deliver

theorem OtherParty.frame (action : OtherParty runner δ) {q : InMemoryQueue δ} (h : q.Invariant) :
    (action.act q).Invariant ∧
      (action.act q).streams runner.dlqName = q.streams runner.dlqName ∧
      (action.act q).pending (runner.queueName, runner.group) =
        q.pending (runner.queueName, runner.group) := by
  cases action with
  | publish queue message elsewhere =>
    exact ⟨h.publish _ _, Function.update_of_ne elsewhere.symm _ _, rfl⟩
  | consume queue group consumerName count elsewhere =>
    exact ⟨h.consume, congrFun InMemoryQueue.consume_streams _,
      InMemoryQueue.consume_other elsewhere.symm⟩
  | ack queue group sequenceId elsewhere =>
    exact ⟨h.ack _ _ _, rfl, Function.update_of_ne elsewhere.symm _ _⟩

variable {s t : State (InMemoryQueue δ) δ}

theorem consumeBatch_spec (runner : WorkerRunner) (consumerName : Text) (fault : Fault Text)
    (w : World (InMemoryQueue δ)) :
    let consumed := InMemoryQueue.consume runner.queueName runner.group consumerName
      runner.batchCount w.queue
    (consumeBatch InMemoryQueue.port runner consumerName fault w).1.getD [] =
        (if fault = .none then consumed.1 else []) ∧
      (consumeBatch InMemoryQueue.port runner consumerName fault w).2.queue =
        if fault.tookEffect then consumed.2 else w.queue := by
  cases fault with
  | none => exact ⟨rfl, rfl⟩
  | raises tookEffect _ => cases tookEffect <;> exact ⟨rfl, rfl⟩
  | crashes tookEffect => cases tookEffect <;> exact ⟨rfl, rfl⟩

theorem Tracked.consume (hmax : 1 ≤ runner.maxDeliveries) (h : Tracked runner s)
    (hbatch : s.batch = []) {consumerName : Text} {fault : Fault Text}
    (hworld : t.world =
      (consumeBatch InMemoryQueue.port runner consumerName fault s.world).2)
    (hnext : t.batch =
      (consumeBatch InMemoryQueue.port runner consumerName fault s.world).1.getD [])
    (hlost : fault ≠ .none → fault.tookEffect = true →
      ∀ left ∈ (InMemoryQueue.consume runner.queueName runner.group consumerName
        runner.batchCount s.world.queue).1, ¬AtRisk runner s.world.trace left) :
    Tracked runner t := by
  obtain ⟨hreturned, hqueue⟩ := consumeBatch_spec runner consumerName fault s.world
  rw [← hnext] at hreturned
  rw [← hworld] at hqueue
  have htrace : t.world.trace = s.world.trace := hworld ▸ consumeBatch_trace _ _ _
  have hunread : ∀ m ∈ s.world.queue.pending (runner.queueName, runner.group),
      ¬AtRisk runner s.world.trace m := fun m hm =>
    (h.pending m hm).resolve_left fun hmem => by simp [hbatch] at hmem
  have hletters : LettersTraced runner t.world := by
    intro entry hentry
    rw [htrace]
    apply h.letters entry
    rw [hqueue] at hentry
    split at hentry
    · exact InMemoryQueue.consume_streams ▸ hentry
    · exact hentry
  refine ⟨?_, htrace ▸ h.failed, hletters, ?_, ?_⟩
  · rw [hqueue]
    split
    · exact h.queue.consume
    · exact h.queue
  · intro m hm hover
    rw [hreturned] at hm
    rw [htrace]
    split at hm
    · rcases InMemoryQueue.mem_consume h.queue hm with hfirst | ⟨other, hother, hid, hcount⟩
      · omega
      · by_contra hbefore
        exact hunread other hother ⟨by omega, hid ▸ hbefore⟩
    · exact absurd hm List.not_mem_nil
  · intro m hm
    rw [htrace]
    rw [hqueue] at hm
    split at hm
    · next heffect =>
      rcases InMemoryQueue.mem_pending_consume hm with hmem | hmem
      · by_cases hfault : fault = .none
        · rw [if_pos hfault] at hreturned
          exact .inl (hreturned ▸ hmem)
        · exact .inr (hlost hfault heffect m hmem)
      · exact .inr (hunread m hmem)
    · exact .inr (hunread m hm)

theorem Tracked.step (hmax : 1 ≤ runner.maxDeliveries) (h : Tracked runner s)
    {a : Step (OtherParty runner δ)} (hok : LeavesNothingAtRisk runner s a)
    (hstep : step OtherParty.act InMemoryQueue.port runner s a = some t) : Tracked runner t := by
  rcases step_cases hstep with ⟨action, rfl, rfl⟩ |
    ⟨consumerName, fault, rfl, hbatch, hworld, hnext⟩ | ⟨faults, msg, rest, rfl, hbatch, hstop, rfl⟩ |
    ⟨faults, msg, rest, rfl, hbatch, hgo, hworld, hnext⟩
  · obtain ⟨hqueue, hstream, hpending⟩ := action.frame h.queue
    refine ⟨hqueue, h.failed, ?_, h.batch, ?_⟩
    · intro entry hentry
      exact h.letters entry (hstream ▸ hentry)
    · intro m hm
      exact h.pending m (hpending ▸ hm)
  · exact h.consume hmax hbatch hworld hnext hok
  · have hleft : ∀ left ∈ s.batch, ¬AtRisk runner s.world.trace left := by
      simpa [LeavesNothingAtRisk, CutsNothingAtRisk, hbatch, hstop] using hok
    exact ⟨h.queue, h.failed, h.letters, fun m hm => absurd hm List.not_mem_nil, fun m hm =>
      .inr ((h.pending m hm).elim (hleft m) id)⟩
  · have hcuts : (¬DeliveryReturns runner msg faults →
        ∀ left ∈ rest, ¬AtRisk runner s.world.trace left) ∧
        (faults.handler = .none → AtRisk runner s.world.trace msg →
          SettlesQuietly runner msg faults) := by
      simpa [LeavesNothingAtRisk, CutsNothingAtRisk, hbatch, hgo] using hok
    simp only [deliver_returned] at hnext
    exact h.deliver hbatch hworld hnext hcuts.1 hcuts.2

end Invariant

section Runs

variable {δ : Type} (runner : WorkerRunner)

theorem tracked_initial :
    Tracked runner (State.initial InMemoryQueue.empty : State (InMemoryQueue δ) δ) where
  queue := InMemoryQueue.invariant_empty
  failed := Guarded.nil
  letters _ h := absurd h List.not_mem_nil
  batch _ h := absurd h List.not_mem_nil
  pending _ h := absurd h List.not_mem_nil

/-- If no batch is left early with a message at risk in it, only messages whose
handler failed get into the dead-letter queue. -/
theorem onlyFailed_of_leavesNothingAtRisk (hmax : 1 ≤ runner.maxDeliveries)
    (steps : List (Step (OtherParty runner δ)))
    (hok : Runs.AllSteps (step OtherParty.act InMemoryQueue.port runner)
      (LeavesNothingAtRisk runner) (State.initial InMemoryQueue.empty) steps) :
    Runs.Throughout (step OtherParty.act InMemoryQueue.port runner)
      (fun s => OnlyFailed runner s.world)
      (State.initial (InMemoryQueue.empty : InMemoryQueue δ)) steps := by
  have htracked := Runs.throughout_of_invariant (tracked_initial runner)
    (fun _ _ _ h hstep hrun => Tracked.step hmax h hstep hrun) hok
  exact htracked.imp fun s h => h.onlyFailed

end Runs

def pairRunner : WorkerRunner := { triageRunner with batchCount := 2 }

def publishPair : List (Step (OtherParty pairRunner Text)) :=
  [.others (.publish "TRIAGE_QUEUE".toList "a".toList (by decide)),
    .others (.publish "TRIAGE_QUEUE".toList "b".toList (by decide))]

def failFirst : List (Step (OtherParty pairRunner Text)) :=
  (List.replicate 4 [.consume "host-1".toList .none,
    .deliver { handler := .raises false "ValueError".toList }]).flatten

/-- In the fifth cycle the first message is dead-lettered and the second one is
handled. -/
theorem poison_message_onlyFailed :
    Runs.Throughout (step OtherParty.act InMemoryQueue.port pairRunner)
      (fun s => OnlyFailed pairRunner s.world) (State.initial (InMemoryQueue.empty))
      (publishPair ++ failFirst ++ [.consume "host-1".toList .none,
        .deliver { handler := .raises false "ValueError".toList }, .deliver {}]) :=
  onlyFailed_of_leavesNothingAtRisk pairRunner (by decide) _ (by decide +kernel)

def unpublishedLetter : DeliveryFaults where
  handler := .raises false "ValueError".toList
  publish := .raises false "ConnectionError".toList

/-- In the fifth cycle the dead letter of the first message cannot be published. In
the sixth the second one is dead-lettered, and its handler was never invoked. -/
theorem neighbour_pushed_to_dlq :
    ¬Runs.Throughout (step OtherParty.act InMemoryQueue.port pairRunner)
      (fun s => OnlyFailed pairRunner s.world) (State.initial (InMemoryQueue.empty))
      (publishPair ++ failFirst ++ [.consume "host-1".toList .none,
        .deliver unpublishedLetter, .consume "host-1".toList .none, .deliver {}, .deliver {}]) := by
  intro h
  have hfailed := h.imp (Q := fun s => FailedFirst s.world.trace) fun _ h => h.1
  exact absurd hfailed (by decide +kernel)

end LandRecords.Worker
