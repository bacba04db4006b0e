import LandRecords.Queue.InMemory
import LandRecords.Worker.DeadLetter

/-! When work that was committed can still be dead-lettered. The commit and the
ack share the `except` branch of the handler, so a failure after the commit is
counted as a failed handler. -/
namespace LandRecords.Worker

open Queue Text Fallible

/-- Every dead letter is of a message that was not committed before. -/
def SparesWork : List Event → Prop :=
  Guarded (DeadLetterRule fun past sequenceId => .committed sequenceId ∉ past)

instance : DecidablePred SparesWork := fun trace =>
  inferInstanceAs (Decidable (Guarded _ trace))

def DeliveryFaults.Commits (faults : DeliveryFaults) : Prop :=
  faults.handler = .none ∧ faults.commit.tookEffect = true

instance (faults : DeliveryFaults) : Decidable faults.Commits :=
  inferInstanceAs (Decidable (_ ∧ _))

section Delivery

variable {σ δ : Type}

def SparesDelivery (runner : WorkerRunner) (past : List Event) (msg : QueueMessage δ)
    (faults : DeliveryFaults) : Prop :=
  DeadLetters runner msg faults → faults.publish.tookEffect = true →
    .committed msg.sequenceId ∉ past ∧ ¬(msg.deliveryCount ≤ runner.maxDeliveries ∧ faults.Commits)

/-- The condition on a step, from the faults and the state before it. -/
def SparesStep {Env : Type} (runner : WorkerRunner) (s : State σ δ) : Step Env → Prop
  | .deliver faults => ∀ msg ∈ s.batch.head?, faults.stopRequested = false →
      SparesDelivery runner s.world.trace msg faults
  | .others _ | .consume _ _ => True

variable {port : QueuePort σ δ} {runner : WorkerRunner}

theorem attempt_committed (msg : QueueMessage δ) (faults : DeliveryFaults) (w : World σ) :
    .committed msg.sequenceId ∈ (attempt port runner msg faults w).2.trace ↔
      .committed msg.sequenceId ∈ w.trace ∨ faults.Commits := by
  let Judged (w' : World σ) : Prop := .committed msg.sequenceId ∈ w'.trace ↔
    .committed msg.sequenceId ∈ w.trace ∨ faults.Commits
  by_cases hfault : faults.handler = .none
  · rw [attempt_handled hfault]
    refine world_bind (I := Judged) ?_ fun _ => preserves_perform fun w' h => ?_
    · rw [perform_world]
      cases hcommit : faults.commit.tookEffect with
      | false => simp [Judged, record, DeliveryFaults.Commits, hcommit]
      | true => simp [Judged, record, DeliveryFaults.Commits, hcommit, hfault]
    · simpa [Judged, ackMessage, record] using h
  · rw [attempt_failed hfault]
    simp [record, DeliveryFaults.Commits, hfault]

/-- A delivery spares committed work exactly when its condition holds. -/
theorem deliver_spares_iff (msg : QueueMessage δ) (faults : DeliveryFaults) (w : World σ) :
    SparesWork (deliver port runner msg faults w).2.trace ↔
      SparesWork w.trace ∧ SparesDelivery runner w.trace msg faults := by
  unfold SparesWork SparesDelivery
  rw [deliver_guarded]
  unfold pastOfDeadLetter
  by_cases hover : runner.maxDeliveries < msg.deliveryCount
  · have hlate : ¬(msg.deliveryCount : Int) ≤ runner.maxDeliveries := by omega
    simp [hover, hlate]
  · have hlate : (msg.deliveryCount : Int) ≤ runner.maxDeliveries := by omega
    rw [if_neg hover, attempt_committed, not_or, and_iff_right hlate]

end Delivery

section Runs

variable {σ δ Env : Type} (act : Env → σ → σ) (port : QueuePort σ δ) (runner : WorkerRunner)

theorem step_spares_iff {s t : State σ δ} {a : Step Env} (h : step act port runner s a = some t)
    (hs : SparesWork s.world.trace) :
    SparesWork t.world.trace ↔ SparesStep runner s a := by
  rcases step_cases h with ⟨_, rfl, rfl⟩ | ⟨consumerName, fault, rfl, _, hworld, _⟩ |
    ⟨faults, msg, rest, rfl, hbatch, hstop, rfl⟩ | ⟨faults, msg, rest, rfl, hbatch, hgo, hworld, _⟩
  · exact iff_of_true hs trivial
  · rw [hworld, consumeBatch_trace]
    exact iff_of_true hs trivial
  · refine iff_of_true hs fun _ _ hgo => ?_
    rw [hstop] at hgo
    exact Bool.noConfusion hgo
  · rw [hworld, deliver_spares_iff]
    simp [SparesStep, hbatch, hgo, hs]

/-- Committed work is spared throughout a run exactly when every delivery of the
run that publishes a dead letter has nothing committed to spare. -/
theorem sparesWork_iff_sparesSteps (queue : σ) (steps : List (Step Env)) :
    Runs.Throughout (step act port runner) (fun s => SparesWork s.world.trace)
      (State.initial queue) steps ↔
      Runs.AllSteps (step act port runner) (SparesStep runner) (State.initial queue) steps := by
  apply Runs.throughout_iff_of_exact (I := fun _ => True) (C := fun s => SparesWork s.world.trace)
    trivial
  · exact Guarded.nil
  · intro s a t _ hs hstep
    exact ⟨trivial, step_spares_iff act port runner hstep hs⟩
  · exact fun _ _ => Iff.rfl

end Runs

/-- A message is published and delivered five times. Every time its handler
commits and the ack raises. -/
def ackFailures : List (Step (Text × Text)) :=
  .others ("TRIAGE_QUEUE".toList, "m".toList) ::
    (List.replicate 5 [.consume "host-1".toList .none,
      .deliver { ack := .raises false "ConnectionError".toList }]).flatten

theorem ack_failures_deadLetter_committed :
    ¬Runs.Throughout
      (step (fun message q => (InMemoryQueue.publish message.1 message.2 q).2)
        InMemoryQueue.port triageRunner)
      (fun s => SparesWork s.world.trace)
      (State.initial (InMemoryQueue.empty : InMemoryQueue Text)) ackFailures := by
  decide +kernel

end LandRecords.Worker
