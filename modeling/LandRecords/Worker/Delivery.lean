import LandRecords.Base.Guarded
import LandRecords.Queue.Recorded
import LandRecords.Worker.Runner

/-! What the steps of a worker do to its trace, over any queue port. A run of
`run_loop` is a run of these steps, and no message is acked before its work is
committed or its dead letter is published and audited. -/
namespace LandRecords.Worker

open Queue Text Fallible

section Steps

variable {σ δ Env : Type} {act : Env → σ → σ} {port : QueuePort σ δ} {runner : WorkerRunner}

theorem consumeBatch_trace (consumerName : Text) (fault : Fault Text) (w : World σ) :
    (consumeBatch port runner consumerName fault w).2.trace = w.trace := by
  cases fault with
  | none => rfl
  | raises tookEffect _ => cases tookEffect <;> rfl
  | crashes tookEffect => cases tookEffect <;> rfl

/-- Everything that one step can do. -/
theorem step_cases {s t : State σ δ} {a : Step Env} (h : step act port runner s a = some t) :
    (∃ action, a = .others action ∧
      t = { s with world := { s.world with queue := act action s.world.queue } }) ∨
    (∃ consumerName fault, a = .consume consumerName fault ∧ s.batch = [] ∧
      t.world = (consumeBatch port runner consumerName fault s.world).2 ∧
      t.batch = (consumeBatch port runner consumerName fault s.world).1.getD []) ∨
    (∃ faults msg rest, a = .deliver faults ∧ s.batch = msg :: rest ∧
      faults.stopRequested = true ∧ t = { s with batch := [] }) ∨
    (∃ faults msg rest, a = .deliver faults ∧ s.batch = msg :: rest ∧
      faults.stopRequested = false ∧ t.world = (deliver port runner msg faults s.world).2 ∧
      t.batch = if (deliver port runner msg faults s.world).1 = .returned () then rest
        else []) := by
  cases a with
  | others action => exact .inl ⟨action, rfl, (Option.some.inj h).symm⟩
  | consume consumerName fault =>
    simp only [step] at h
    split at h
    · next hbatch =>
      have ht := Option.some.inj h
      exact .inr (.inl ⟨consumerName, fault, rfl, List.isEmpty_iff.mp hbatch, by rw [← ht],
        by rw [← ht]⟩)
    · cases h
  | deliver faults =>
    simp only [step] at h
    split at h
    · cases h
    · next msg rest hbatch =>
      split at h
      · next hstop =>
        exact .inr (.inr (.inl ⟨faults, msg, rest, rfl, hbatch, hstop, (Option.some.inj h).symm⟩))
      · next hstop =>
        have ht := Option.some.inj h
        exact .inr (.inr (.inr ⟨faults, msg, rest, rfl, hbatch, by simpa using hstop,
          by rw [← ht], by rw [← ht]⟩))

variable (act port runner)

theorem run_processBatch (messages : List (QueueMessage δ)) (faults : List DeliveryFaults)
    (processed : Nat) (w : World σ) :
    ∃ steps, Runs.run (step act port runner) ⟨w, messages⟩ steps =
      some ⟨(processBatch port runner messages faults processed w).2, []⟩ := by
  induction messages generalizing faults processed w with
  | nil => exact ⟨[], rfl⟩
  | cons msg rest ih =>
    by_cases hstop : (faults.headD {}).stopRequested = true
    · refine ⟨[.deliver (faults.headD {})], ?_⟩
      simp only [Runs.run, step, processBatch, hstop, if_true]
      rfl
    · have hgo : (faults.headD {}).stopRequested = false := by simpa using hstop
      cases hd : deliver port runner msg (faults.headD {}) w with
      | mk exit w' =>
        cases exit with
        | returned value =>
          obtain ⟨steps, hsteps⟩ := ih faults.tail (processed + 1) w'
          refine ⟨.deliver (faults.headD {}) :: steps, ?_⟩
          simp only [Runs.run, step, processBatch, hgo, hd, bind_returned hd, Bool.false_eq_true,
            if_false]
          exact hsteps
        | raised errorClass =>
          refine ⟨[.deliver (faults.headD {})], ?_⟩
          simp only [Runs.run, step, processBatch, hgo, hd, bind_raised hd, Bool.false_eq_true, if_false]
          rfl
        | crashed =>
          refine ⟨[.deliver (faults.headD {})], ?_⟩
          simp only [Runs.run, step, processBatch, hgo, hd, bind_crashed hd, Bool.false_eq_true, if_false]
          rfl

theorem run_runOnce (faults : CycleFaults) (w : World σ) :
    ∃ steps, Runs.run (step act port runner) ⟨w, []⟩ steps =
      some ⟨(runOnce port runner faults w).2, []⟩ := by
  by_cases hstop : faults.stopRequested = true
  · exact ⟨[], by simp only [runOnce, hstop, if_true]; rfl⟩
  · have hgo : faults.stopRequested = false := by simpa using hstop
    cases hc : consumeBatch port runner runner.consumerName faults.consume w with
    | mk exit w' =>
      cases exit with
      | returned messages =>
        obtain ⟨steps, hsteps⟩ := run_processBatch act port runner messages faults.deliveries 0 w'
        refine ⟨.consume runner.consumerName faults.consume :: steps, ?_⟩
        cases messages with
        | nil =>
          simp only [Runs.run, step, runOnce, hgo, hc, bind_returned hc, Bool.false_eq_true, if_false]
          exact hsteps
        | cons msg rest =>
          simp only [Runs.run, step, runOnce, hgo, hc, bind_returned hc, Bool.false_eq_true, if_false]
          exact hsteps
      | raised errorClass =>
        refine ⟨[.consume runner.consumerName faults.consume], ?_⟩
        simp only [Runs.run, step, runOnce, hgo, hc, bind_raised hc, Bool.false_eq_true, if_false]
        rfl
      | crashed =>
        refine ⟨[.consume runner.consumerName faults.consume], ?_⟩
        simp only [Runs.run, step, runOnce, hgo, hc, bind_crashed hc, Bool.false_eq_true, if_false]
        rfl

/-- Whatever the cycles of `run_loop` reach, the steps of the machine reach. -/
theorem run_runLoop (cycles : List CycleFaults) (w : World σ) :
    ∃ steps, Runs.run (step act port runner) ⟨w, []⟩ steps =
      some ⟨runLoop port runner cycles w, []⟩ := by
  induction cycles generalizing w with
  | nil => exact ⟨[], rfl⟩
  | cons faults rest ih =>
    obtain ⟨first, hfirst⟩ := run_runOnce act port runner faults w
    obtain ⟨others, hothers⟩ := ih (runOnce port runner faults w).2
    refine ⟨first ++ others, ?_⟩
    rw [Runs.run_append, hfirst]
    exact hothers

end Steps

section Closed

variable {σ δ : Type} {port : QueuePort σ δ} {runner : WorkerRunner} {msg : QueueMessage δ}

structure DeliveryClosed (port : QueuePort σ δ) (runner : WorkerRunner) (msg : QueueMessage δ)
    (I : World σ → Prop) : Prop where
  record : ∀ event w, I w → I (record event w).2
  ack : ∀ w, I w → I (ackMessage port runner msg w).2
  publish : ∀ w, I w → I (publishDeadLetter port runner msg w).2

variable {I : World σ → Prop}

theorem DeliveryClosed.deadLetter (h : DeliveryClosed port runner msg I) (errorClass : Text)
    (faults : DeliveryFaults) : Preserves I (deadLetter port runner msg errorClass faults) :=
  triple_bind (preserves_perform h.publish) fun _ =>
    triple_bind (preserves_perform fun _ hw => hw) fun _ =>
      triple_bind (preserves_perform fun w => h.record _ w) fun _ => preserves_perform h.ack

theorem DeliveryClosed.attempt (h : DeliveryClosed port runner msg I) (faults : DeliveryFaults) :
    Preserves I (attempt port runner msg faults) := by
  have hhandler : Preserves I (invokeHandler msg faults.handler) := by
    intro w hw
    cases hfault : faults.handler with
    | none => exact h.record _ w hw
    | raises _ _ => exact h.record _ w hw
    | crashes _ => exact h.record _ w hw
  exact triple_bind hhandler fun _ =>
    triple_bind (preserves_perform fun w => h.record _ w) fun _ => preserves_perform h.ack

theorem DeliveryClosed.except (h : DeliveryClosed port runner msg I) (errorClass : Text)
    (faults : DeliveryFaults) :
    Preserves I (do
      perform faults.rollback fun w => ((), w)
      if runner.maxDeliveries ≤ msg.deliveryCount then
        Worker.deadLetter port runner msg errorClass faults
      else raise errorClass : Fallible (World σ) Text Unit) := by
  apply triple_bind (preserves_perform fun _ hw => hw)
  intro _
  split
  · exact h.deadLetter errorClass faults
  · exact triple_raise fun _ hw => hw

theorem DeliveryClosed.deliver (h : DeliveryClosed port runner msg I) (faults : DeliveryFaults) :
    Preserves I (deliver port runner msg faults) := by
  unfold Worker.deliver
  split
  · exact h.deadLetter _ faults
  · exact triple_handle (h.attempt faults) fun errorClass => h.except errorClass faults

/-- What the `try` block leaves is not ended by the `except` branch. -/
theorem DeliveryClosed.deliver_of_attempt (h : DeliveryClosed port runner msg I)
    {faults : DeliveryFaults} {w : World σ} (hcount : msg.deliveryCount ≤ runner.maxDeliveries)
    (hw : I (Worker.attempt port runner msg faults w).2) :
    I (Worker.deliver port runner msg faults w).2 := by
  unfold Worker.deliver
  rw [if_neg (by omega)]
  cases hattempt : Worker.attempt port runner msg faults w with
  | mk exit w' =>
    rw [hattempt] at hw
    cases exit with
    | raised errorClass =>
      rw [handle_raised hattempt]
      exact (h.except errorClass faults).world hw
    | returned _ =>
      rw [handle_not_raised (by rw [hattempt]; rfl), hattempt]
      exact hw
    | crashed =>
      rw [handle_not_raised (by rw [hattempt]; rfl), hattempt]
      exact hw

end Closed

/-! ## A worker on a port of which another port is seen -/

section Seen

variable {σ τ δ Env : Type} {seen : τ → σ} {fine : QueuePort τ δ} {port : QueuePort σ δ}

def World.mapQueue (seen : τ → σ) (w : World τ) : World σ := ⟨seen w.queue, w.trace⟩

def State.mapQueue (seen : τ → σ) (s : State τ δ) : State σ δ := ⟨s.world.mapQueue seen, s.batch⟩

variable (h : QueuePort.SeenAs seen fine port) (runner : WorkerRunner)
include h

theorem ackMessage_seen (msg : QueueMessage δ) (w : World τ) :
    ackMessage port runner msg (w.mapQueue seen) =
      ((), (ackMessage fine runner msg w).2.mapQueue seen) := by
  simp only [ackMessage, record, World.mapQueue, h.ack]

theorem publishDeadLetter_seen (msg : QueueMessage δ) (w : World τ) :
    publishDeadLetter port runner msg (w.mapQueue seen) =
      ((), (publishDeadLetter fine runner msg w).2.mapQueue seen) := by
  simp only [publishDeadLetter, record, World.mapQueue, h.publish]

theorem deadLetter_seen (msg : QueueMessage δ) (errorClass : Text) (faults : DeliveryFaults) :
    SeenAs (World.mapQueue seen) (deadLetter fine runner msg errorClass faults)
      (deadLetter port runner msg errorClass faults) := by
  apply seenAs_bind (seenAs_perform fun w => publishDeadLetter_seen h runner msg w)
  intro _
  apply seenAs_bind (seenAs_perform fun w => rfl)
  intro _
  apply seenAs_bind (seenAs_perform fun w => rfl)
  intro _
  exact seenAs_perform fun w => ackMessage_seen h runner msg w

theorem attempt_seen (msg : QueueMessage δ) (faults : DeliveryFaults) :
    SeenAs (World.mapQueue seen) (attempt fine runner msg faults)
      (attempt port runner msg faults) := by
  have hhandler : SeenAs (World.mapQueue seen)
      (invokeHandler msg faults.handler : Fallible (World τ) Text Unit)
      (invokeHandler msg faults.handler) := by
    intro w
    unfold invokeHandler
    cases faults.handler <;> rfl
  apply seenAs_bind hhandler
  intro _
  apply seenAs_bind (seenAs_perform fun w => rfl)
  intro _
  exact seenAs_perform fun w => ackMessage_seen h runner msg w

theorem deliver_seen (msg : QueueMessage δ) (faults : DeliveryFaults) :
    SeenAs (World.mapQueue seen) (deliver fine runner msg faults)
      (deliver port runner msg faults) := by
  unfold deliver
  split
  · exact deadLetter_seen h runner msg _ faults
  · apply seenAs_handle (attempt_seen h runner msg faults)
    intro errorClass
    apply seenAs_bind (seenAs_perform fun w => rfl)
    intro _
    split
    · exact deadLetter_seen h runner msg errorClass faults
    · exact seenAs_raise errorClass

theorem consumeBatch_seen (consumerName : Text) (fault : Fault Text) :
    SeenAs (World.mapQueue seen) (consumeBatch fine runner consumerName fault)
      (consumeBatch port runner consumerName fault) := by
  apply seenAs_perform
  intro w
  simp only [World.mapQueue, h.consume]

theorem step_seen {actFine : Env → τ → τ} {act : Env → σ → σ}
    (hact : ∀ action t, act action (seen t) = seen (actFine action t)) (s : State τ δ)
    (a : Step Env) : step act port runner (s.mapQueue seen) a =
      (step actFine fine runner s a).map (State.mapQueue seen) := by
  cases a with
  | others action =>
    simp only [step, State.mapQueue, World.mapQueue, hact, Option.map_some]
  | consume consumerName fault =>
    have hconsumed := consumeBatch_seen h runner consumerName fault s.world
    by_cases hempty : s.batch.isEmpty = true
    · simp only [step, State.mapQueue, hempty, if_true, hconsumed, Option.map_some]
    · simp only [step, State.mapQueue, hempty, Bool.false_eq_true, if_false, Option.map_none]
  | deliver faults =>
    obtain ⟨world, batch⟩ := s
    cases batch with
    | nil => rfl
    | cons msg rest =>
      by_cases hstop : faults.stopRequested = true
      · simp only [step, State.mapQueue, hstop, if_true, Option.map_some]
      · have hdelivered := deliver_seen h runner msg faults world
        simp only [step, State.mapQueue, hstop, Bool.false_eq_true, if_false, hdelivered,
          Option.map_some]

end Seen

def triageRunner : WorkerRunner where
  queueName := "TRIAGE_QUEUE".toList
  group := "backend.triage".toList
  consumerName := "host-1".toList

end LandRecords.Worker
