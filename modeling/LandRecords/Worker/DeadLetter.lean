import LandRecords.Worker.Delivery

/-! When a delivery reaches the dead-letter queue, read off its faults and the
delivery count, and what has happened to the message by then. -/
namespace LandRecords.Worker

open Queue Text Fallible

section Attempt

variable {σ δ : Type} {port : QueuePort σ δ} {runner : WorkerRunner}

/-- The `try` block ends in an exception. -/
def DeliveryFaults.AttemptRaises (faults : DeliveryFaults) : Prop :=
  faults.handler.isRaise = true ∨ faults.handler = .none ∧
    (faults.commit.isRaise = true ∨ faults.commit = .none ∧ faults.ack.isRaise = true)

instance (faults : DeliveryFaults) : Decidable faults.AttemptRaises :=
  inferInstanceAs (Decidable (_ ∨ _ ∧ (_ ∨ _ ∧ _)))

/-- The delivery reaches `_dead_letter`. -/
def DeadLetters (runner : WorkerRunner) (msg : QueueMessage δ) (faults : DeliveryFaults) : Prop :=
  runner.maxDeliveries < msg.deliveryCount ∨
    runner.maxDeliveries = msg.deliveryCount ∧ faults.AttemptRaises ∧ faults.rollback = .none

instance (runner : WorkerRunner) (msg : QueueMessage δ) (faults : DeliveryFaults) :
    Decidable (DeadLetters runner msg faults) :=
  inferInstanceAs (Decidable (_ ∨ _ ∧ _))

/-- What is left of the `try` block once the handler has returned. -/
def commitAndAck (port : QueuePort σ δ) (runner : WorkerRunner) (msg : QueueMessage δ)
    (faults : DeliveryFaults) : Fallible (World σ) Text Unit := do
  perform faults.commit (record (.committed msg.sequenceId))
  perform faults.ack (ackMessage port runner msg)

theorem attempt_handled {msg : QueueMessage δ} {faults : DeliveryFaults}
    (h : faults.handler = .none) (w : World σ) : attempt port runner msg faults w =
      commitAndAck port runner msg faults (record (.handled msg.sequenceId) w).2 := by
  have hhandler : (invokeHandler msg faults.handler : Fallible (World σ) Text Unit) w =
      (.returned (), (record (.handled msg.sequenceId) w).2) := by rw [h]; rfl
  exact bind_returned hhandler

theorem invokeHandler_failed (msg : QueueMessage δ) {fault : Fault Text} (h : fault ≠ .none)
    (w : World σ) :
    (∀ value, (invokeHandler msg fault w).1 ≠ .returned value) ∧
      (invokeHandler msg fault w).2 = (record (.handlerFailed msg.sequenceId) w).2 := by
  cases fault with
  | none => exact absurd rfl h
  | raises _ _ => exact ⟨fun _ => nofun, rfl⟩
  | crashes _ => exact ⟨fun _ => nofun, rfl⟩

theorem attempt_failed {msg : QueueMessage δ} {faults : DeliveryFaults}
    (h : faults.handler ≠ .none) (w : World σ) : (attempt port runner msg faults w).2 =
      (record (.handlerFailed msg.sequenceId) w).2 := by
  obtain ⟨hexit, hworld⟩ := invokeHandler_failed msg h w
  rw [← hworld]
  exact bind_world_of_not_returned hexit

theorem invokeHandler_isRaised (msg : QueueMessage δ) (fault : Fault Text) (w : World σ) :
    (invokeHandler msg fault w).1.isRaised = fault.isRaise := by
  cases fault with
  | none => rfl
  | raises _ _ => rfl
  | crashes _ => rfl

theorem attempt_isRaised (msg : QueueMessage δ) (faults : DeliveryFaults) (w : World σ) :
    (attempt port runner msg faults w).1.isRaised = true ↔ faults.AttemptRaises := by
  unfold attempt DeliveryFaults.AttemptRaises
  rw [bind_isRaised, invokeHandler_isRaised]
  by_cases hfault : faults.handler = .none
  · simp only [hfault, bind_isRaised, perform_isRaised, perform_returned]
    simp [invokeHandler]
  · have hexit := (invokeHandler_failed msg hfault w).1
    simp [hfault, hexit]

/-- `_dead_letter` gets to its end. -/
def DeliveryFaults.DeadLetterReturns (faults : DeliveryFaults) : Prop :=
  faults.publish = .none ∧ faults.recordDeadLettered = .none ∧ faults.auditCommit = .none ∧
    faults.deadLetterAck = .none

/-- The `try` block gets to its end. -/
def DeliveryFaults.AttemptReturns (faults : DeliveryFaults) : Prop :=
  faults.handler = .none ∧ faults.commit = .none ∧ faults.ack = .none

def DeliveryReturns (runner : WorkerRunner) (msg : QueueMessage δ) (faults : DeliveryFaults) :
    Prop :=
  DeadLetters runner msg faults ∧ faults.DeadLetterReturns ∨
    msg.deliveryCount ≤ runner.maxDeliveries ∧ faults.AttemptReturns

instance (runner : WorkerRunner) (msg : QueueMessage δ) (faults : DeliveryFaults) :
    Decidable (DeliveryReturns runner msg faults) :=
  inferInstanceAs (Decidable (_ ∧ (_ ∧ _ ∧ _ ∧ _) ∨ _ ∧ (_ ∧ _ ∧ _)))

theorem deadLetter_returned (msg : QueueMessage δ) (errorClass : Text) (faults : DeliveryFaults)
    (w : World σ) :
    (deadLetter port runner msg errorClass faults w).1 = .returned () ↔
      faults.DeadLetterReturns := by
  unfold deadLetter DeliveryFaults.DeadLetterReturns
  simp [bind_returned_iff, perform_returned]

theorem attempt_returned (msg : QueueMessage δ) (faults : DeliveryFaults) (w : World σ) :
    (attempt port runner msg faults w).1 = .returned () ↔ faults.AttemptReturns := by
  unfold attempt DeliveryFaults.AttemptReturns
  have hhandler : ∀ value, (invokeHandler msg faults.handler w).1 = .returned value ↔
      faults.handler = .none := by
    intro value
    cases faults.handler with
    | none => simp [invokeHandler]
    | raises _ _ => simp [invokeHandler]
    | crashes _ => simp [invokeHandler]
  simp [bind_returned_iff, perform_returned, hhandler]

theorem deliver_returned (msg : QueueMessage δ) (faults : DeliveryFaults) (w : World σ) :
    (deliver port runner msg faults w).1 = .returned () ↔ DeliveryReturns runner msg faults := by
  unfold deliver DeliveryReturns DeadLetters
  by_cases hover : runner.maxDeliveries < msg.deliveryCount
  · have hlate : ¬(msg.deliveryCount : Int) ≤ runner.maxDeliveries := by omega
    rw [if_pos hover, deadLetter_returned]
    simp [hover, hlate]
  rw [if_neg hover]
  have hintime : (msg.deliveryCount : Int) ≤ runner.maxDeliveries := by omega
  by_cases hraises : faults.AttemptRaises
  · have hexit : (attempt port runner msg faults w).1.isRaised = true :=
      (attempt_isRaised msg faults w).mpr hraises
    have hreturned : (attempt port runner msg faults w).1 = .returned () ↔ _ :=
      attempt_returned msg faults w
    cases hattempt : attempt port runner msg faults w with
    | mk exit w' =>
      rw [hattempt] at hexit hreturned
      cases exit with
      | returned _ => exact Bool.noConfusion hexit
      | crashed => exact Bool.noConfusion hexit
      | raised errorClass =>
        have hnot : ¬faults.AttemptReturns := fun h => by cases hreturned.mpr h
        rw [handle_raised hattempt, bind_returned_iff]
        simp only [perform_returned]
        by_cases hlast : runner.maxDeliveries ≤ msg.deliveryCount
        · have heq : runner.maxDeliveries = msg.deliveryCount := by omega
          simp [heq, hraises, hnot, deadLetter_returned]
        · have hne : runner.maxDeliveries ≠ msg.deliveryCount := by omega
          simp [hlast, hne, hover, hnot, raise]
  · have hexit : (attempt port runner msg faults w).1.isRaised = false := by
      rw [← Bool.not_eq_true, attempt_isRaised]
      exact hraises
    rw [handle_not_raised hexit, attempt_returned]
    simp [hover, hraises, hintime]

theorem deliver_acked {A : World σ → Prop} {msg : QueueMessage δ}
    (hack : ∀ w, A (ackMessage port runner msg w).2) {faults : DeliveryFaults} {w : World σ}
    (h : DeliveryReturns runner msg faults) : A (deliver port runner msg faults w).2 := by
  have hlast : ∀ fault : Fault Text, Triple (fun _ => True)
      (perform fault (ackMessage port runner msg)) (fun _ => A) (fun _ _ => True)
      fun _ => True := fun fault =>
    triple_perform (fun _ w _ => hack w) (fun _ _ _ _ _ => trivial) fun _ _ _ _ => trivial
  have hdeadLetter : ∀ errorClass, Triple (fun _ => True)
      (deadLetter port runner msg errorClass faults) (fun _ => A) (fun _ _ => True)
      fun _ => True := fun _ =>
    triple_bind triple_true fun _ => triple_bind triple_true fun _ =>
      triple_bind triple_true fun _ => hlast _
  have hattempt : Triple (fun _ => True) (attempt port runner msg faults) (fun _ => A)
      (fun _ _ => True) fun _ => True :=
    triple_bind triple_true fun _ => triple_bind triple_true fun _ => hlast _
  have hdeliver : Triple (fun _ => True) (deliver port runner msg faults) (fun _ => A)
      (fun _ _ => True) fun _ => True := by
    unfold deliver
    split
    · exact hdeadLetter _
    · apply triple_handle hattempt
      intro errorClass
      apply triple_bind triple_true
      intro _
      split
      · exact hdeadLetter errorClass
      · exact triple_raise fun _ _ => trivial
  have hexit := hdeliver w trivial
  cases hd : deliver port runner msg faults w with
  | mk exit w' =>
    have hreturned : (deliver port runner msg faults w).1 = .returned () :=
      (deliver_returned msg faults w).mpr h
    rw [hd] at hexit hreturned
    cases exit with
    | returned _ => exact hexit
    | raised _ => cases hreturned
    | crashed => cases hreturned

end Attempt

def DeadLetterRule (rule : List Event → Text → Prop) (past : List Event) : Event → Prop
  | .deadLettered sequenceId _ => rule past sequenceId
  | _ => True

instance (rule : List Event → Text → Prop) [∀ past id, Decidable (rule past id)]
    (past : List Event) : DecidablePred (DeadLetterRule rule past)
  | .deadLettered sequenceId _ => inferInstanceAs (Decidable (rule past sequenceId))
  | .handled _ | .handlerFailed _ | .committed _ | .audited _ _ | .acked _ =>
      inferInstanceAs (Decidable True)

section Rule

variable {σ δ : Type} {port : QueuePort σ δ} {runner : WorkerRunner}
  {rule : List Event → Text → Prop}

theorem guarded_record {w : World σ} {event : Event}
    (h : ∀ past, DeadLetterRule rule past event) :
    Guarded (DeadLetterRule rule) (record event w).2.trace ↔
      Guarded (DeadLetterRule rule) w.trace :=
  Guarded.concat.trans (and_iff_left (h w.trace))

theorem deadLetter_guarded (msg : QueueMessage δ) (errorClass : Text) (faults : DeliveryFaults)
    (w : World σ) :
    Guarded (DeadLetterRule rule) (deadLetter port runner msg errorClass faults w).2.trace ↔
      Guarded (DeadLetterRule rule) w.trace ∧
        (faults.publish.tookEffect = true → rule w.trace msg.sequenceId) := by
  let Judged (w' : World σ) : Prop :=
    Guarded (DeadLetterRule rule) w'.trace ↔ Guarded (DeadLetterRule rule) w.trace ∧
      (faults.publish.tookEffect = true → rule w.trace msg.sequenceId)
  have hpublish : Judged (perform faults.publish (publishDeadLetter port runner msg) w).2 := by
    rw [perform_world]
    cases hpublish : faults.publish.tookEffect with
    | false => simp [Judged, hpublish]
    | true =>
      simp only [Judged, hpublish, if_true, forall_const]
      exact Guarded.concat
  have hneutral : ∀ event w', (∀ past, DeadLetterRule rule past event) → Judged w' →
      Judged (record event w').2 := fun _ _ hevent h => (guarded_record hevent).trans h
  unfold deadLetter
  exact world_bind hpublish fun _ => triple_bind (preserves_perform fun _ h => h) fun _ =>
    triple_bind (preserves_perform fun _ => hneutral _ _ fun _ => trivial) fun _ =>
      preserves_perform fun w' h => hneutral _ { w' with queue := _ } (fun _ => trivial) h

theorem attempt_guarded (msg : QueueMessage δ) (faults : DeliveryFaults) (w : World σ) :
    Guarded (DeadLetterRule rule) (attempt port runner msg faults w).2.trace ↔
      Guarded (DeadLetterRule rule) w.trace := by
  let Judged (w' : World σ) : Prop :=
    Guarded (DeadLetterRule rule) w'.trace ↔ Guarded (DeadLetterRule rule) w.trace
  have hneutral : ∀ event w', (∀ past, DeadLetterRule rule past event) → Judged w' →
      Judged (record event w').2 := fun _ _ hevent h => (guarded_record hevent).trans h
  have hhandler : Judged (invokeHandler msg faults.handler w).2 := by
    cases hfault : faults.handler with
    | none => exact hneutral _ _ (fun _ => trivial) Iff.rfl
    | raises _ _ => exact hneutral _ _ (fun _ => trivial) Iff.rfl
    | crashes _ => exact hneutral _ _ (fun _ => trivial) Iff.rfl
  unfold attempt
  exact world_bind hhandler fun _ =>
    triple_bind (preserves_perform fun _ => hneutral _ _ fun _ => trivial) fun _ =>
      preserves_perform fun w' h => hneutral _ { w' with queue := _ } (fun _ => trivial) h

def pastOfDeadLetter (port : QueuePort σ δ) (runner : WorkerRunner) (msg : QueueMessage δ)
    (faults : DeliveryFaults) (w : World σ) : List Event :=
  if runner.maxDeliveries < msg.deliveryCount then w.trace
  else (attempt port runner msg faults w).2.trace

theorem deliver_guarded (msg : QueueMessage δ) (faults : DeliveryFaults) (w : World σ) :
    Guarded (DeadLetterRule rule) (deliver port runner msg faults w).2.trace ↔
      Guarded (DeadLetterRule rule) w.trace ∧ (DeadLetters runner msg faults →
        faults.publish.tookEffect = true →
          rule (pastOfDeadLetter port runner msg faults w) msg.sequenceId) := by
  unfold deliver DeadLetters pastOfDeadLetter
  by_cases hover : runner.maxDeliveries < msg.deliveryCount
  · rw [if_pos hover, if_pos hover, deadLetter_guarded]
    simp [hover]
  rw [if_neg hover, if_neg hover]
  have hguarded : Guarded (DeadLetterRule rule) (attempt port runner msg faults w).2.trace ↔ _ :=
    attempt_guarded msg faults w
  by_cases hraises : faults.AttemptRaises
  · have hexit : (attempt port runner msg faults w).1.isRaised = true :=
      (attempt_isRaised msg faults w).mpr hraises
    cases hattempt : attempt port runner msg faults w with
    | mk exit w' =>
      rw [hattempt] at hexit hguarded
      cases exit with
      | returned _ => exact Bool.noConfusion hexit
      | crashed => exact Bool.noConfusion hexit
      | raised errorClass =>
        rw [handle_raised hattempt]
        by_cases hrollback : faults.rollback = .none
        · rw [hrollback, perform_bind]
          by_cases hlast : runner.maxDeliveries ≤ msg.deliveryCount
          · have heq : runner.maxDeliveries = msg.deliveryCount := by omega
            rw [if_pos hlast, deadLetter_guarded, hguarded]
            simp [heq, hraises]
          · have hne : runner.maxDeliveries ≠ msg.deliveryCount := by omega
            rw [if_neg hlast]
            simp only [hover, hne, false_and, or_false, false_implies, and_true]
            exact hguarded
        · rw [perform_bind_world hrollback, hguarded]
          simp [hover, hrollback]
  · have hexit : (attempt port runner msg faults w).1.isRaised = false := by
      rw [← Bool.not_eq_true, attempt_isRaised]
      exact hraises
    rw [handle_not_raised hexit, hguarded]
    simp [hover, hraises]

end Rule

end LandRecords.Worker
