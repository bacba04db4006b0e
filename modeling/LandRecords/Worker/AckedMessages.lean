import LandRecords.Worker.OverDatabase
import LandRecords.Worker.Settlement

/-! The messages that workers over a database have acked. Without its database a delivery is one of
the runner, whose acks are settled; so what an acked message was for is achieved, or the message was
published to the dead-letter queue and the audit log says so. -/
namespace LandRecords.Worker

open Queue Text Fallible

/-! ## The runner without the database -/

section Forget

variable {σ δ D S α β α' β' : Type} {service : Service σ δ D S} {w : ServiceWorld σ δ D} {v : World σ}

def Event.isDurable : Event → Bool
  | .handled _ | .handlerFailed _ => false
  | _ => true

def Shows (w : ServiceWorld σ δ D) (v : World σ) : Prop :=
  w.queue = v.queue ∧ w.log.map Prod.fst = v.trace.filter Event.isDurable

def Mirrors (m : Fallible (ServiceWorld σ δ D) Text α) (m' : Fallible (World σ) Text α')
    (w : ServiceWorld σ δ D) (v : World σ) : Prop :=
  match m w, m' v with
  | (.returned _, w'), (.returned _, v') => Shows w' v'
  | (.raised e, w'), (.raised e', v') => e = e' ∧ Shows w' v'
  | (.crashed, w'), (.crashed, v') => Shows w' v'
  | _, _ => False

theorem Mirrors.bind {m : Fallible (ServiceWorld σ δ D) Text α} {m' : Fallible (World σ) Text α'}
    {f : α → Fallible (ServiceWorld σ δ D) Text β} {f' : α' → Fallible (World σ) Text β'}
    (h : Mirrors m m' w v)
    (hrest : ∀ a a' w' v', m w = (.returned a, w') → m' v = (.returned a', v') → Shows w' v' →
      Mirrors (f a) (f' a') w' v') : Mirrors (m >>= f) (m' >>= f') w v := by
  unfold Mirrors at h
  cases hm : m w with
  | mk exit w' =>
    cases hm' : m' v with
    | mk exit' v' =>
      rw [hm, hm'] at h
      unfold Mirrors
      cases exit with
      | returned a =>
        cases exit' with
        | returned a' =>
          rw [bind_returned hm, bind_returned hm']
          exact hrest a a' w' v' hm hm' h
        | raised _ => exact h.elim
        | crashed => exact h.elim
      | raised e =>
        cases exit' with
        | returned _ => exact h.elim
        | raised e' =>
          rw [bind_raised hm, bind_raised hm']
          exact h
        | crashed => exact h.elim
      | crashed =>
        cases exit' with
        | returned _ => exact h.elim
        | raised _ => exact h.elim
        | crashed =>
          rw [bind_crashed hm, bind_crashed hm']
          exact h

theorem mirrors_perform (fault : Fault Text) {effect : ServiceWorld σ δ D → α × ServiceWorld σ δ D}
    {effect' : World σ → α' × World σ} (h : Shows w v) (heffect : Shows (effect w).2 (effect' v).2) :
    Mirrors (perform fault effect) (perform fault effect') w v := by
  cases fault with
  | none => exact heffect
  | raises tookEffect e => cases tookEffect <;> exact ⟨rfl, by assumption⟩
  | crashes tookEffect => cases tookEffect <;> assumption

theorem Mirrors.handle {m : Fallible (ServiceWorld σ δ D) Text α} {m' : Fallible (World σ) Text α}
    {handler : Text → Fallible (ServiceWorld σ δ D) Text α}
    {handler' : Text → Fallible (World σ) Text α} (h : Mirrors m m' w v)
    (hhandler : ∀ e w' v', m w = (.raised e, w') → Shows w' v' →
      Mirrors (handler e) (handler' e) w' v') :
    Mirrors (Fallible.handle m handler) (Fallible.handle m' handler') w v := by
  unfold Mirrors at h
  cases hm : m w with
  | mk exit w' =>
    cases hm' : m' v with
    | mk exit' v' =>
      rw [hm, hm'] at h
      cases exit with
      | raised e =>
        cases exit' with
        | raised e' =>
          have hboth := hhandler e w' v' hm h.2
          unfold Mirrors
          rw [handle_raised hm, handle_raised hm', ← h.1]
          exact hboth
        | returned _ => exact h.elim
        | crashed => exact h.elim
      | returned a =>
        unfold Mirrors
        rw [handle_not_raised (by rw [hm]; rfl), hm]
        cases exit' with
        | returned a' =>
          rw [handle_not_raised (by rw [hm']; rfl), hm']
          exact h
        | raised _ => exact h.elim
        | crashed => exact h.elim
      | crashed =>
        unfold Mirrors
        rw [handle_not_raised (by rw [hm]; rfl), hm]
        cases exit' with
        | crashed =>
          rw [handle_not_raised (by rw [hm']; rfl), hm']
          exact h
        | raised _ => exact h.elim
        | returned _ => exact h.elim

def faultOf : Exit Text α → Fault Text
  | .returned _ => .none
  | .raised e => .raises false e
  | .crashed => .crashes false

theorem Shows.note (h : Shows w v) (msg : QueueMessage δ) {event : Event}
    (hdurable : event.isDurable = true) : Shows (Worker.note msg event w).2 (record event v).2 := by
  refine ⟨h.1, ?_⟩
  have htrace : (record event v).2.trace = v.trace ++ [event] := rfl
  have hlog : (Worker.note msg event w).2.log = w.log ++ [(event, msg)] := rfl
  rw [htrace, hlog, List.map_append, h.2, List.filter_append, List.filter_cons_of_pos hdurable]
  rfl

theorem Shows.makeDurable (h : Shows w v) (current : D) (msg : QueueMessage δ) {event : Event}
    (hdurable : event.isDurable = true) :
    Shows (makeDurable current msg event w).2 (record event v).2 :=
  Shows.note (w := { w with db := current }) h msg hdurable

theorem runSession_shows (m : Fallible (Connection D) Text α) (fault : Fault Text)
    (h : Shows w v) : Shows (runSession m fault w).2 v := by
  unfold runSession
  cases fault with
  | raises _ _ => exact h
  | crashes _ => exact h
  | none =>
    cases m ⟨w.db, w.db⟩ with
    | mk exit session => cases exit <;> exact h

theorem invokeHandler_mirrors (msg : QueueMessage δ) (m : Fallible (Connection D) Text α)
    (fault : Fault Text) (h : Shows w v) :
    Mirrors (runSession m fault) (invokeHandler msg (faultOf (runSession m fault w).1)) w v := by
  have hshows := runSession_shows m fault h
  unfold Mirrors
  cases hran : runSession m fault w with
  | mk exit w' =>
    rw [hran] at hshows
    have hhidden : ∀ event : Event, event.isDurable = false → Shows w' (record event v).2 := by
      intro event hevent
      refine ⟨hshows.1, ?_⟩
      have htrace : (record event v).2.trace = v.trace ++ [event] := rfl
      rw [htrace, List.filter_append, List.filter_singleton, hevent]
      exact hshows.2.trans (List.append_nil _).symm
    cases exit with
    | returned _ => exact hhidden _ rfl
    | raised e => exact ⟨rfl, hhidden _ rfl⟩
    | crashed => exact hhidden _ rfl

theorem recordDeadLettered_mirrors (m : Fallible (Connection D) Text α) (fault : Fault Text)
    (h : Shows w v) : Mirrors (runSession m fault)
      (perform (faultOf (runSession m fault w).1) fun v => ((), v)) w v := by
  have hshows := runSession_shows m fault h
  unfold Mirrors
  cases hran : runSession m fault w with
  | mk exit w' =>
    rw [hran] at hshows
    cases exit with
    | returned _ => exact hshows
    | raised e => exact ⟨rfl, hshows⟩
    | crashed => exact hshows

theorem Shows.withQueue (h : Shows w v) (queue : σ) :
    Shows { w with queue := queue } { v with queue := queue } := ⟨rfl, h.2⟩

theorem Shows.ack (h : Shows w v) (msg : QueueMessage δ) :
    Shows (ackDelivered service msg w).2 (ackMessage service.port service.runner msg v).2 := by
  unfold ackDelivered ackMessage
  rw [h.1]
  exact (h.withQueue _).note msg rfl

theorem Shows.publish (h : Shows w v) (msg : QueueMessage δ) :
    Shows (publishLetter service msg w).2 (publishDeadLetter service.port service.runner msg v).2 := by
  unfold publishLetter publishDeadLetter
  rw [h.1]
  exact (h.withQueue _).note msg rfl

def entryFault (service : Service σ δ D S) (msg : QueueMessage δ) (errorClass : Text) (seed : S)
    (faults : DeliveryFaults) (w : ServiceWorld σ δ D) : Fault Text :=
  faultOf (runSession (flushing id (service.auditAppend seed (letterEntry service msg errorClass)))
    faults.recordDeadLettered (publishLetter service msg w).2).1

def lettersFaults (service : Service σ δ D S) (msg : QueueMessage δ) (errorClass : Text) (seed : S)
    (faults : DeliveryFaults) (w : ServiceWorld σ δ D) : DeliveryFaults :=
  { faults with recordDeadLettered := entryFault service msg errorClass seed faults w }

theorem writeOff_mirrors (msg : QueueMessage δ) (errorClass : Text) (seed : S)
    (faults : DeliveryFaults) (h : Shows w v) :
    Mirrors (writeOff service msg errorClass seed faults)
      (deadLetter service.port service.runner msg errorClass
        (lettersFaults service msg errorClass seed faults w)) w v := by
  unfold writeOff deadLetter
  apply Mirrors.bind (mirrors_perform faults.publish h (h.publish msg))
  intro _ _ w₁ v₁ hpublish _ hshows
  have hw₁ : w₁ = (publishLetter service msg w).2 := by
    cases hfault : faults.publish with
    | none =>
      rw [hfault] at hpublish
      exact (Prod.mk.inj hpublish).2.symm
    | raises _ _ =>
      rw [hfault] at hpublish
      cases hpublish
    | crashes _ =>
      rw [hfault] at hpublish
      cases hpublish
  subst hw₁
  apply Mirrors.bind (recordDeadLettered_mirrors _ _ hshows)
  intro current _ w₂ v₂ _ _ hshows
  apply Mirrors.bind (mirrors_perform faults.auditCommit hshows (hshows.makeDurable current msg rfl))
  intro _ _ w₃ v₃ _ _ hshows
  exact mirrors_perform faults.deadLetterAck hshows (hshows.ack msg)

theorem attemptDelivery_mirrors (msg : QueueMessage δ) (seed : S) (faults seen : DeliveryFaults)
    (h : Shows w v)
    (hhandler : seen.handler =
      faultOf (runSession (service.handler msg.data seed) faults.handler w).1)
    (hcommit : seen.commit = faults.commit) (hack : seen.ack = faults.ack) :
    Mirrors (attemptDelivery service msg seed faults)
      (attempt service.port service.runner msg seen) w v := by
  unfold attemptDelivery attempt
  rw [hhandler, hcommit, hack]
  apply Mirrors.bind (invokeHandler_mirrors msg _ faults.handler h)
  intro current _ w₁ v₁ _ _ hshows
  apply Mirrors.bind (mirrors_perform faults.commit hshows (hshows.makeDurable current msg rfl))
  intro _ _ w₂ v₂ _ _ hshows
  exact mirrors_perform faults.ack hshows (hshows.ack msg)

theorem handled_mirrors (msg : QueueMessage δ) (seed : S) (faults seen : DeliveryFaults)
    (hattempt : Mirrors (attemptDelivery service msg seed faults)
      (attempt service.port service.runner msg seen) w v)
    (hrollback : seen.rollback = faults.rollback)
    (hletter : ∀ errorClass after v', attemptDelivery service msg seed faults w =
      (.raised errorClass, after) → Shows after v' →
        Mirrors (writeOff service msg errorClass seed faults)
          (deadLetter service.port service.runner msg errorClass seen) after v')
    (htime : ¬service.runner.maxDeliveries < msg.deliveryCount) :
    Mirrors (serveDelivery service msg seed faults)
      (deliver service.port service.runner msg seen) w v := by
  unfold serveDelivery deliver
  rw [if_neg htime, if_neg htime, hrollback]
  apply Mirrors.handle hattempt
  intro errorClass after v₁ hraised hshows
  apply Mirrors.bind (mirrors_perform faults.rollback hshows hshows)
  intro _ _ w₂ v₂ hrolled _ hafter
  have hsame : w₂ = after := by
    cases hfault : faults.rollback with
    | none =>
      rw [hfault] at hrolled
      exact (Prod.mk.inj hrolled).2.symm
    | raises _ _ =>
      rw [hfault] at hrolled
      cases hrolled
    | crashes _ =>
      rw [hfault] at hrolled
      cases hrolled
  subst hsame
  split
  · exact hletter errorClass w₂ v₂ hraised hafter
  · exact ⟨rfl, hafter⟩

def seenFaults (service : Service σ δ D S) (msg : QueueMessage δ) (seed : S)
    (faults : DeliveryFaults) (w : ServiceWorld σ δ D) : DeliveryFaults :=
  if service.runner.maxDeliveries < msg.deliveryCount then
    lettersFaults service msg "MaxDeliveriesExceeded".toList seed faults w
  else
    match attemptDelivery service msg seed faults w with
    | (.raised errorClass, after) =>
        { lettersFaults service msg errorClass seed faults after with
          handler := faultOf (runSession (service.handler msg.data seed) faults.handler w).1 }
    | _ =>
        { faults with
          handler := faultOf (runSession (service.handler msg.data seed) faults.handler w).1 }

variable (service) in
theorem serveDelivery_mirrors (msg : QueueMessage δ) (seed : S) (faults : DeliveryFaults)
    (h : Shows w v) :
    Mirrors (serveDelivery service msg seed faults)
      (deliver service.port service.runner msg (seenFaults service msg seed faults w)) w v := by
  by_cases hover : service.runner.maxDeliveries < msg.deliveryCount
  · have hseen : seenFaults service msg seed faults w =
        lettersFaults service msg "MaxDeliveriesExceeded".toList seed faults w := if_pos hover
    rw [hseen]
    unfold serveDelivery deliver
    rw [if_pos hover, if_pos hover]
    exact writeOff_mirrors msg _ seed faults h
  · cases hattempt : attemptDelivery service msg seed faults w with
    | mk exit after =>
      cases exit with
      | raised errorClass =>
        have hseen : seenFaults service msg seed faults w =
            { lettersFaults service msg errorClass seed faults after with
              handler := faultOf (runSession (service.handler msg.data seed) faults.handler w).1 } := by
          unfold seenFaults
          rw [if_neg hover, hattempt]
        rw [hseen]
        refine handled_mirrors msg seed faults _ ?_ ?_ ?_ hover
        · exact attemptDelivery_mirrors msg seed faults _ h rfl rfl rfl
        · rfl
        · intro e after' v' hraised hshows
          cases hattempt.symm.trans hraised
          exact writeOff_mirrors msg errorClass seed faults hshows
      | _ =>
        have hseen : seenFaults service msg seed faults w =
            { faults with
              handler := faultOf (runSession (service.handler msg.data seed) faults.handler w).1 } := by
          unfold seenFaults
          rw [if_neg hover, hattempt]
        rw [hseen]
        refine handled_mirrors msg seed faults _ ?_ ?_ ?_ hover
        · exact attemptDelivery_mirrors msg seed faults _ h rfl rfl rfl
        · rfl
        · intro e after' v' hraised hshows
          cases hattempt.symm.trans hraised

theorem Mirrors.world {m : Fallible (ServiceWorld σ δ D) Text α}
    {m' : Fallible (World σ) Text α'} (h : Mirrors m m' w v) : Shows (m w).2 (m' v).2 := by
  unfold Mirrors at h
  cases hm : m w with
  | mk exit w' =>
    cases hm' : m' v with
    | mk exit' v' =>
      rw [hm, hm'] at h
      cases exit with
      | returned _ =>
        cases exit' with
        | returned _ => exact h
        | _ => exact h.elim
      | raised _ =>
        cases exit' with
        | raised _ => exact h.2
        | _ => exact h.elim
      | crashed =>
        cases exit' with
        | crashed => exact h
        | _ => exact h.elim

def Notes (log : List (Event × QueueMessage δ)) (msg : QueueMessage δ) (w : ServiceWorld σ δ D) :
    Prop :=
  ∃ noted, w.log = log ++ noted ∧ ∀ entry ∈ noted, entry.2 = msg ∧ entry.1.isDurable = true

theorem Notes.note {log : List (Event × QueueMessage δ)} {msg : QueueMessage δ}
    (h : Notes log msg w) {event : Event} (hdurable : event.isDurable = true) :
    Notes log msg (Worker.note msg event w).2 := by
  obtain ⟨noted, hlog, hall⟩ := h
  refine ⟨noted ++ [(event, msg)], ?_, fun entry hentry => ?_⟩
  · change w.log ++ _ = _
    rw [hlog, List.append_assoc]
  · rcases List.mem_append.mp hentry with hold | hnew
    · exact hall entry hold
    · rw [List.mem_singleton.mp hnew]
      exact ⟨rfl, hdurable⟩

theorem runSession_notes {log : List (Event × QueueMessage δ)} {msg : QueueMessage δ}
    (m : Fallible (Connection D) Text α) (fault : Fault Text) :
    Preserves (Notes (σ := σ) log msg) (runSession m fault) :=
  triple_runSession (fun _ hw => hw) fun _ _ _ hw _ => hw

variable (service) in
theorem serveDelivery_notes (log : List (Event × QueueMessage δ)) (msg : QueueMessage δ) (seed : S)
    (faults : DeliveryFaults) :
    Preserves (Notes log msg) (serveDelivery service msg seed faults) := by
  have hack : ∀ fault : Fault Text,
      Preserves (Notes log msg) (perform fault (ackDelivered service msg)) :=
    fun fault => preserves_perform fun _ hw => Notes.note hw rfl
  have hletter : ∀ errorClass, Preserves (Notes log msg)
      (writeOff service msg errorClass seed faults) := by
    intro errorClass
    apply preserves_bind (preserves_perform fun _ hw => Notes.note hw rfl)
    intro _
    apply preserves_bind (runSession_notes _ _)
    intro current
    exact preserves_bind (preserves_perform fun _ hw => Notes.note hw rfl) fun _ => hack _
  unfold serveDelivery
  split
  · exact hletter _
  · refine triple_handle (preserves_bind (runSession_notes _ _) fun current =>
      preserves_bind (preserves_perform fun _ hw => Notes.note hw rfl) fun _ => hack _) ?_
    intro errorClass
    apply triple_bind (preserves_perform fun _ hw => hw)
    intro _
    split
    · exact hletter errorClass
    · exact triple_raise fun _ hw => hw

end Forget

/-! ## Acked messages -/

section Acked

variable {σ δ D S Env Write : Type}

/-- The service on the port with its record. -/
def Service.recorded (service : Service σ δ D S) : Service (RecordedQueue σ δ) δ D S where
  port := service.port.recorded
  runner := service.runner
  handler := service.handler
  auditAppend := service.auditAppend

variable {act : Env → σ → σ} {apply : Write → D → D} {service : Service σ δ D S}
variable {purpose : Purpose δ D} {log : List (Event × QueueMessage δ)} {past : List (RecordedCall δ)}

def SettledBy (runner : WorkerRunner) (past : List (RecordedCall δ))
    (log : List (Event × QueueMessage δ)) (msg : QueueMessage δ) : Prop :=
  (Event.committed msg.sequenceId, msg) ∈ log ∨
    .published runner.dlqName msg.data ∈ past ∧ ∃ errorClass, (Event.audited msg.sequenceId
      (recordDeadLettered runner.queueName msg.sequenceId msg.deliveryCount errorClass), msg) ∈ log

theorem SettledBy.mono {runner : WorkerRunner} {msg : QueueMessage δ}
    {past' : List (RecordedCall δ)} {log' : List (Event × QueueMessage δ)}
    (h : SettledBy runner past log msg) (hpast : past ⊆ past') (hlog : log ⊆ log') :
    SettledBy runner past' log' msg := by
  rcases h with hcommitted | ⟨hpublished, errorClass, haudited⟩
  · exact .inl (hlog hcommitted)
  · exact .inr ⟨hpast hpublished, errorClass, hlog haudited⟩

structure AcksLogged (runner : WorkerRunner) (s : ServiceState (RecordedQueue σ δ) δ D) : Prop where
  acks : Guarded (AckOf runner fun past msg => SettledBy runner past s.world.log msg)
    s.world.queue.calls
  batches : ∀ consumerName, ∀ msg ∈ s.batches consumerName,
    HandedOut runner.queueName runner.group s.world.queue.calls msg
  durable : ∀ entry ∈ s.world.log, entry.1.isDurable = true

/-- A delivery of the service adds to the record what the runner's delivery adds. -/
theorem serveDelivery_logs {w : ServiceWorld (RecordedQueue σ δ) δ D} {msg : QueueMessage δ}
    (seed : S) (faults : DeliveryFaults) (hdurable : ∀ entry ∈ w.log, entry.1.isDurable = true)
    (hmsg : HandedOut service.runner.queueName service.runner.group w.queue.calls msg)
    (hacks : Guarded (AckOf service.runner fun past msg => SettledBy service.runner past w.log msg)
      w.queue.calls) {w' : ServiceWorld (RecordedQueue σ δ) δ D}
    (hw' : w' = (serveDelivery service.recorded msg seed faults w).2) :
    Guarded (AckOf service.runner fun past msg => SettledBy service.runner past w'.log msg)
        w'.queue.calls ∧
      w.queue.calls <+: w'.queue.calls ∧ ∀ entry ∈ w'.log, entry.1.isDurable = true := by
  have hshows : Shows w ⟨w.queue, w.log.map Prod.fst⟩ := by
    refine ⟨rfl, (List.filter_eq_self.mpr fun event hevent => ?_).symm⟩
    obtain ⟨entry, hentry, rfl⟩ := List.mem_map.mp hevent
    exact hdurable entry hentry
  have hmirrors := (serveDelivery_mirrors service.recorded msg seed faults hshows).world
  obtain ⟨events, calls, hadds⟩ := deliver_added service.port service.runner msg
    (seenFaults service.recorded msg seed faults w) ⟨w.queue, w.log.map Prod.fst⟩
  have hcalls : w'.queue.calls = w.queue.calls ++ calls := by
    rw [hw', hmirrors.1]
    exact hadds.called
  obtain ⟨noted, hlog, hnoted⟩ := (serveDelivery_notes service.recorded w.log msg seed
    faults).world (w := w) ⟨[], (List.append_nil _).symm, fun _ h => nomatch h⟩
  rw [← hw'] at hlog
  have hevents : noted.map Prod.fst = events.filter Event.isDurable := by
    have hall := hmirrors.2
    have htrace : (deliver service.port.recorded service.runner msg
        (seenFaults service.recorded msg seed faults w) ⟨w.queue, w.log.map Prod.fst⟩).2.trace =
          w.log.map Prod.fst ++ events := hadds.trace
    change (serveDelivery service.recorded msg seed faults w).2.log.map Prod.fst =
      (deliver service.port.recorded service.runner msg _ _).2.trace.filter _ at hall
    rw [← hw', hlog, htrace, List.map_append, List.filter_append, ← hshows.2] at hall
    exact List.append_cancel_left hall
  have hentry : ∀ event ∈ events, event.isDurable = true → (event, msg) ∈ w'.log := by
    intro event hevent heventDurable
    have hmem : event ∈ noted.map Prod.fst := by
      rw [hevents]
      exact List.mem_filter.mpr ⟨hevent, heventDurable⟩
    obtain ⟨entry, hentry, rfl⟩ := List.mem_map.mp hmem
    rw [hlog, ← (hnoted entry hentry).1]
    exact List.mem_append_right _ hentry
  refine ⟨?_, hcalls ▸ List.prefix_append _ _, fun entry hmem => ?_⟩
  · rw [hcalls]
    refine Guarded.guardedFrom_append.mpr ⟨Guarded.imp_from hacks ?_, Guarded.imp_from hadds.acks ?_⟩
    · intro past call _ hcall
      exact hcall.imp fun other hother =>
        hother.mono (List.Subset.refl _) (hlog ▸ List.subset_append_left _ _)
    · intro past call hpast hown queue group sequenceId hack
      obtain ⟨hqueue, hgroup, hid, hsettled⟩ := hown queue group sequenceId hack
      refine ⟨hqueue, hgroup, msg, hid.symm, hmsg.mono hpast.subset, ?_⟩
      rcases hsettled with hcommitted | ⟨hpublished, errorClass, haudited⟩
      · exact .inl (hentry _ hcommitted rfl)
      · exact .inr ⟨hpublished, errorClass, hentry _ haudited rfl⟩
  · rw [hlog] at hmem
    rcases List.mem_append.mp hmem with hold | hnew
    · exact hdurable entry hold
    · exact (hnoted entry hnew).2

theorem consumeFor_logged (consumerName : Text) (fault : Fault Text)
    {s : ServiceState (RecordedQueue σ δ) δ D} (h : AcksLogged service.runner s) :
    AcksLogged service.runner (withBatch consumerName
      ((consumeFor service.recorded consumerName fault s.world).1.getD [])
      { s with world := (consumeFor service.recorded consumerName fault s.world).2 }) := by
  let consumed := service.port.consume service.runner.queueName service.runner.group consumerName
    service.runner.batchCount s.world.queue.queue
  let call : RecordedCall δ := .consumed service.runner.queueName service.runner.group consumed.1
  have hempty : ∀ world : ServiceWorld (RecordedQueue σ δ) δ D,
      AcksLogged service.runner { s with world := world } →
        AcksLogged service.runner (withBatch consumerName [] { s with world := world }) :=
    fun world hworld => ⟨hworld.acks,
      fun other msg hmsg => by
        change msg ∈ Function.update s.batches consumerName [] other at hmsg
        rw [Function.update_apply] at hmsg
        split at hmsg
        · cases hmsg
        · exact hworld.batches other msg hmsg,
      hworld.durable⟩
  have hafter : AcksLogged service.runner { s with world := { s.world with
      queue := ⟨consumed.2, s.world.queue.calls ++ [call]⟩ } } :=
    ⟨Guarded.concat.mpr ⟨h.acks, fun _ _ _ hack => nomatch hack⟩,
      fun other msg hmsg => (h.batches other msg hmsg).mono (List.subset_append_left _ _), h.durable⟩
  cases fault with
  | raises tookEffect _ =>
    cases tookEffect with
    | false => exact hempty s.world h
    | true => exact hempty _ hafter
  | crashes tookEffect =>
    cases tookEffect with
    | false => exact hempty s.world h
    | true => exact hempty _ hafter
  | none =>
    refine ⟨hafter.acks, fun other msg hmsg => ?_, h.durable⟩
    change msg ∈ Function.update s.batches consumerName consumed.1 other at hmsg
    rw [Function.update_apply] at hmsg
    split at hmsg
    · exact ⟨consumed.1, List.mem_append_right _ (List.mem_singleton_self _), hmsg⟩
    · exact hafter.batches other msg hmsg

theorem acksLogged_step (s : ServiceState (RecordedQueue σ δ) δ D) (a : ServiceStep S Env Write)
    (t : ServiceState (RecordedQueue σ δ) δ D) (hs : AcksLogged service.runner s)
    (hstep : serviceStep (RecordedQueue.others act) apply service.recorded s a = some t) :
    AcksLogged service.runner t := by
  cases a with
  | others action =>
    cases hstep
    exact ⟨hs.acks, hs.batches, hs.durable⟩
  | upstream write =>
    cases hstep
    exact ⟨hs.acks, hs.batches, hs.durable⟩
  | consume consumerName fault =>
    simp only [serviceStep] at hstep
    split at hstep
    · cases hstep
      exact consumeFor_logged consumerName fault hs
    · cases hstep
  | deliver consumerName seed faults =>
    simp only [serviceStep] at hstep
    split at hstep
    · cases hstep
    · rename_i msg rest hbatch
      have hmsgs : ∀ other ∈ msg :: rest, HandedOut service.runner.queueName service.runner.group
          s.world.queue.calls other := hbatch ▸ hs.batches consumerName
      split at hstep
      · cases hstep
        refine ⟨hs.acks, fun other held hheld => ?_, hs.durable⟩
        change held ∈ Function.update s.batches consumerName [] other at hheld
        rw [Function.update_apply] at hheld
        split at hheld
        · cases hheld
        · exact hs.batches other held hheld
      · cases hstep
        obtain ⟨hacks, hcalls, hdurable⟩ := serveDelivery_logs seed faults hs.durable
          (hmsgs msg List.mem_cons_self) hs.acks rfl
        refine ⟨hacks, fun other held hheld => ?_, hdurable⟩
        change held ∈ Function.update s.batches consumerName _ other at hheld
        rw [Function.update_apply] at hheld
        split at hheld
        · split at hheld
          · exact (hmsgs held (List.mem_cons_of_mem _ hheld)).mono hcalls.subset
          · cases hheld
        · exact (hs.batches other held hheld).mono hcalls.subset

/-- The message is done, or it was published to the dead-letter queue and the audit log says so. -/
def Accounted (runner : WorkerRunner) (purpose : Purpose δ D) (db : D) (past : List (RecordedCall δ))
    (msg : QueueMessage δ) : Prop :=
  purpose.done msg.data db ∨ .published runner.dlqName msg.data ∈ past ∧ ∃ errorClass,
    purpose.logged
      (recordDeadLettered runner.queueName msg.sequenceId msg.deliveryCount errorClass) db

def AcksAccounted (runner : WorkerRunner) (purpose : Purpose δ D)
    (w : ServiceWorld (RecordedQueue σ δ) δ D) : Prop :=
  Guarded (AckOf runner (Accounted runner purpose w.db)) w.queue.calls

theorem Serving.accounted {runner : WorkerRunner} {s : ServiceState (RecordedQueue σ δ) δ D}
    (hs : Serving purpose s.world) (hlogged : AcksLogged runner s) :
    AcksAccounted runner purpose s.world := by
  apply Guarded.imp_from hlogged.acks
  intro past call _ hcall
  apply hcall.imp
  rintro msg (hcommitted | ⟨hpublished, errorClass, haudited⟩)
  · exact .inl (hs.committed _ msg hcommitted)
  · exact .inr ⟨hpublished, errorClass, hs.audited _ _ msg haudited⟩

end Acked

/-! ## The record changes nothing -/

section Unrecorded

variable {σ δ D S Env Write : Type} {act : Env → σ → σ} {apply : Write → D → D}
variable (service : Service σ δ D S)

def ServiceWorld.unrecorded (w : ServiceWorld (RecordedQueue σ δ) δ D) : ServiceWorld σ δ D :=
  ⟨w.queue.queue, w.db, w.log⟩

def ServiceState.unrecorded (s : ServiceState (RecordedQueue σ δ) δ D) : ServiceState σ δ D :=
  ⟨s.world.unrecorded, s.batches⟩

theorem runSession_seen {α : Type} (m : Fallible (Connection D) Text α) (fault : Fault Text) :
    SeenAs (ServiceWorld.unrecorded (δ := δ) (σ := σ)) (runSession m fault) (runSession m fault) := by
  intro w
  unfold runSession
  cases fault with
  | none =>
    dsimp only [ServiceWorld.unrecorded]
    cases m ⟨w.db, w.db⟩ with
    | mk exit session => cases exit <;> rfl
  | raises tookEffect errorClass => rfl
  | crashes tookEffect => rfl

theorem writeOff_seen (msg : QueueMessage δ) (errorClass : Text) (seed : S)
    (faults : DeliveryFaults) : SeenAs ServiceWorld.unrecorded
      (writeOff service.recorded msg errorClass seed faults)
      (writeOff service msg errorClass seed faults) := by
  apply seenAs_bind (seenAs_perform fun _ => rfl)
  intro _
  apply seenAs_bind (runSession_seen _ _)
  intro current
  exact seenAs_bind (seenAs_perform fun _ => rfl) fun _ => seenAs_perform fun _ => rfl

theorem serveDelivery_seen (msg : QueueMessage δ) (seed : S) (faults : DeliveryFaults) :
    SeenAs ServiceWorld.unrecorded (serveDelivery service.recorded msg seed faults)
      (serveDelivery service msg seed faults) := by
  have hrunner : service.recorded.runner = service.runner := rfl
  unfold serveDelivery
  rw [hrunner]
  split
  · exact writeOff_seen service msg _ seed faults
  · apply seenAs_handle
    · apply seenAs_bind (runSession_seen _ _)
      intro current
      exact seenAs_bind (seenAs_perform fun _ => rfl) fun _ => seenAs_perform fun _ => rfl
    · intro errorClass
      apply seenAs_bind (seenAs_perform fun _ => rfl)
      intro _
      split
      · exact writeOff_seen service msg errorClass seed faults
      · exact seenAs_raise errorClass

theorem consumeFor_seen (consumerName : Text) (fault : Fault Text) :
    SeenAs ServiceWorld.unrecorded (consumeFor service.recorded consumerName fault)
      (consumeFor service consumerName fault) :=
  seenAs_perform fun _ => rfl

theorem serviceStep_seen (s : ServiceState (RecordedQueue σ δ) δ D) (a : ServiceStep S Env Write) :
    serviceStep act apply service s.unrecorded a =
      (serviceStep (RecordedQueue.others act) apply service.recorded s a).map
        ServiceState.unrecorded := by
  cases a with
  | others action => rfl
  | upstream write => rfl
  | consume consumerName fault =>
    have hconsumed := consumeFor_seen service consumerName fault s.world
    by_cases hempty : (s.batches consumerName).isEmpty = true
    · simp only [serviceStep, ServiceState.unrecorded, hempty, if_true, hconsumed, Option.map_some,
        withBatch]
    · simp only [serviceStep, ServiceState.unrecorded, hempty, Bool.false_eq_true, if_false,
        Option.map_none]
  | deliver consumerName seed faults =>
    cases hbatch : s.batches consumerName with
    | nil => simp only [serviceStep, ServiceState.unrecorded, hbatch, Option.map_none]
    | cons msg rest =>
      by_cases hstop : faults.stopRequested = true
      · simp only [serviceStep, ServiceState.unrecorded, hbatch, hstop, if_true, Option.map_some,
          withBatch]
      · have hserved := serveDelivery_seen service msg seed faults s.world
        simp only [serviceStep, ServiceState.unrecorded, hbatch, hstop, Bool.false_eq_true, if_false,
          hserved, Option.map_some, withBatch]

/-- The property holds in every state of the run, with the record of the calls on the port. Without
the record it is the run over the port itself. -/
def ThroughoutRecorded (act : Env → σ → σ) (apply : Write → D → D) (service : Service σ δ D S)
    (P : ServiceState (RecordedQueue σ δ) δ D → Prop) (queue : σ) (db : D)
    (steps : List (ServiceStep S Env Write)) : Prop :=
  Runs.run (serviceStep act apply service) (ServiceState.initial queue db) steps =
      (Runs.run (serviceStep (RecordedQueue.others act) apply service.recorded)
        (ServiceState.initial ⟨queue, []⟩ db) steps).map ServiceState.unrecorded ∧
    Runs.Throughout (serviceStep (RecordedQueue.others act) apply service.recorded) P
      (ServiceState.initial ⟨queue, []⟩ db) steps

variable {service}

theorem ThroughoutRecorded.imp {P Q : ServiceState (RecordedQueue σ δ) δ D → Prop} {queue : σ}
    {db : D} {steps : List (ServiceStep S Env Write)}
    (h : ThroughoutRecorded act apply service P queue db steps) (himp : ∀ s, P s → Q s) :
    ThroughoutRecorded act apply service Q queue db steps :=
  ⟨h.1, h.2.imp himp⟩

variable (service) in
/-- Whatever the workers and the other parties do, the invariant is kept, and every ack is of a
message that is accounted for. -/
theorem serving_throughout {purpose : Purpose δ D} (hserves : Serves apply service.recorded purpose)
    {queue : σ} {db : D} (hstart : purpose.invariant [] db)
    (steps : List (ServiceStep S Env Write)) :
    ThroughoutRecorded act apply service
      (fun s => Serving purpose s.world ∧ AcksAccounted service.runner purpose s.world)
      queue db steps := by
  let start : ServiceState (RecordedQueue σ δ) δ D := .initial ⟨queue, []⟩ db
  have hserving : Serving purpose start.world := by
    refine ⟨hstart, fun _ _ h => ?_, fun _ _ _ h => ?_⟩
    · cases h
    · cases h
  have hlogged : AcksLogged service.runner start := by
    refine ⟨Guarded.nil, fun _ _ h => ?_, fun _ h => ?_⟩
    · cases h
    · cases h
  have hthroughout : Runs.Throughout
      (serviceStep (RecordedQueue.others act) apply service.recorded)
      (fun s => Serving purpose s.world ∧ AcksLogged service.runner s) start steps := by
    apply Runs.throughout_of_preserved ⟨hserving, hlogged⟩
    intro s a t hs hstep
    exact ⟨serving_step hserves s a t hs.1 hstep, acksLogged_step s a t hs.2 hstep⟩
  have hrun : Runs.run (serviceStep act apply service) (ServiceState.initial queue db) steps =
      (Runs.run (serviceStep (RecordedQueue.others act) apply service.recorded) start steps).map
        ServiceState.unrecorded :=
    Runs.run_seen (serviceStep_seen service) start steps
  exact ⟨hrun, hthroughout.imp fun s hs => ⟨hs.1, hs.1.accounted hs.2⟩⟩

end Unrecorded

end LandRecords.Worker
