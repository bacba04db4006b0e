import LandRecords.Worker.Delivery

/-! Workers with their handlers and the database behind their sessions. A handler runs in a
session of its own, which the runner commits before it acks the message. What a returned handler
has achieved holds of every message that was committed. -/
namespace LandRecords.Worker

open Queue Text Fallible

structure Connection (D : Type) where
  durable : D
  current : D

/-- `session.commit()`. -/
def commitSession {D E : Type} : Fallible (Connection D) E Unit :=
  Fallible.write fun session => ⟨session.current, session.current⟩

def flushing {D E E' α : Type} (wrap : E' → E) (m : Fallible D E' α) : Fallible (Connection D) E α :=
  Fallible.within Connection.current (fun current session => { session with current := current })
    wrap m

def named {W E α : Type} (className : E → Text) (m : Fallible W E α) : Fallible W Text Unit := do
  let _ ← within id (fun w _ => w) className m
  return ()

/-- A queue with its worker, the handler, and `landaudit.append` in a session. The ids and clock
readings of a delivery are drawn before it. -/
structure Service (σ δ D S : Type) where
  port : QueuePort σ δ
  runner : WorkerRunner
  handler : δ → S → Fallible (Connection D) Text Unit
  auditAppend : S → Audit.AppendArgs → Fallible D Text Unit

/-- The log pairs what happened with the message. -/
structure ServiceWorld (σ δ D : Type) where
  queue : σ
  db : D
  log : List (Event × QueueMessage δ)

section Delivery

variable {σ δ D S : Type} (service : Service σ δ D S)

def note (msg : QueueMessage δ) (event : Event) (w : ServiceWorld σ δ D) :
    Unit × ServiceWorld σ δ D :=
  ((), { w with log := w.log ++ [(event, msg)] })

/-- A session, up to its commit. A session that is cut off may have committed of itself. -/
def runSession {α : Type} (m : Fallible (Connection D) Text α) (fault : Fault Text) :
    Fallible (ServiceWorld σ δ D) Text D := fun w =>
  let ran := m ⟨w.db, w.db⟩
  match fault with
  | .none =>
      match ran with
      | (.returned _, session) => (.returned session.current, { w with db := session.durable })
      | (.raised errorClass, session) => (.raised errorClass, { w with db := session.durable })
      | (.crashed, session) => (.crashed, { w with db := session.durable })
  | .raises tookEffect errorClass =>
      (.raised errorClass, { w with db := if tookEffect then ran.2.durable else w.db })
  | .crashes tookEffect => (.crashed, { w with db := if tookEffect then ran.2.durable else w.db })

def makeDurable (current : D) (msg : QueueMessage δ) (event : Event) (w : ServiceWorld σ δ D) :
    Unit × ServiceWorld σ δ D :=
  note msg event { w with db := current }

def ackDelivered (msg : QueueMessage δ) (w : ServiceWorld σ δ D) : Unit × ServiceWorld σ δ D :=
  note msg (.acked msg.sequenceId) { w with
    queue := service.port.ack service.runner.queueName service.runner.group msg.sequenceId w.queue }

def publishLetter (msg : QueueMessage δ) (w : ServiceWorld σ δ D) : Unit × ServiceWorld σ δ D :=
  let published := service.port.publish service.runner.dlqName msg.data w.queue
  note msg (.deadLettered msg.sequenceId published.1) { w with queue := published.2 }

def letterEntry (msg : QueueMessage δ) (errorClass : Text) : Audit.AppendArgs :=
  recordDeadLettered service.runner.queueName msg.sequenceId msg.deliveryCount errorClass

/-- `_dead_letter`. -/
def writeOff (msg : QueueMessage δ) (errorClass : Text) (seed : S) (faults : DeliveryFaults) :
    Fallible (ServiceWorld σ δ D) Text Unit := do
  Fallible.perform faults.publish (publishLetter service msg)
  let entry := letterEntry service msg errorClass
  let current ← runSession (flushing id (service.auditAppend seed entry)) faults.recordDeadLettered
  Fallible.perform faults.auditCommit (makeDurable current msg (.audited msg.sequenceId entry))
  Fallible.perform faults.deadLetterAck (ackDelivered service msg)

/-- The body of the `try` block. -/
def attemptDelivery (msg : QueueMessage δ) (seed : S) (faults : DeliveryFaults) :
    Fallible (ServiceWorld σ δ D) Text Unit := do
  let current ← runSession (service.handler msg.data seed) faults.handler
  Fallible.perform faults.commit (makeDurable current msg (.committed msg.sequenceId))
  Fallible.perform faults.ack (ackDelivered service msg)

/-- The loop body of `run_once` for one message. -/
def serveDelivery (msg : QueueMessage δ) (seed : S) (faults : DeliveryFaults) :
    Fallible (ServiceWorld σ δ D) Text Unit :=
  if service.runner.maxDeliveries < msg.deliveryCount then
    writeOff service msg "MaxDeliveriesExceeded".toList seed faults
  else
    Fallible.handle (attemptDelivery service msg seed faults) fun errorClass => do
      Fallible.perform faults.rollback fun w => ((), w)
      if service.runner.maxDeliveries ≤ msg.deliveryCount then
        writeOff service msg errorClass seed faults
      else Fallible.raise errorClass

end Delivery

structure ServiceState (σ δ D : Type) where
  world : ServiceWorld σ δ D
  batches : Text → List (QueueMessage δ)

/-- A step of one of the workers, of another party on the queue, or of another writer of the
database. -/
inductive ServiceStep (S Env Write : Type)
  | others (action : Env)
  | upstream (write : Write)
  | consume (consumerName : Text) (fault : Fault Text)
  | deliver (consumerName : Text) (seed : S) (faults : DeliveryFaults)

section Machine

variable {σ δ D S Env Write : Type} (act : Env → σ → σ) (apply : Write → D → D)
  (service : Service σ δ D S)

def ServiceState.initial (queue : σ) (db : D) : ServiceState σ δ D := ⟨⟨queue, db, []⟩, fun _ => []⟩

def withBatch (consumerName : Text) (batch : List (QueueMessage δ)) (s : ServiceState σ δ D) :
    ServiceState σ δ D :=
  { s with batches := Function.update s.batches consumerName batch }

def consumeFor (consumerName : Text) (fault : Fault Text) :
    Fallible (ServiceWorld σ δ D) Text (List (QueueMessage δ)) :=
  Fallible.perform fault fun w =>
    let consumed := service.port.consume service.runner.queueName service.runner.group consumerName
      service.runner.batchCount w.queue
    (consumed.1, { w with queue := consumed.2 })

/-- A delivery that does not return leaves the rest of the batch unacked. -/
def serviceStep (s : ServiceState σ δ D) : ServiceStep S Env Write → Option (ServiceState σ δ D)
  | .others action => some { s with world := { s.world with queue := act action s.world.queue } }
  | .upstream write => some { s with world := { s.world with db := apply write s.world.db } }
  | .consume consumerName fault =>
      if (s.batches consumerName).isEmpty then
        let consumed := consumeFor service consumerName fault s.world
        some (withBatch consumerName (consumed.1.getD []) { s with world := consumed.2 })
      else none
  | .deliver consumerName seed faults =>
      match s.batches consumerName with
      | [] => none
      | msg :: rest =>
          if faults.stopRequested then some (withBatch consumerName [] s)
          else
            let served := serveDelivery service msg seed faults s.world
            some (withBatch consumerName (if served.1 = .returned () then rest else [])
              { s with world := served.2 })

end Machine

/-! ## What holds of acked messages -/

section Rule

variable {σ δ D S Env Write : Type} {act : Env → σ → σ} {apply : Write → D → D}
  {service : Service σ δ D S}

def committedOf (log : List (Event × QueueMessage δ)) : List δ :=
  log.filterMap fun entry =>
    match entry.1 with
    | .committed _ => some entry.2.data
    | _ => none

structure Purpose (δ D : Type) where
  invariant : List δ → D → Prop
  done : δ → D → Prop
  logged : Audit.AppendArgs → D → Prop

structure Purpose.Extends (purpose : Purpose δ D) (db db' : D) : Prop where
  done : ∀ data, purpose.done data db → purpose.done data db'
  logged : ∀ args, purpose.logged args db → purpose.logged args db'

structure Serves (apply : Write → D → D) (service : Service σ δ D S) (purpose : Purpose δ D) :
    Prop where
  durable : ∀ past db data seed, purpose.invariant past db →
    purpose.invariant past (service.handler data seed ⟨db, db⟩).2.durable ∧
      purpose.Extends db (service.handler data seed ⟨db, db⟩).2.durable
  returned : ∀ past db data seed session, purpose.invariant past db →
    service.handler data seed ⟨db, db⟩ = (.returned (), session) →
      purpose.invariant (past ++ [data]) session.current ∧
        purpose.Extends session.durable session.current ∧ purpose.done data session.current
  audited : ∀ past db db' seed msg errorClass, purpose.invariant past db →
    service.auditAppend seed (letterEntry service msg errorClass) db = (.returned (), db') →
      purpose.invariant past db' ∧ purpose.Extends db db' ∧
        purpose.logged (letterEntry service msg errorClass) db'
  upstream : ∀ past db write, purpose.invariant past db →
    purpose.invariant past (apply write db) ∧ purpose.Extends db (apply write db)

structure Serving (purpose : Purpose δ D) (w : ServiceWorld σ δ D) : Prop where
  invariant : purpose.invariant (committedOf w.log) w.db
  committed : ∀ sequenceId msg, (Event.committed sequenceId, msg) ∈ w.log → purpose.done msg.data w.db
  audited : ∀ sequenceId args msg, (Event.audited sequenceId args, msg) ∈ w.log →
    purpose.logged args w.db

variable {purpose : Purpose δ D} {w w' : ServiceWorld σ δ D} {msg : QueueMessage δ} {db db' : D}

theorem Purpose.Extends.refl (db : D) : purpose.Extends db db := ⟨fun _ h => h, fun _ h => h⟩

theorem committedOf_append (log : List (Event × QueueMessage δ)) (event : Event) :
    committedOf (log ++ [(event, msg)]) =
      committedOf log ++ (match event with | .committed _ => [msg.data] | _ => []) := by
  unfold committedOf
  rw [List.filterMap_append]
  cases event <;> rfl

theorem Serving.done (h : Serving purpose w) : ∀ data ∈ committedOf w.log, purpose.done data w.db := by
  intro data hdata
  obtain ⟨⟨event, msg⟩, hentry, hevent⟩ := List.mem_filterMap.mp hdata
  cases event with
  | committed sequenceId =>
    cases hevent
    exact h.committed sequenceId msg hentry
  | _ => cases hevent

theorem Serving.withDb (h : Serving purpose w)
    (hinvariant : purpose.invariant (committedOf w.log) db) (hdb : purpose.Extends w.db db) :
    Serving purpose { w with db := db } :=
  ⟨hinvariant, fun id msg hcommitted => hdb.done _ (h.committed id msg hcommitted),
    fun id args msg haudited => hdb.logged _ (h.audited id args msg haudited)⟩

theorem Serving.note (h : Serving purpose w) {event : Event}
    (hcommitted : ∀ id, event ≠ .committed id)
    (haudited : ∀ id args, event = .audited id args → purpose.logged args w.db) :
    Serving purpose (Worker.note msg event w).2 := by
  constructor
  · change purpose.invariant (committedOf (w.log ++ [(event, msg)])) w.db
    rw [committedOf_append]
    cases event with
    | committed id => exact absurd rfl (hcommitted id)
    | _ =>
      rw [List.append_nil]
      exact h.invariant
  · intro id other hother
    rcases List.mem_append.mp hother with hold | hnew
    · exact h.committed id other hold
    · exact absurd (Prod.mk.inj (List.mem_singleton.mp hnew)).1.symm (hcommitted id)
  · intro id args other hother
    rcases List.mem_append.mp hother with hold | hnew
    · exact h.audited id args other hold
    · exact haudited id args (Prod.mk.inj (List.mem_singleton.mp hnew)).1.symm

theorem Serving.ack (h : Serving purpose w) : Serving purpose (ackDelivered service msg w).2 := by
  let queue := service.port.ack service.runner.queueName service.runner.group msg.sequenceId w.queue
  have hqueue : Serving purpose { w with queue := queue } := ⟨h.invariant, h.committed, h.audited⟩
  exact hqueue.note (fun _ => Event.noConfusion) fun _ _ => Event.noConfusion

theorem Serving.publish (h : Serving purpose w) :
    Serving purpose (publishLetter service msg w).2 := by
  let queue := (service.port.publish service.runner.dlqName msg.data w.queue).2
  have hqueue : Serving purpose { w with queue := queue } := ⟨h.invariant, h.committed, h.audited⟩
  exact hqueue.note (fun _ => Event.noConfusion) fun _ _ => Event.noConfusion

theorem Serving.commit (h : Serving purpose w) {current : D}
    (hinvariant : purpose.invariant (committedOf w.log ++ [msg.data]) current)
    (hdb : purpose.Extends w.db current) (hdone : purpose.done msg.data current) :
    Serving purpose (makeDurable current msg (.committed msg.sequenceId) w).2 := by
  constructor
  · change purpose.invariant (committedOf (w.log ++ [(Event.committed msg.sequenceId, msg)])) current
    rw [committedOf_append]
    exact hinvariant
  · intro id other hother
    rcases List.mem_append.mp hother with hold | hnew
    · exact hdb.done _ (h.committed id other hold)
    · rw [(Prod.mk.inj (List.mem_singleton.mp hnew)).2]
      exact hdone
  · intro id args other hother
    rcases List.mem_append.mp hother with hold | hnew
    · exact hdb.logged _ (h.audited id args other hold)
    · cases (Prod.mk.inj (List.mem_singleton.mp hnew)).1

theorem triple_runSession {α : Type} {m : Fallible (Connection D) Text α} {fault : Fault Text}
    {I : ServiceWorld σ δ D → Prop} {Q : D → ServiceWorld σ δ D → Prop}
    (hdurable : ∀ w, I w → I { w with db := (m ⟨w.db, w.db⟩).2.durable })
    (hreturned : ∀ w value session, I w → m ⟨w.db, w.db⟩ = (.returned value, session) →
      Q session.current { w with db := session.durable }) :
    Triple I (runSession m fault) Q (fun _ => I) I := by
  intro w hw
  have hend := hdurable w hw
  have hcut : ∀ tookEffect : Bool,
      I { w with db := if tookEffect then (m ⟨w.db, w.db⟩).2.durable else w.db } := by
    intro tookEffect
    cases tookEffect with
    | false => exact hw
    | true => exact hend
  unfold runSession
  cases fault with
  | raises tookEffect errorClass => exact hcut tookEffect
  | crashes tookEffect => exact hcut tookEffect
  | none =>
    cases hran : m ⟨w.db, w.db⟩ with
    | mk exit session =>
      rw [hran] at hend
      cases exit with
      | returned value => exact hreturned w value session hw hran
      | raised errorClass => exact hend
      | crashed => exact hend

theorem flushing_durable {E E' α : Type} (wrap : E' → E) (m : Fallible D E' α)
    (session : Connection D) : (flushing wrap m session).2.durable = session.durable := by
  unfold flushing Fallible.within
  cases m session.current with
  | mk exit current => cases exit <;> rfl

theorem preserves_flushing {E E' α : Type} (wrap : E' → E) (m : Fallible D E' α) (I : D → Prop) :
    Preserves (fun session => I session.durable) (flushing wrap m) := by
  intro session hsession
  have hdurable := flushing_durable wrap m session
  cases hran : flushing wrap m session with
  | mk exit after =>
    have hsame : after.durable = session.durable := by
      rw [hran] at hdurable
      exact hdurable
    have hkept : I after.durable := by
      rw [hsame]
      exact hsession
    cases exit with
    | returned value => exact hkept
    | raised error => exact hkept
    | crashed => exact hkept

theorem named_returned {W E α : Type} {className : E → Text} {m : Fallible W E α} {w w' : W}
    {u : Unit} (h : named className m w = (.returned u, w')) :
    ∃ value, m w = (.returned value, w') := by
  obtain ⟨value, _, hm, hdone⟩ := bind_eq_returned.mp h
  cases hdone
  obtain ⟨_, hran, rfl⟩ := within_returned.mp hm
  exact ⟨value, hran⟩

theorem named_world {W E α : Type} (className : E → Text) (m : Fallible W E α) (w : W) :
    (named className m w).2 = (m w).2 := by
  unfold named
  cases hm : m w with
  | mk exit w' =>
    cases exit with
    | returned value =>
      rw [bind_returned (within_returned.mpr ⟨w', hm, rfl⟩)]
      rfl
    | raised e => rw [bind_raised (within_raised hm)]
    | crashed =>
      have hcrashed : within id (fun w _ => w) className m w = (.crashed, w') := by
        unfold Fallible.within
        simp only [id, hm]
      rw [bind_crashed hcrashed]

theorem flushing_returned {E E' α : Type} {wrap : E' → E} {m : Fallible D E' α}
    {session session' : Connection D} {value : α}
    (h : flushing wrap m session = (.returned value, session')) :
    m session.current = (.returned value, session'.current) ∧ session'.durable = session.durable := by
  obtain ⟨current, hm, rfl⟩ := Fallible.within_returned.mp h
  exact ⟨hm, rfl⟩

variable (hserves : Serves apply service purpose)
include hserves

theorem attemptDelivery_serves (msg : QueueMessage δ) (seed : S) (faults : DeliveryFaults) :
    Preserves (Serving purpose) (attemptDelivery service msg seed faults) := by
  let Achieved (current : D) (w : ServiceWorld σ δ D) : Prop := Serving purpose w ∧
    purpose.invariant (committedOf w.log ++ [msg.data]) current ∧ purpose.Extends w.db current ∧
    purpose.done msg.data current
  have hhandler : Triple (Serving purpose) (runSession (service.handler msg.data seed) faults.handler)
      Achieved (fun _ => Serving purpose) (Serving purpose) := by
    apply triple_runSession
    · intro w hw
      have ⟨hinvariant, hdb⟩ := hserves.durable _ _ msg.data seed hw.invariant
      exact hw.withDb hinvariant hdb
    · intro w value session hw hran
      have ⟨hinvariant, hdb⟩ := hserves.durable _ _ msg.data seed hw.invariant
      rw [hran] at hinvariant hdb
      have ⟨hcurrent, hextends, hdone⟩ := hserves.returned _ _ _ _ _ hw.invariant hran
      exact ⟨hw.withDb hinvariant hdb, hcurrent, hextends, hdone⟩
  have hcommit : ∀ current, Triple (Achieved current)
      (perform faults.commit (makeDurable current msg (.committed msg.sequenceId)))
      (fun _ => Serving purpose) (fun _ => Serving purpose) (Serving purpose) := by
    intro current
    apply triple_perform_establishes (fun w hw => hw.1)
    · exact fun w hw => hw.1.commit hw.2.1 hw.2.2.1 hw.2.2.2
    · exact fun _ _ h => h
  exact triple_bind hhandler fun current => triple_bind (hcommit current) fun _ =>
    preserves_perform fun _ h => h.ack

theorem writeOff_serves (msg : QueueMessage δ) (errorClass : Text) (seed : S)
    (faults : DeliveryFaults) :
    Preserves (Serving purpose) (writeOff service msg errorClass seed faults) := by
  let entry := letterEntry service msg errorClass
  let Audited (current : D) (w : ServiceWorld σ δ D) : Prop := Serving purpose w ∧
    purpose.invariant (committedOf w.log) current ∧ purpose.Extends w.db current ∧
    purpose.logged entry current
  have hrecord : Triple (Serving purpose)
      (runSession (flushing id (service.auditAppend seed entry)) faults.recordDeadLettered) Audited
      (fun _ => Serving purpose) (Serving purpose) := by
    apply triple_runSession
    · intro w hw
      rw [flushing_durable]
      exact hw
    · intro w value session hw hran
      have ⟨happended, hdurable⟩ := flushing_returned hran
      have hsame : ({ w with db := session.durable } : ServiceWorld σ δ D) = w := by rw [hdurable]
      rw [hsame]
      exact ⟨hw, hserves.audited _ _ _ _ _ _ hw.invariant happended⟩
  have haudit : ∀ current, Triple (Audited current)
      (perform faults.auditCommit (makeDurable current msg (.audited msg.sequenceId entry)))
      (fun _ => Serving purpose) (fun _ => Serving purpose) (Serving purpose) := by
    intro current
    apply triple_perform_establishes (fun w hw => hw.1)
    · intro w ⟨hserving, hinvariant, hdb, hlogged⟩
      have hnow : Serving purpose { w with db := current } := hserving.withDb hinvariant hdb
      apply hnow.note (fun _ => Event.noConfusion)
      intro id args hevent
      cases hevent
      exact hlogged
    · exact fun _ _ h => h
  apply triple_bind (preserves_perform fun _ h => h.publish)
  intro _
  apply triple_bind hrecord
  intro current
  exact triple_bind (haudit current) fun _ => preserves_perform fun _ h => h.ack

theorem serveDelivery_serves (msg : QueueMessage δ) (seed : S) (faults : DeliveryFaults) :
    Preserves (Serving purpose) (serveDelivery service msg seed faults) := by
  unfold serveDelivery
  split
  · exact writeOff_serves hserves msg _ seed faults
  · apply triple_handle (attemptDelivery_serves hserves msg seed faults)
    intro errorClass
    apply triple_bind (preserves_perform fun _ h => h)
    intro _
    split
    · exact writeOff_serves hserves msg errorClass seed faults
    · exact triple_raise fun _ h => h

/-- Whatever the workers and the other parties do, the invariant is kept, and what a message was
committed for stays achieved. -/
theorem serving_step (s : ServiceState σ δ D) (a : ServiceStep S Env Write)
    (t : ServiceState σ δ D) (hs : Serving purpose s.world)
    (hstep : serviceStep act apply service s a = some t) : Serving purpose t.world := by
  cases a with
  | others action =>
    cases hstep
    exact ⟨hs.invariant, hs.committed, hs.audited⟩
  | upstream write =>
    cases hstep
    have ⟨hinvariant, hdb⟩ := hserves.upstream _ _ write hs.invariant
    exact hs.withDb hinvariant hdb
  | consume consumerName fault =>
    simp only [serviceStep] at hstep
    split at hstep
    · cases hstep
      have hconsumed : Preserves (Serving purpose) (consumeFor service consumerName fault) :=
        preserves_perform fun w hw => ⟨hw.invariant, hw.committed, hw.audited⟩
      exact hconsumed.world hs
    · cases hstep
  | deliver consumerName seed faults =>
    simp only [serviceStep] at hstep
    split at hstep
    · cases hstep
    · split at hstep
      · cases hstep
        exact hs
      · cases hstep
        exact (serveDelivery_serves hserves _ seed faults).world hs

end Rule

end LandRecords.Worker
