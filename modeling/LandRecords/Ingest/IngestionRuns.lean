import LandRecords.Ingest.DocumentsSplit
import LandRecords.Queue.InMemory
import LandRecords.Worker.AckedMessages

/-! Every run of the consumer. The pages of a document are the whole of it, no message is lost, and
what a delivery has put into the store stays there, whether its session was committed or not. -/
namespace LandRecords.Ingest

open Audit Datetime Outbox Queue Text Worker
open Backend (Stamp)
open Fallible (Preserves Triple)

theorem ingestion_serves {σ : Type} (frames : Text → Content → Option (List Content))
    (port : QueuePort σ IngestionMessage) (runner : WorkerRunner)
    (className : IngestionError → Text) :
    Serves CustodyWrite.apply (ingestionService frames port runner className)
      (splitting frames) := by
  constructor
  · intro past tables message seed hinvariant
    have hworld := congrArg Connection.durable
      (named_world className (handle frames message seed) ⟨tables, tables⟩)
    have hgrown := (handle_storesOnly tables frames message seed).1.grown
    change SplitAsAsked frames past
        (named className (handle frames message seed) ⟨tables, tables⟩).2.durable ∧
      (splitting frames).Extends tables
        (named className (handle frames message seed) ⟨tables, tables⟩).2.durable
    rw [hworld]
    exact ⟨SplitAsAsked.grown hinvariant hgrown, hgrown.extends⟩
  · intro past tables message seed session hinvariant hran
    obtain ⟨result, hhandled⟩ := named_returned hran
    have hstores : StoresOnly tables session := by
      have hworld := handle_storesOnly tables frames message seed
      rw [hhandled] at hworld
      exact hworld
    obtain ⟨documentId, key, mime, rfl, hcase⟩ := handle_returned hhandled
    rcases hcase with ⟨hsome, rfl⟩ | ⟨hnone, original, pages, rows, added, horiginal, hpages,
      hadded, hcurrent⟩
    · exact ⟨SplitAsAsked.remember hinvariant _, .refl _,
        SplitAsAsked.splitFor hinvariant hsome rfl⟩
    · have hobjects : added.objects = session.durable.objects := by
        rw [← hstores.2, hcurrent]
      have hnow : session.current = added.withCount documentId pages.length := hcurrent
      rw [hnow]
      exact ⟨SplitAsAsked.split hinvariant hadded hnone horiginal hpages,
        hadded.extends hstores.1 hobjects hnone horiginal hpages,
        ⟨_, rfl, hadded.splitFrom hnone horiginal hpages⟩⟩
  · intro past tables tables' seed msg errorClass hinvariant happend
    obtain ⟨u, hentry⟩ := named_returned happend
    have hforeign : (letterEntry (ingestionService frames port runner className) msg
        errorClass).action ≠ pageIngested := by
      change "queue.dead_lettered".toList ≠ pageIngested
      decide
    have ⟨hgrown, hlogged⟩ := appendLetter_grown tables seed.deadLetterEntry hforeign
    rw [hentry] at hgrown hlogged
    exact ⟨SplitAsAsked.grown hinvariant hgrown, hgrown.extends, hlogged rfl⟩
  · intro past tables write hinvariant
    have hgrown := CustodyWrite.apply_grown tables write
    exact ⟨SplitAsAsked.grown hinvariant hgrown, hgrown.extends⟩

/-! ## What was put -/

section Put

variable {σ : Type} {frames : Text → Content → Option (List Content)}
variable {port : QueuePort σ IngestionMessage} {runner : WorkerRunner}
variable {className : IngestionError → Text} {objects : Objects}

theorem writeOff_keeps (msg : QueueMessage IngestionMessage) (errorClass : Text)
    (seed : IngestionSeed) (faults : DeliveryFaults) :
    Preserves (fun w => Keeps objects w.db.objects)
      (writeOff (ingestionService frames port runner className) msg errorClass seed faults) := by
  let service := ingestionService frames port runner className
  let entry := letterEntry service msg errorClass
  have hentry : Triple (fun w : ServiceWorld σ IngestionMessage IngestionTables =>
        Keeps objects w.db.objects)
      (runSession (flushing id (service.auditAppend seed entry)) faults.recordDeadLettered)
      (fun current w => Keeps objects current.objects ∧ Keeps objects w.db.objects)
      (fun _ w => Keeps objects w.db.objects) (fun w => Keeps objects w.db.objects) := by
    apply triple_runSession
    · intro w hw
      rw [flushing_durable]
      exact hw
    · intro w value session hw hran
      have ⟨happended, hdurable⟩ := flushing_returned hran
      obtain ⟨u, hletter⟩ := named_returned happended
      have hforeign : entry.action ≠ pageIngested := by
        change "queue.dead_lettered".toList ≠ pageIngested
        decide
      have hgrown := (appendLetter_grown w.db seed.deadLetterEntry hforeign).1
      rw [hletter] at hgrown
      rw [hdurable]
      exact ⟨hw.trans hgrown.objects, hw⟩
  unfold writeOff
  apply Fallible.triple_bind (Fallible.preserves_perform fun _ hw => hw)
  intro _
  apply Fallible.triple_bind hentry
  intro current
  refine Fallible.triple_bind (R := fun _ w => Keeps objects w.db.objects) ?_ fun _ =>
    Fallible.preserves_perform fun _ hw => hw
  apply Fallible.triple_perform_establishes (fun w hw => hw.2)
  · exact fun w hw => hw.1
  · exact fun _ _ hw => hw

variable (port) in
/-- What the session of the handler leaves in the store is not lost by the rest of the delivery. -/
theorem serveDelivery_keeps_of_session (msg : QueueMessage IngestionMessage)
    (seed : IngestionSeed) (faults : DeliveryFaults) {P : ServiceWorld σ _ _ → Prop}
    (hcount : ¬runner.maxDeliveries < msg.deliveryCount)
    (hsession : Triple P
      (runSession (named className (handle frames msg.data seed)) faults.handler)
      (fun current w => Keeps objects current.objects ∧ Keeps objects w.db.objects)
      (fun _ w => Keeps objects w.db.objects) fun w => Keeps objects w.db.objects) :
    Triple P (serveDelivery (ingestionService frames port runner className) msg seed faults)
      (fun _ w => Keeps objects w.db.objects) (fun _ w => Keeps objects w.db.objects)
      fun w => Keeps objects w.db.objects := by
  have hrunner : (ingestionService frames port runner className).runner = runner := rfl
  unfold serveDelivery
  rw [hrunner, if_neg hcount]
  apply Fallible.triple_handle
  · apply Fallible.triple_bind hsession
    intro current
    refine Fallible.triple_bind (R := fun _ w => Keeps objects w.db.objects) ?_ fun _ =>
      Fallible.preserves_perform fun _ hw => hw
    apply Fallible.triple_perform_establishes (fun w hw => hw.2)
    · exact fun w hw => hw.1
    · exact fun _ _ hw => hw
  · intro errorClass
    apply Fallible.triple_bind (Fallible.preserves_perform fun _ hw => hw)
    intro _
    split
    · exact writeOff_keeps msg errorClass seed faults
    · exact Fallible.triple_raise fun _ hw => hw

theorem serveDelivery_keeps (msg : QueueMessage IngestionMessage) (seed : IngestionSeed)
    (faults : DeliveryFaults) : Preserves (fun w => Keeps objects w.db.objects)
      (serveDelivery (ingestionService frames port runner className) msg seed faults) := by
  by_cases hover : runner.maxDeliveries < msg.deliveryCount
  · have hrunner : (ingestionService frames port runner className).runner = runner := rfl
    unfold serveDelivery
    rw [hrunner, if_pos hover]
    exact writeOff_keeps msg _ seed faults
  · apply serveDelivery_keeps_of_session port msg seed faults hover
    apply triple_runSession
    · intro w hw
      rw [named_world]
      exact hw.trans (handle_storesOnly w.db frames msg.data seed).1.objects
    · intro w value session hw hran
      obtain ⟨result, hhandled⟩ := named_returned hran
      have hstores := handle_storesOnly w.db frames msg.data seed
      rw [hhandled] at hstores
      have hkept := hw.trans hstores.1.objects
      refine ⟨?_, hkept⟩
      rw [hstores.2]
      exact hkept

/-- What the handler sees in the store at its end is there after the delivery, also where it raised
or its session was not committed. -/
theorem serveDelivery_puts (msg : QueueMessage IngestionMessage) (seed : IngestionSeed)
    (faults : DeliveryFaults) (w : ServiceWorld σ IngestionMessage IngestionTables)
    (hcount : msg.deliveryCount ≤ runner.maxDeliveries) (hran : faults.handler.tookEffect = true) :
    Keeps (handle frames msg.data seed ⟨w.db, w.db⟩).2.current.objects
      (serveDelivery (ingestionService frames port runner className) msg seed faults w).2.db.objects
      := by
  let ended := (handle frames msg.data seed ⟨w.db, w.db⟩).2
  have hstores : StoresOnly w.db ended := handle_storesOnly w.db frames msg.data seed
  have hdurable : (named className (handle frames msg.data seed) ⟨w.db, w.db⟩).2 = ended :=
    named_world className _ _
  have hkept : Keeps ended.current.objects ended.durable.objects := by
    rw [hstores.2]
    exact .refl _
  have hcut : Keeps ended.current.objects
      (named className (handle frames msg.data seed) ⟨w.db, w.db⟩).2.durable.objects := by
    rw [hdurable]
    exact hkept
  have hsession : Triple (· = w)
      (runSession (named className (handle frames msg.data seed)) faults.handler)
      (fun current w => Keeps ended.current.objects current.objects ∧
        Keeps ended.current.objects w.db.objects)
      (fun _ w => Keeps ended.current.objects w.db.objects)
      (fun w => Keeps ended.current.objects w.db.objects) := by
    rintro w rfl
    unfold runSession
    cases hfault : faults.handler with
    | none =>
      cases hnamed : named className (handle frames msg.data seed) ⟨w.db, w.db⟩ with
      | mk exit session =>
        rw [hnamed] at hdurable
        subst hdurable
        cases exit with
        | returned value => exact ⟨.refl _, hkept⟩
        | raised errorClass => exact hkept
        | crashed => exact hkept
    | raises tookEffect errorClass =>
      rw [hfault] at hran
      obtain rfl : tookEffect = true := hran
      exact hcut
    | crashes tookEffect =>
      rw [hfault] at hran
      obtain rfl : tookEffect = true := hran
      exact hcut
  exact (serveDelivery_keeps_of_session port msg seed faults (by omega) hsession).world rfl

theorem serviceStep_keeps {Env : Type} {act : Env → σ → σ}
    {s t : ServiceState σ IngestionMessage IngestionTables}
    {a : ServiceStep IngestionSeed Env CustodyWrite} (h : Keeps objects s.world.db.objects)
    (hstep : serviceStep act CustodyWrite.apply (ingestionService frames port runner className) s a =
      some t) : Keeps objects t.world.db.objects := by
  cases a with
  | others action =>
    cases hstep
    exact h
  | upstream write =>
    cases hstep
    exact h.trans (CustodyWrite.apply_grown s.world.db write).objects
  | consume consumerName fault =>
    simp only [serviceStep] at hstep
    split at hstep
    · cases hstep
      have hconsumed : Preserves (fun w => Keeps objects w.db.objects)
          (consumeFor (ingestionService frames port runner className) consumerName fault) :=
        Fallible.preserves_perform fun w hw => hw
      exact hconsumed.world h
    · cases hstep
  | deliver consumerName seed faults =>
    simp only [serviceStep] at hstep
    split at hstep
    · cases hstep
    · split at hstep
      · cases hstep
        exact h
      · cases hstep
        exact (serveDelivery_keeps _ seed faults).world h

end Put

/-! ## The runs -/

/-- The pages that are there, and the messages that were acked. -/
structure DocumentsSplit {σ : Type} (frames : Text → Content → Option (List Content))
    (runner : WorkerRunner)
    (w : ServiceWorld (RecordedQueue σ IngestionMessage) IngestionMessage IngestionTables) :
    Prop where
  split : SplitAsAsked frames (committedOf w.log) w.db
  done : ∀ message ∈ committedOf w.log, SplitFor frames message w.db
  acked : AcksAccounted runner (splitting frames) w

/-- The step loses no object of the store. Where it runs a handler, what the handler sees in the
store at its end is there after the step, also when the session was rolled back. -/
def LosesNoObject {σ Env : Type} (act : Env → σ → σ)
    (frames : Text → Content → Option (List Content)) (port : QueuePort σ IngestionMessage)
    (runner : WorkerRunner) (className : IngestionError → Text)
    (s : ServiceState σ IngestionMessage IngestionTables)
    (a : ServiceStep IngestionSeed Env CustodyWrite) : Prop :=
  ∀ t, serviceStep act CustodyWrite.apply (ingestionService frames port runner className) s a =
      some t →
    Keeps s.world.db.objects t.world.db.objects ∧
      ∀ consumerName seed faults msg rest, a = .deliver consumerName seed faults →
        s.batches consumerName = msg :: rest → faults.stopRequested = false →
          msg.deliveryCount ≤ runner.maxDeliveries → faults.handler.tookEffect = true →
            Keeps (handle frames msg.data seed ⟨s.world.db, s.world.db⟩).2.current.objects
              t.world.db.objects

theorem losesNoObject {σ Env : Type} (act : Env → σ → σ)
    (frames : Text → Content → Option (List Content)) (port : QueuePort σ IngestionMessage)
    (runner : WorkerRunner) (className : IngestionError → Text)
    (s : ServiceState σ IngestionMessage IngestionTables)
    (a : ServiceStep IngestionSeed Env CustodyWrite) :
    LosesNoObject act frames port runner className s a := by
  intro t hstep
  refine ⟨serviceStep_keeps (.refl _) hstep, ?_⟩
  rintro consumerName seed faults msg rest rfl hbatch hgo hcount hran
  have hworld : t.world = (serveDelivery (ingestionService frames port runner className) msg seed
      faults s.world).2 := by
    simp only [serviceStep, hbatch, hgo, Bool.false_eq_true, if_false] at hstep
    rw [← Option.some.inj hstep]
    rfl
  rw [hworld]
  exact serveDelivery_puts msg seed faults s.world hcount hran

/-- Throughout every run in which deliveries are served one at a time, the pages of a document are
the whole of it, each with its object, entry and message, no message about a document is lost, and
what was put into the store stays there. -/
theorem documents_split {σ Env : Type} (act : Env → σ → σ)
    (frames : Text → Content → Option (List Content)) (port : QueuePort σ IngestionMessage)
    (runner : WorkerRunner) (className : IngestionError → Text) (queue : σ)
    (steps : List (ServiceStep IngestionSeed Env CustodyWrite)) :
    ThroughoutRecorded act CustodyWrite.apply (ingestionService frames port runner className)
        (fun s => DocumentsSplit frames runner s.world) queue {} steps ∧
      Runs.AllSteps
        (serviceStep act CustodyWrite.apply (ingestionService frames port runner className))
        (LosesNoObject act frames port runner className) (ServiceState.initial queue {}) steps := by
  have hstart : (splitting frames).invariant [] {} := by
    refine ⟨List.nodup_nil, ?_, .nil, .nil, ?_, ?_, ?_⟩
    · intro page hpage
      cases hpage
    · intro page hpage
      cases hpage
    · intro document hdocument
      cases hdocument
    · intro document hdocument
      cases hdocument
  refine ⟨?_, Runs.allSteps_of_forall (losesNoObject act frames port runner className)⟩
  have hserves := ingestion_serves frames port.recorded runner className
  exact (serving_throughout (ingestionService frames port runner className) hserves
    hstart steps).imp fun s ⟨hs, hacked⟩ => ⟨hs.invariant, hs.done, hacked⟩

def ingestionRunner : WorkerRunner where
  queueName := ingestionQueue
  group := "backend.ingestion".toList
  consumerName := "host-1".toList

def scanUpload : Upload where
  batchId := "b1".toList
  content := [7, 8]
  mime := "image/tiff".toList
  documentId := "d1".toList
  envelopeId := "e1".toList
  messageId := "o1".toList

def scanMessage : IngestionMessage where
  documentId := some "d1".toList
  storageKey := some (putStream scanUpload.content).key
  mime := some scanUpload.mime

def sampleIngestionSeed (delivery : String) (putFault : ℕ → Fault IngestionError) :
    IngestionSeed where
  ids nth := ⟨(delivery ++ toString nth).toList, ("n" ++ delivery ++ toString nth).toList,
    ("o" ++ delivery ++ toString nth).toList⟩
  pageEntry nth := ⟨("a" ++ delivery ++ toString nth).toList, newYear 1⟩
  pageTime _ := newYear 2
  putFault := putFault
  deadLetterEntry := ⟨("l" ++ delivery).toList, newYear 3⟩

def interruptedScan : List (ServiceStep IngestionSeed IngestionMessage CustodyWrite) :=
  [.upstream (.batch ⟨"b1".toList, "Pune".toList⟩), .upstream (.document scanUpload),
    .others scanMessage, .others scanMessage, .consume "host-1".toList .none,
    .deliver "host-1".toList (sampleIngestionSeed "x" fun nth =>
      if nth = 1 then .raises false (.other "ClientError".toList) else .none) {},
    .consume "host-1".toList .none,
    .deliver "host-1".toList (sampleIngestionSeed "y" fun _ => .none) {},
    .consume "host-1".toList .none,
    .deliver "host-1".toList (sampleIngestionSeed "z" fun _ => .none) {}]

/-- The second delivery splits the scan, and the second message finds it split. -/
example : (Runs.run (serviceStep
    (fun message q => (InMemoryQueue.publish ingestionRunner.queueName message q).2)
      CustodyWrite.apply
      (ingestionService (fun _ data => some (data.map fun byte => [byte])) InMemoryQueue.port
        ingestionRunner fun _ => "Exception".toList))
    (ServiceState.initial InMemoryQueue.empty {}) interruptedScan).map (fun s =>
      (s.world.db.split.pages.map fun page => (page.id, page.index),
        (ingestedEntries s.world.db).map AuditEntry.district)) =
    some ([("y0".toList, 0), ("y1".toList, 1)], [some "Pune".toList, some "Pune".toList]) := by
  decide +kernel

end LandRecords.Ingest
