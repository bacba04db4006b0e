import LandRecords.Base.OrderBy
import LandRecords.Base.RowLocks
import LandRecords.Base.Rows
import LandRecords.Outbox.Message

/-! The relay. It locks a batch of undispatched messages, publishes them one by one and
marks them as dispatched, all in one transaction; the broker is outside of it. -/
namespace LandRecords.Outbox

open Datetime RowLocks Text

variable {E : Type}

structure Publication (E : Type) where
  relay : Text
  messageId : Text
  queue : Text
  envelope : E

structure NewMessage (E : Type) where
  id : Text
  queue : Text
  envelope : E

/-- A call of `drain_once`, and a transaction that writes messages. -/
inductive Request (E : Type)
  | drain (relay : Text) (batchSize : Nat)
  | produce (messages : List (NewMessage E))

def Request.isDrain : Request E → Bool
  | .drain _ _ => true
  | .produce _ => false

/-- Where a transaction is. A relay has the messages that it has locked, and those that
it has published with the time at which it set their columns. -/
inductive Phase (E : Type)
  | received
  | scanning (candidates : List Text) (room : Nat) (pending : List (OutboxMessage E))
  | locked (id : Text) (candidates : List Text) (room : Nat) (pending : List (OutboxMessage E))
  | publishing (pending : List (OutboxMessage E)) (published : List (OutboxMessage E × Instant))
  | marking (rest marked : List (OutboxMessage E × Instant))
  | producing (rest : List (NewMessage E))

structure Locals (E : Type) where
  request : Request E
  phase : Phase E

inductive Write (E : Type)
  | addMessage (row : OutboxMessage E)
  | dispatch (id : Text) (dispatchedAt : Instant) (dispatchAttempts : Nat)

def Write.keys : Write E → List Text
  | .addMessage row => [row.id]
  | .dispatch id _ _ => [id]

def dispatchedOn (dispatchedAt : Instant) (dispatchAttempts : Nat) (row : OutboxMessage E) :
    OutboxMessage E :=
  { row with
    dispatched := true
    dispatchedAt := some dispatchedAt
    dispatchAttempts := dispatchAttempts }

def Write.apply : Write E → List (OutboxMessage E) → List (OutboxMessage E)
  | .addMessage row => fun rows => rows ++ [row]
  | .dispatch id dispatchedAt dispatchAttempts =>
      Rows.updateAt OutboxMessage.id id (dispatchedOn dispatchedAt dispatchAttempts)

def Write.violates (rows : List (OutboxMessage E)) : Write E → Bool
  | .addMessage row => row.id ∈ rows.map OutboxMessage.id
  | .dispatch _ _ _ => false

def pendingIds (rows : List (OutboxMessage E)) : List Text :=
  (orderBy OutboxMessage.createdAt (rows.filter fun row => row.dispatched = false)).map
    OutboxMessage.id

def message? (rows : List (OutboxMessage E)) (id : Text) : Option (OutboxMessage E) :=
  rows.find? fun row => row.id = id

def publicationOf (relay : Text) (row : OutboxMessage E) : Publication E :=
  ⟨relay, row.id, row.queue, row.envelope⟩

def dispatchOf (row : OutboxMessage E × Instant) : Write E :=
  .dispatch row.1.id row.2 (row.1.dispatchAttempts + 1)

/-- `drain_once`, statement by statement. A message that has been locked is checked
against the `WHERE` again. -/
def drainStatement (relay : Text) (batchSize : Nat) (now : Instant) (rows : List (OutboxMessage E)) :
    Phase E → Statement (Phase E) (Write E) Text (Publication E)
  | .received => .next (.scanning (pendingIds rows) batchSize [])
  | .scanning (id :: candidates) (room + 1) pending =>
      .tryLock id (.locked id candidates room pending) (.scanning candidates (room + 1) pending)
  | .scanning _ _ pending => .next (.publishing pending [])
  | .locked id candidates room pending =>
      match (message? rows id).filter fun row => row.dispatched = false with
      | some row => .next (.scanning candidates room (pending ++ [row]))
      | none => .next (.scanning candidates (room + 1) pending)
  | .publishing (row :: pending) published =>
      .call (.publishing pending (published ++ [(row, now)])) (publicationOf relay row)
  | .publishing [] published => .next (.marking published [])
  | .marking (row :: rest) marked => .write (.marking rest (marked ++ [row])) (dispatchOf row)
  | .marking [] _ => .done
  | .producing _ => .fail

def produceStatement (messages : List (NewMessage E)) (now : Instant) :
    Phase E → Statement (Phase E) (Write E) Text (Publication E)
  | .received => .next (.producing messages)
  | .producing (message :: rest) => .write (.producing rest)
      (.addMessage (outboxRow message.queue message.envelope message.id now))
  | .producing [] => .done
  | _ => .fail

def requestStatement (now : Instant) (rows : List (OutboxMessage E)) (request : Request E) :
    Phase E → Statement (Phase E) (Write E) Text (Publication E) :=
  match request with
  | .drain relay batchSize => drainStatement relay batchSize now rows
  | .produce messages => produceStatement messages now

def Locals.statement (locals : Locals E) (now : Instant) (rows : List (OutboxMessage E)) :
    Statement (Locals E) (Write E) Text (Publication E) :=
  (requestStatement now rows locals.request locals.phase).mapLocals fun phase =>
    { locals with phase := phase }

def relays (E : Type) :
    System (List (OutboxMessage E)) (Request E) (Locals E) (Write E) Text (Publication E)
      Instant where
  init request := ⟨request, .received⟩
  statement := Locals.statement
  apply := Write.apply
  keys := Write.keys
  violates write rows := write.violates rows

abbrev Commits (E : Type) := Shared (List (OutboxMessage E)) (Locals E) (Publication E) Instant

abbrev OutboxTxn (E : Type) := Txn (Locals E) (Write E) Text

abbrev OutboxState (E : Type) :=
  State (List (OutboxMessage E)) (Locals E) (Write E) Text (Publication E) Instant

def Published (v : Commits E) (row : OutboxMessage E) : Prop :=
  ∃ publication ∈ v.effects, publication.messageId = row.id ∧ publication.queue = row.queue ∧
    publication.envelope = row.envelope

/-- A message is dispatched only if it was published, and can be selected until then. -/
structure Relayed (v : Commits E) : Prop where
  dispatched : ∀ row ∈ v.committed, row.dispatched = true → Published v row
  unpublished : ∀ row ∈ v.committed, ¬ Published v row →
    row.dispatched = false ∧ row.id ∈ pendingIds v.committed

def publicationsOf (v : Commits E) (id : Text) : List (Publication E) :=
  v.effects.filter fun publication => publication.messageId = id

/-- No message is published twice, and one that is not dispatched yet was published by a
relay that still has it locked. -/
structure PublishedOnce (s : OutboxState E) : Prop where
  once : ∀ id, (publicationsOf s.shared id).length ≤ 1
  dispatched : ∀ row ∈ s.shared.committed, row.dispatched = true →
    (publicationsOf s.shared row.id).length = 1
  undispatched : ∀ row ∈ s.shared.committed, row.dispatched = false →
    ∀ publication ∈ publicationsOf s.shared row.id, ∃ i txn, s.txn? i = some txn ∧
      row.id ∈ txn.locks ∧ ∃ batchSize, txn.locals.request = .drain publication.relay batchSize

/-- No publish fails, and no relay crashes or fails to commit. -/
def NoFailure (s : OutboxState E) : RowLocks.Step (Request E) Instant → Prop
  | .fault _ _ => False
  | .rollback i => (s.txn? i).all fun txn => !txn.locals.request.isDrain
  | _ => True

instance (s : OutboxState E) : DecidablePred (NoFailure s) := fun a =>
  match a with
  | .fault _ _ => .isFalse id
  | .rollback _ => inferInstanceAs (Decidable (_ = true))
  | .begin _ | .execute _ | .commit _ | .advance _ => .isTrue trivial

end LandRecords.Outbox
