import LandRecords.Base.Datetime

/-! The transactional outbox: a row for each message, written beside the rows that the
message tells about. -/
namespace LandRecords.Outbox

open Datetime Text

/-- The entries of the dictionary that `emit` builds. -/
structure Envelope (Work Payload : Type) where
  messageId : Text
  traceId : Text
  emittedAt : Text
  producer : Text
  workEnvelope : Option Work
  payload : Payload
  queue : Text
deriving DecidableEq

structure OutboxMessage (E : Type) where
  id : Text
  queue : Text
  envelope : E
  createdAt : Instant
  dispatched : Bool := false
  dispatchedAt : Option Instant := none
  dispatchAttempts : Nat := 0
deriving DecidableEq

variable {Work Payload E : Type}

def emit (queue producer : Text) (payload : Payload) (workEnvelope : Option Work) (traceId : Text)
    (messageId : Text) (now : Instant) : Envelope Work Payload where
  messageId := messageId
  traceId := traceId
  emittedAt := isoformat utc now
  producer := producer
  workEnvelope := workEnvelope
  payload := payload
  queue := queue

/-- The row that `write` adds. -/
def outboxRow (queue : Text) (envelope : E) (id : Text) (now : Instant) : OutboxMessage E where
  id := id
  queue := queue
  envelope := envelope
  createdAt := now

end LandRecords.Outbox
