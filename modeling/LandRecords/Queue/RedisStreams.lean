import LandRecords.Queue.RedisServer

/-! The Redis Streams driver, over the commands of its server. A message is kept as
the payload that the JSON text of its field stands for, and a read that blocks
returns when the blocking time is over. -/
namespace LandRecords.Queue.RedisStreamsQueue

open Text

variable {R δ : Type} (server : StreamServer R δ)

def publish (queue : Text) (message : δ) (r : R) : Text × R := server.xadd queue message r

/-- A `BUSYGROUP` error is ignored. -/
def ensureGroup (queue group start : Text) (r : R) : R := server.xgroupCreate queue group start r

/-- One entry of a reply. Without fields it is skipped. -/
def toMessage (queue group : Text) (r : R) (entry : Text × Option δ) : Option (QueueMessage δ) :=
  entry.2.map fun data =>
    { sequenceId := entry.1
      data := data
      deliveryCount :=
        match server.xpendingRange queue group entry.1 entry.1 1 r with
        | [] => 1
        | pending :: _ => pending.2.2 }

def consume (queue group consumerName : Text) (count : Nat) (r : R) :
    List (QueueMessage δ) × R :=
  let r := ensureGroup server queue group "0".toList r
  let pending := server.xreadgroup group consumerName queue "0".toList count r
  let resp :=
    if pending.1.isEmpty then server.xreadgroup group consumerName queue ">".toList count pending.2
    else pending
  (resp.1.filterMap (toMessage server queue group resp.2), resp.2)

def ack (queue group sequenceId : Text) (r : R) : R := server.xack queue group sequenceId r

def replayFrom (queue group sequenceId : Text) (r : R) : R :=
  server.xgroupSetid queue group sequenceId (ensureGroup server queue group "0".toList r)

def port : QueuePort R δ where
  publish := publish server
  ensureGroup := ensureGroup server
  consume := consume server
  ack := ack server
  replayFrom := replayFrom server

end LandRecords.Queue.RedisStreamsQueue
