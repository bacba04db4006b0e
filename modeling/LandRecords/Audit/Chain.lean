import LandRecords.Base.Sha256
import LandRecords.Base.Datetime
import LandRecords.Base.TimedChain
import Mathlib

/-! The sharded audit chain: `audit_entry`, `append` and `verify_shard`. A table
is read in a session whose time zone decides how a stored instant is rendered. -/
namespace LandRecords.Audit

open Datetime Text

structure AuditEntry where
  id : Text
  shardId : Int
  prevHash : Option Text
  hash : Text
  actor : Text
  action : Text
  subject : Option Text
  purpose : Option Text
  valueHash : Option Text
  /-- The column `at`. -/
  atInstant : Instant
  district : Option Text
deriving DecidableEq

def AuditEntry.primaryKey (entry : AuditEntry) : Text × Int := (entry.id, entry.shardId)

/-- Named, so that every decision on primary keys rests on the same proof. -/
instance lawfulPrimaryKey : LawfulBEq (Text × Int) := inferInstance

/-- `ORDER BY at, id`, the order of both reads of a shard. -/
def AuditEntry.chainKey (entry : AuditEntry) : Instant ×ₗ Text := toLex (entry.atInstant, entry.id)

/-- The table `audit_entry`, in insertion order. -/
structure AuditTable where
  rows : List AuditEntry
  unique : (rows.map AuditEntry.primaryKey).Nodup

def AuditTable.empty : AuditTable := ⟨[], List.nodup_nil⟩

def numShards : Nat := 8
def systemShardId : Int := 0
def systemShardKey : Text := "system".toList

/-- `int(digits, 16)`. -/
def hexValue (text : Text) : Nat := text.foldl (fun n c => 16 * n + digits.idxOf c) 0

def shardFor (key : Text) : Int :=
  if key = systemShardKey then systemShardId
  else (hexValue (Sha256.hexdigest key) % numShards : Nat)

/-- Truth of an optional string: `None` and the empty string are false. -/
def isTruthy (value : Option Text) : Bool := value.any fun text => !text.isEmpty

def shardKeyFor (district batchId : Option Text) : Text :=
  if isTruthy district then "district:".toList ++ orEmpty district
  else if isTruthy batchId then "batch:".toList ++ orEmpty batchId
  else systemShardKey

/-- The string that `_compute_hash` hashes. -/
def hashMaterial (prevHash : Option Text) (actor action : Text)
    (subject purpose valueHash : Option Text) (atIso : Text) : Text :=
  join "|".toList
    [orEmpty prevHash, actor, action, orEmpty subject, orEmpty purpose, orEmpty valueHash, atIso]

def computeHash (prevHash : Option Text) (actor action : Text)
    (subject purpose valueHash : Option Text) (atIso : Text) : Text :=
  Sha256.hexdigest (hashMaterial prevHash actor action subject purpose valueHash atIso)

/-- The keyword arguments of `append`. -/
structure AppendArgs where
  actor : Text
  action : Text
  subject : Option Text := none
  purpose : Option Text := none
  valueHash : Option Text := none
  shardId : Option Int := none
  shardKey : Option Text := none
  district : Option Text := none
deriving DecidableEq

/-- An explicit shard, then the shard key, then `subject or actor`. -/
def AppendArgs.resolvedShard (args : AppendArgs) : Int :=
  match args.shardId, args.shardKey with
  | some shardId, _ => shardId
  | none, some shardKey => shardFor shardKey
  | none, none => shardFor (if isTruthy args.subject then orEmpty args.subject else args.actor)

def AuditTable.shard (table : AuditTable) (shardId : Int) : List AuditEntry :=
  table.rows.filter fun entry => entry.shardId = shardId

/-- The entry that `append` builds on the shard's latest row. -/
def newEntry (id : Text) (now : Instant) (args : AppendArgs) (last : Option AuditEntry) :
    AuditEntry where
  id := id
  shardId := args.resolvedShard
  prevHash := last.map AuditEntry.hash
  hash := computeHash (last.map AuditEntry.hash) args.actor args.action args.subject args.purpose
    args.valueHash (isoformat utc now)
  actor := args.actor
  action := args.action
  subject := args.subject
  purpose := args.purpose
  valueHash := args.valueHash
  atInstant := now
  district := args.district

structure IntegrityError where
  primaryKey : Text × Int

/-- `append` with the generated row id and the clock reading it takes. -/
def append (table : AuditTable) (id : Text) (now : Instant) (args : AppendArgs) :
    Except IntegrityError (AuditEntry × AuditTable) :=
  let last := latest AuditEntry.chainKey (table.shard args.resolvedShard)
  let entry := newEntry id now args last
  if taken : entry.primaryKey ∈ table.rows.map AuditEntry.primaryKey then
    .error ⟨entry.primaryKey⟩
  else
    .ok (entry, ⟨table.rows ++ [entry], by
      rw [List.map_append, List.map_singleton]
      exact List.Nodup.append table.unique (List.nodup_singleton _)
        (List.disjoint_singleton.mpr taken)⟩)

structure ChainTamperedError where
  message : Text
deriving DecidableEq

def intText (n : Int) : Text := (toString n).toList

def tamperedMessage (shardId : Int) (entryId : Text) : Text :=
  "shard ".toList ++ intText shardId ++ " entry ".toList ++ entryId ++
    " does not chain from its predecessor".toList

/-- `_compute_hash` over the fields of a stored entry, its instant rendered in
the session's time zone. -/
def entryMaterial (zone : Zone) (prevHash : Option Text) (entry : AuditEntry) : Text :=
  hashMaterial prevHash entry.actor entry.action entry.subject entry.purpose entry.valueHash
    (isoformat zone entry.atInstant)

/-- The loop of `verify_shard`. -/
def verifyEntries (zone : Zone) (shardId : Int) (raiseOnMismatch : Bool) :
    Option Text → List AuditEntry → Except ChainTamperedError Bool
  | _, [] => .ok true
  | prevHash, entry :: rest =>
      let expected := Sha256.hexdigest (entryMaterial zone prevHash entry)
      if entry.prevHash ≠ prevHash ∨ entry.hash ≠ expected then
        if raiseOnMismatch then .error ⟨tamperedMessage shardId entry.id⟩ else .ok false
      else verifyEntries zone shardId raiseOnMismatch (some entry.hash) rest

def AuditTable.walk (table : AuditTable) (shardId : Int) : List AuditEntry :=
  orderBy AuditEntry.chainKey (table.shard shardId)

def verifyShard (zone : Zone) (table : AuditTable) (shardId : Int)
    (raiseOnMismatch : Bool := true) : Except ChainTamperedError Bool :=
  verifyEntries zone shardId raiseOnMismatch none (table.walk shardId)

end LandRecords.Audit
