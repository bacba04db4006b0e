import LandRecords.Audit.Merkle
import Mathlib

/-! End-to-end verification of the audit database: the structural check of every
shard, the comparison with an anchored root, and the tamper window read from the
roll history. -/
namespace LandRecords.Audit

open Datetime Text

/-- One row of `chain_root`. -/
structure ChainRoot where
  id : Text
  root : Text
  rolledAt : Instant
  shardHeads : List ShardHeadRecord
  configVersion : Option Text
deriving DecidableEq

def ChainRoot.recordedHead (roll : ChainRoot) (shardId : Int) : Option Text :=
  (roll.shardHeads.find? fun head => head.shardId = shardId).bind ShardHeadRecord.headHash

structure AuditDatabase where
  entries : AuditTable
  roots : List ChainRoot

/-- `perform_roll` up to the witness call, with the row id and the clock reading
of the new `chain_root` row. -/
def performRoll (db : AuditDatabase) (id : Text) (rolledAt : Instant)
    (configVersion : Option Text) : ChainRoot × AuditDatabase :=
  let roll := rollGlobalRoot db.entries
  let chainRoot := ⟨id, roll.1, rolledAt, roll.2, configVersion⟩
  (chainRoot, { db with roots := db.roots ++ [chainRoot] })

structure ShardFinding where
  shardId : Int
  ok : Bool
  detail : Text
deriving DecidableEq

structure TamperWindow where
  shardId : Int
  lastAgreeingRootId : Option Text
  lastAgreeingRolledAt : Option Text
  earliestDisagreeingRootId : Text
  earliestDisagreeingRolledAt : Text
  detail : Text
deriving DecidableEq

structure VerificationReport where
  structuralOk : Bool
  structuralFindings : List ShardFinding
  /-- `none` if no anchored root was supplied. -/
  anchorOk : Option Bool
  computedRoot : Text
  suppliedAnchorRoot : Option Text
  tamperWindow : Option TamperWindow
deriving DecidableEq

def VerificationReport.ok (report : VerificationReport) : Bool :=
  report.structuralOk && report.anchorOk != some false

def structuralFinding (zone : Zone) (table : AuditTable) (shardId : Int) : ShardFinding :=
  match verifyShard zone table shardId true with
  | .ok _ => ⟨shardId, true, "chain recomputes consistently".toList⟩
  | .error tampered => ⟨shardId, false, tampered.message⟩

def structuralFindings (zone : Zone) (table : AuditTable) : List ShardFinding :=
  shardIds.map (structuralFinding zone table)

def tamperDetail (zone : Zone) (shardId : Int) (lastAgreeing : Option ChainRoot)
    (roll : ChainRoot) : Text :=
  "shard ".toList ++ intText shardId ++ "'s head hash as recorded in chain_root ".toList ++ roll.id ++
    " (rolled at ".toList ++ isoformat zone roll.rolledAt ++
    ") no longer exists in the shard's current chain — the tamper (and any local ".toList ++
    "forward-recompute covering it) happened no earlier than ".toList ++
    (match lastAgreeing with
      | some agreeing => isoformat zone agreeing.rolledAt
      | none => "the start of the chain".toList) ++
    " and no later than ".toList ++ isoformat zone roll.rolledAt

/-- The loop of `bound_tamper_window` over the rolls in chronological order. A
roll that recorded no head for the shard is skipped. -/
def firstDisagreement (zone : Zone) (table : AuditTable) (shardId : Int) :
    Option ChainRoot → List ChainRoot → Option TamperWindow
  | _, [] => none
  | lastAgreeing, roll :: rest =>
      match roll.recordedHead shardId with
      | none => firstDisagreement zone table shardId lastAgreeing rest
      | some headHash =>
          if (table.shard shardId).any fun entry => entry.hash = headHash then
            firstDisagreement zone table shardId (some roll) rest
          else
            some {
              shardId := shardId
              lastAgreeingRootId := lastAgreeing.map ChainRoot.id
              lastAgreeingRolledAt := lastAgreeing.map fun agreeing =>
                isoformat zone agreeing.rolledAt
              earliestDisagreeingRootId := roll.id
              earliestDisagreeingRolledAt := isoformat zone roll.rolledAt
              detail := tamperDetail zone shardId lastAgreeing roll }

def boundTamperWindow (zone : Zone) (db : AuditDatabase) (shardId : Int) : Option TamperWindow :=
  firstDisagreement zone db.entries shardId none (orderBy ChainRoot.rolledAt db.roots)

def verifyAgainstAnchor (zone : Zone) (db : AuditDatabase) (trustedRoot : Option Text) :
    VerificationReport :=
  let findings := structuralFindings zone db.entries
  let computedRoot := computeRoot (currentShardHeads db.entries)
  let anchorOk := trustedRoot.map fun root => decide (computedRoot = root)
  let windows := orderBy TamperWindow.earliestDisagreeingRolledAt
    (shardIds.filterMap (boundTamperWindow zone db))
  { structuralOk := findings.all ShardFinding.ok
    structuralFindings := findings
    anchorOk := anchorOk
    computedRoot := computedRoot
    suppliedAnchorRoot := trustedRoot
    tamperWindow := if anchorOk = some false then windows.head? else none }

theorem verifyEntries_raises {zone : Zone} {shardId : Int} {prevHash : Option Text}
    {entries : List AuditEntry} : verifyEntries zone shardId true prevHash entries ≠ .ok false := by
  induction entries generalizing prevHash with
  | nil => simp [verifyEntries]
  | cons entry rest ih =>
    simp only [verifyEntries]
    split
    · simp
    · exact ih

theorem structuralFinding_ok {zone : Zone} {table : AuditTable} {shardId : Int} :
    (structuralFinding zone table shardId).ok = true ↔
      (chainFormat zone).Linked none (table.walk shardId) := by
  rw [structuralFinding, ← @verifyShard_iff zone table shardId true]
  cases h : verifyShard zone table shardId true with
  | error tampered => simp
  | ok verified =>
    cases verified with
    | true => simp
    | false => exact absurd h verifyEntries_raises

/-- A report against an anchored root is ok exactly when every shard recomputes
and the current heads have that root. -/
theorem report_ok_iff {zone : Zone} {db : AuditDatabase} {root : Text} :
    (verifyAgainstAnchor zone db (some root)).ok = true ↔
      (∀ shardId ∈ shardIds, (chainFormat zone).Linked none (db.entries.walk shardId)) ∧
        computeRoot (currentShardHeads db.entries) = root := by
  have hstructural : (structuralFindings zone db.entries).all ShardFinding.ok = true ↔
      ∀ shardId ∈ shardIds, (chainFormat zone).Linked none (db.entries.walk shardId) := by
    simp only [structuralFindings, List.all_map, List.all_eq_true, Function.comp_apply,
      structuralFinding_ok]
  rw [← hstructural]
  simp [VerificationReport.ok, verifyAgainstAnchor]

theorem firstDisagreement_eq_none_iff {zone : Zone} {table : AuditTable} {shardId : Int}
    {lastAgreeing : Option ChainRoot} {rolls : List ChainRoot} :
    firstDisagreement zone table shardId lastAgreeing rolls = none ↔
      ∀ roll ∈ rolls, ∀ headHash ∈ roll.recordedHead shardId,
        ∃ entry ∈ table.shard shardId, entry.hash = headHash := by
  induction rolls generalizing lastAgreeing with
  | nil => simp [firstDisagreement]
  | cons roll rest ih =>
    rw [List.forall_mem_cons, firstDisagreement]
    cases roll.recordedHead shardId with
    | none =>
      simp only [ih, Option.not_mem_none, IsEmpty.forall_iff, implies_true, true_and]
    | some headHash =>
      simp only [Option.mem_some_iff, forall_eq', List.any_eq_true, decide_eq_true_eq]
      by_cases hpresent : ∃ entry ∈ table.shard shardId, entry.hash = headHash
      · simp only [hpresent, if_true, ih, true_and]
      · simp [hpresent]

/-- No window is reported exactly when every recorded head is still in its shard. -/
theorem boundTamperWindow_eq_none_iff {zone : Zone} {db : AuditDatabase} {shardId : Int} :
    boundTamperWindow zone db shardId = none ↔
      ∀ roll ∈ db.roots, ∀ headHash ∈ roll.recordedHead shardId,
        ∃ entry ∈ db.entries.shard shardId, entry.hash = headHash := by
  rw [boundTamperWindow, firstDisagreement_eq_none_iff]
  simp only [mem_orderBy]

end LandRecords.Audit
