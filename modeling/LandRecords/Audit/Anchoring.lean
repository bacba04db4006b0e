import LandRecords.Audit.AnchoredRoot
import LandRecords.Storage.Immutable

/-! Anchoring. A roll puts its root into a second store, from which the `verify-chain`
command reads it back. Whoever can write to the database cannot reach that store. -/
namespace LandRecords.Audit

open ContentAddressed Datetime Fallible Text
open Ingest (Content digestOf keyFor)
open Sha256 (encode)
open Storage (Conditions Disk LocalFsObjectStore StoreError)

/-- `bytes.decode()`, which raises where the bytes are not UTF-8. -/
def decode (bytes : Content) : Option Text := bytes.toByteArray.utf8Decode?.map Array.toList

structure SignOnlyKeyHandle where
  keyId : Text
  sign : Content → Text

structure WitnessReceipt where
  root : Text
  anchoredAt : Text
  witness : Text
  witnessReference : Text
  signature : Option Text
  kmsKeyId : Option Text
deriving DecidableEq

/-- One row of `anchor_receipt`. -/
structure AnchorReceipt extends WitnessReceipt where
  chainRootId : Text
deriving DecidableEq

structure AnchoredDatabase where
  audit : AuditDatabase
  receipts : List AnchorReceipt

/-- The database, and the anchor store under its own credentials. -/
structure AnchorWorld where
  db : AnchoredDatabase
  disk : Disk

/-- What a roll draws and meets: ids, clock readings, and whether the caller's commit goes
through. -/
structure RollCall where
  chainRootId : Text
  rolledAt : Instant
  anchoredAt : Instant
  anchor : Bool
  conditions : Conditions
  commits : Bool

/-- `CONFIG_VERSION` of the publication policy. -/
def rollConfigVersion : Text := "phase4-fixture-v1".toList

section Roll

variable (store : LocalFsObjectStore) (signer : Option SignOnlyKeyHandle)

def anchorPayload (root : Text) (anchoredAt : Instant) : Content :=
  encode (root ++ '|' :: isoformat utc anchoredAt ++
    '|' :: orEmpty (signer.map fun handle => handle.sign (encode root)))

/-- `SecondStoreWitness.anchor`. -/
def anchorRoot (root : Text) (anchoredAt : Instant) (conditions : Conditions) :
    Fallible Disk StoreError WitnessReceipt := do
  let result ← store.put (anchorPayload signer root anchoredAt) conditions
  return {
    root := root
    anchoredAt := isoformat utc anchoredAt
    witness := "second_store".toList
    witnessReference := result.key
    signature := signer.map fun handle => handle.sign (encode root)
    kmsKeyId := signer.map SignOnlyKeyHandle.keyId }

/-- A transaction that is rolled back where the program does not return, or its commit
fails. What it did outside the database stays. -/
def inSession {α : Type} (commits : Bool) (m : Fallible AnchorWorld StoreError α) :
    Fallible AnchorWorld StoreError α := fun w =>
  match m w with
  | (.returned a, later) => (.returned a, if commits then later else { later with db := w.db })
  | (exit, later) => (exit, { later with db := w.db })

def addRoll (chainRoot : ChainRoot × AuditDatabase) (w : AnchorWorld) : AnchorWorld :=
  { w with db := { w.db with audit := chainRoot.2 } }

def addReceipt (chainRootId : Text) (receipt : WitnessReceipt) (w : AnchorWorld) : AnchorWorld :=
  { w with db := { w.db with receipts := w.db.receipts ++ [⟨receipt, chainRootId⟩] } }

def anchorRoll (call : RollCall) (chainRoot : ChainRoot) :
    Fallible AnchorWorld StoreError ChainRoot := do
  let receipt ← within AnchorWorld.disk (fun disk w => { w with disk := disk }) id
    (anchorRoot store signer chainRoot.root call.anchoredAt call.conditions)
  write (addReceipt chainRoot.id receipt)
  return chainRoot

/-- `perform_roll` as a whole. -/
def performAnchoredRoll (call : RollCall) : Fallible AnchorWorld StoreError ChainRoot := do
  let chainRoot ← read fun w =>
    performRoll w.db.audit call.chainRootId call.rolledAt (some rollConfigVersion)
  write (addRoll chainRoot)
  if call.anchor then anchorRoll store signer call chainRoot.1
  else return chainRoot.1

/-- `perform_scheduled_roll`, with what its caller makes of the transaction. -/
def performScheduledRoll (call : RollCall) : Fallible AnchorWorld StoreError ChainRoot :=
  inSession call.commits (performAnchoredRoll store signer call)

end Roll

/-! ## The command -/

inductive RootSource
  | anchoredRoot (value : Text)
  | anchorStoreKey (key : Text)

structure CliArguments where
  source : RootSource
  structuralOnly : Bool

structure CliConditions where
  engineBuilt : Bool
  verificationRuns : Bool

section Cli

variable (store : LocalFsObjectStore)

/-- `_fetch_from_anchor_store`. -/
def fetchFromAnchorStore (key : Text) : Fallible Disk StoreError Text := do
  let payload ← store.get key
  match decode payload with
  | none => raise (.failure "UnicodeDecodeError".toList)
  | some text => return text.takeWhile fun c => c ≠ '|'

/-- `args.anchored_root or _fetch_from_anchor_store(args.anchor_store_key)`. Without a key
there is nothing to fetch. -/
def trustedRoot (args : CliArguments) : Fallible Disk StoreError (Option Text) :=
  if args.structuralOnly then return none
  else
    match args.source with
    | .anchoredRoot value =>
        if value = [] then raise (.failure "TypeError".toList) else return some value
    | .anchorStoreKey key => do return some (← fetchFromAnchorStore store key)

/-- The exit code of `verify-chain`. -/
def verifyChain (zone : Zone) (conditions : CliConditions) (args : CliArguments)
    (w : AnchorWorld) : ℕ :=
  if !conditions.engineBuilt then 2
  else
    match (trustedRoot store args w.disk).1 with
    | .raised _ | .crashed => 2
    | .returned root =>
        if !conditions.verificationRuns then 2
        else if (verifyAgainstAnchor zone w.db.audit root).ok then 0
        else 1

end Cli

/-! ## Runs -/

inductive AnchorStep
  | append (call : AppendCall)
  | roll (call : RollCall)
  /-- Whatever the application's own credentials can write. -/
  | rewrite (db : AnchoredDatabase)

section Runs

variable (store : LocalFsObjectStore) (signer : Option SignOnlyKeyHandle)

def AnchorWorld.step (w : AnchorWorld) : AnchorStep → AnchorWorld
  | .append call =>
      { w with db := { w.db with audit := { w.db.audit with entries := w.db.audit.entries.call call } } }
  | .roll call => (performScheduledRoll store signer call w).2
  | .rewrite db => { w with db := db }

def AnchorWorld.run (w : AnchorWorld) (steps : List AnchorStep) : AnchorWorld :=
  steps.foldl (AnchorWorld.step store signer) w

def AnchorWorld.payloads (w : AnchorWorld) : AnchorStep → List Content
  | .roll call => [anchorPayload signer (rollGlobalRoot w.db.audit.entries).1 call.anchoredAt]
  | .append _ | .rewrite _ => []

/-- What the rolls of a run would put there. -/
def AnchorWorld.runPayloads : AnchorWorld → List AnchorStep → List Content
  | _, [] => []
  | w, step :: rest => w.payloads signer step ++ (w.step store signer step).runPayloads rest

end Runs

/-! ## Reading back -/

theorem decode_encode (text : Text) : decode (encode text) = some text := by
  have hbytes : (encode text).toByteArray = List.utf8Encode text := rfl
  rw [decode, hbytes, List.utf8Decode?_utf8Encode]
  rfl

theorem computeRoot_mem {heads : List ShardHeadRecord} {c : Char} (h : c ∈ computeRoot heads) :
    c ∈ digits := by
  have hleaves : ∀ leaf ∈ headLeaves heads, ∀ c ∈ leaf, c ∈ digits := by
    intro leaf hleaf
    obtain ⟨head, -, rfl⟩ := List.mem_map.mp hleaf
    exact fun _ => Sha256.hexdigest_mem
  have hroot := @MerkleTree.root_forall _ pairHash (fun d => ∀ c ∈ d, c ∈ digits)
    (fun _ _ _ => Sha256.hexdigest_mem) _ hleaves
  unfold computeRoot merkleRoot at h
  cases hmerkle : MerkleTree.root pairHash (headLeaves heads) with
  | none =>
    rw [hmerkle] at h
    exact Sha256.hexdigest_mem h
  | some root =>
    rw [hmerkle] at h
    exact hroot root hmerkle c h

section ReadBack

variable {store : LocalFsObjectStore} {signer : Option SignOnlyKeyHandle} {disk : Disk}

theorem fetch_payload {root : Text} {anchoredAt : Instant} (hroot : '|' ∉ root) {key : Text}
    (hheld : disk (store.path key) = some (anchorPayload signer root anchoredAt)) :
    fetchFromAnchorStore store key disk = (.returned root, disk) := by
  have hfirst : (root ++ '|' :: isoformat utc anchoredAt ++
      '|' :: orEmpty (signer.map fun handle => handle.sign (encode root))).takeWhile
        (fun c => c ≠ '|') = root := by
    rw [List.append_assoc, List.takeWhile_append_of_pos, List.cons_append,
      List.takeWhile_cons_of_neg (by simp), List.append_nil]
    intro c hc
    simpa using fun heq : c = '|' => hroot (heq ▸ hc)
  rw [fetchFromAnchorStore, bind_returned (Storage.get_held hheld), anchorPayload, decode_encode]
  dsimp only
  rw [hfirst]
  rfl

end ReadBack

section Steps

variable {store : LocalFsObjectStore} {signer : Option SignOnlyKeyHandle} {w : AnchorWorld}
  {call : RollCall}

/-- The root that a roll computes. -/
def AnchorWorld.root (w : AnchorWorld) : Text := (rollGlobalRoot w.db.audit.entries).1

def receiptRow (signer : Option SignOnlyKeyHandle) (w : AnchorWorld) (call : RollCall) (key : Text) :
    AnchorReceipt where
  root := w.root
  anchoredAt := isoformat utc call.anchoredAt
  witness := "second_store".toList
  witnessReference := key
  signature := signer.map fun handle => handle.sign (encode w.root)
  kmsKeyId := signer.map SignOnlyKeyHandle.keyId
  chainRootId := call.chainRootId

def AnchorWorld.onDisk (w : AnchorWorld) (disk : Disk) : AnchorWorld := { w with disk := disk }

theorem anchorRoll_returned {chainRoot : ChainRoot} {root : Text} {result : Storage.PutResult}
    {disk : Disk} (hroot : chainRoot.root = root)
    (h : store.put (anchorPayload signer root call.anchoredAt) call.conditions w.disk =
      (.returned result, disk)) :
    anchorRoll store signer call chainRoot w = (.returned chainRoot,
      addReceipt chainRoot.id {
        root := root
        anchoredAt := isoformat utc call.anchoredAt
        witness := "second_store".toList
        witnessReference := result.key
        signature := signer.map fun handle => handle.sign (encode root)
        kmsKeyId := signer.map SignOnlyKeyHandle.keyId } (w.onDisk disk)) := by
  subst hroot
  rw [anchorRoll, bind_returned]
  · rfl
  · rw [within_returned]
    exact ⟨disk, by rw [anchorRoot, bind_returned h]; rfl, rfl⟩

theorem anchorRoll_not_returned {chainRoot : ChainRoot} {root : Text}
    {exit : Exit StoreError Storage.PutResult} {disk : Disk} (hroot : chainRoot.root = root)
    (hexit : ∀ result, exit ≠ .returned result)
    (h : store.put (anchorPayload signer root call.anchoredAt) call.conditions w.disk =
      (exit, disk)) :
    ∃ other : Exit StoreError ChainRoot, (∀ row, other ≠ .returned row) ∧
      anchorRoll store signer call chainRoot w = (other, w.onDisk disk) := by
  subst hroot
  cases exit with
  | returned result => exact absurd rfl (hexit result)
  | raised error =>
    refine ⟨.raised error, by simp, ?_⟩
    rw [anchorRoll, bind_raised]
    rw [within_raised (e := error) (v := disk) (by rw [anchorRoot, bind_raised h])]
    rfl
  | crashed =>
    refine ⟨.crashed, by simp, ?_⟩
    rw [anchorRoll, bind_crashed]
    unfold within
    rw [anchorRoot, bind_crashed h]
    rfl

theorem inSession_world {α : Type} {commits : Bool} {m : Fallible AnchorWorld StoreError α}
    {exit : Exit StoreError α} {later : AnchorWorld} (h : m w = (exit, later)) :
    (inSession commits m w).2 = later ∧ commits = true ∧ (∃ a, exit = .returned a) ∨
      (inSession commits m w).2 = { later with db := w.db } := by
  unfold inSession
  rw [h]
  cases exit with
  | returned a =>
    cases commits with
    | true => exact .inl ⟨rfl, rfl, a, rfl⟩
    | false => exact .inr rfl
  | raised error => exact .inr rfl
  | crashed => exact .inr rfl

def AnchorWorld.rolled (w : AnchorWorld) (call : RollCall) : ChainRoot × AuditDatabase :=
  performRoll w.db.audit call.chainRootId call.rolledAt (some rollConfigVersion)

theorem rolled_root : (w.rolled call).1.root = w.root := by
  rw [AnchorWorld.rolled, performRoll_root, AnchorWorld.root]

theorem performAnchoredRoll_apply : performAnchoredRoll store signer call w =
    if call.anchor then
      anchorRoll store signer call (w.rolled call).1 (addRoll (w.rolled call) w)
    else (.returned (w.rolled call).1, addRoll (w.rolled call) w) := by
  unfold performAnchoredRoll
  rw [read_bind, write_bind]
  cases call.anchor with
  | true => rfl
  | false => rfl

/-- What a roll does: it touches the anchor store with one `put` at most, and adds a receipt
only where that returned and the commit went through. -/
theorem roll_cases (store : LocalFsObjectStore) (signer : Option SignOnlyKeyHandle)
    (w : AnchorWorld) (call : RollCall) :
    ((w.step store signer (.roll call)).disk = w.disk ∧
      (w.step store signer (.roll call)).db.receipts = w.db.receipts) ∨
    ((w.step store signer (.roll call)).disk =
        (store.put (anchorPayload signer w.root call.anchoredAt) call.conditions w.disk).2 ∧
      ((w.step store signer (.roll call)).db.receipts = w.db.receipts ∨
        ∃ result, (store.put (anchorPayload signer w.root call.anchoredAt) call.conditions w.disk).1 =
            .returned result ∧
          (w.step store signer (.roll call)).db.receipts =
            w.db.receipts ++ [receiptRow signer w call result.key])) := by
  have hstep : w.step store signer (.roll call) =
      (inSession call.commits (performAnchoredRoll store signer call) w).2 := rfl
  rw [hstep]
  cases hanchor : call.anchor with
  | false =>
    left
    have hrun : performAnchoredRoll store signer call w =
        (.returned (w.rolled call).1, addRoll (w.rolled call) w) := by
      rw [performAnchoredRoll_apply, hanchor]
      rfl
    rcases @inSession_world _ _ call.commits _ _ _ hrun with ⟨hlater, -, -⟩ | hlater
    · rw [hlater]
      exact ⟨rfl, rfl⟩
    · rw [hlater]
      exact ⟨rfl, rfl⟩
  | true =>
    right
    have hrun : performAnchoredRoll store signer call w =
        anchorRoll store signer call (w.rolled call).1 (addRoll (w.rolled call) w) := by
      rw [performAnchoredRoll_apply, hanchor]
      rfl
    cases hput : store.put (anchorPayload signer w.root call.anchoredAt) call.conditions w.disk with
    | mk exit disk =>
      by_cases hexit : ∃ result, exit = .returned result
      · obtain ⟨result, rfl⟩ := hexit
        have hreturned := hrun.trans (anchorRoll_returned rolled_root hput)
        rcases @inSession_world _ _ call.commits _ _ _ hreturned with ⟨hlater, -, -⟩ | hlater
        · rw [hlater]
          exact ⟨rfl, .inr ⟨result, rfl, rfl⟩⟩
        · rw [hlater]
          exact ⟨rfl, .inl rfl⟩
      · obtain ⟨other, hother, hends⟩ := @anchorRoll_not_returned
          store signer (addRoll (w.rolled call) w) call _ _ _ _ rolled_root
          (fun result h => hexit ⟨result, h⟩) hput
        rcases @inSession_world _ _ call.commits _ _ _ (hrun.trans hends) with
          ⟨-, -, row, hrow⟩ | hlater
        · exact absurd hrow (hother row)
        · rw [hlater]
          exact ⟨rfl, .inl rfl⟩

end Steps

section Guarantee

variable {store : LocalFsObjectStore} {signer : Option SignOnlyKeyHandle} {w : AnchorWorld}
  {contents : List Content} {stored : Set Content}

theorem put_effect {disk : Disk} {data : Content} (conditions : Conditions)
    (hsound : ∀ held, disk (Storage.address store data) = some held → held = data) :
    Effect (Storage.address store) data disk (store.put data conditions disk).2
        (Storage.createdBy (store.put data conditions disk).1) ∧
      ∀ result, (store.put data conditions disk).1 = .returned result →
        result.key = keyFor (digestOf data) := by
  obtain ⟨heffect, hnamed⟩ := Storage.perform_effect (.put data conditions) hsound
  exact ⟨heffect, fun result hreturned => (hnamed result hreturned).2⟩

theorem step_effect (s : AnchorStep)
    (hsound : ∀ content ∈ w.payloads signer s, ∀ held,
      w.disk (Storage.address store content) = some held → held = content) :
    (w.step store signer s).disk = w.disk ∨ ∃ content ∈ w.payloads signer s, ∃ outcome,
      Effect (Storage.address store) content w.disk (w.step store signer s).disk outcome := by
  cases s with
  | append call => exact .inl rfl
  | rewrite db => exact .inl rfl
  | roll call =>
    rcases roll_cases store signer w call with ⟨hdisk, -⟩ | ⟨hdisk, -⟩
    · exact .inl hdisk
    · right
      have hcontent := List.mem_singleton_self (anchorPayload signer w.root call.anchoredAt)
      rw [hdisk]
      exact ⟨_, hcontent, _, (put_effect call.conditions (hsound _ hcontent)).1⟩

theorem run_represents (hfree : CollisionFree digestOf contents) (steps : List AnchorStep)
    (h : Represents (Storage.address store) contents w.disk stored)
    (hcontents : w.runPayloads store signer steps ⊆ contents) :
    (∃ later, Represents (Storage.address store) contents (w.run store signer steps).disk later) ∧
      ∀ path held, w.disk path = some held → (w.run store signer steps).disk path = some held := by
  induction steps generalizing w stored with
  | nil => exact ⟨⟨stored, h⟩, fun _ _ hheld => hheld⟩
  | cons s rest ih =>
    obtain ⟨hhere, hrest⟩ := List.append_subset.mp hcontents
    have hfreeAddress := Storage.collisionFree_address store hfree
    rcases @step_effect store _ _ s fun content hcontent held =>
      h.sound (hhere hcontent) with hsame | ⟨content, hcontent, outcome, heffect⟩
    · have hnext := h
      rw [← hsame] at hnext
      obtain ⟨hlater, hkept⟩ := ih hnext hrest
      exact ⟨hlater, fun path held hheld => hkept path held (by rw [hsame, hheld])⟩
    · obtain ⟨hlater, hkept⟩ := ih (h.step hfreeAddress (hhere hcontent) heffect) hrest
      exact ⟨hlater, fun path held hheld => hkept path held (heffect.keeps hheld)⟩

def exitCode (store : LocalFsObjectStore) (zone : Zone) (key : Text) (w : AnchorWorld) : ℕ :=
  verifyChain store zone ⟨true, true⟩ ⟨.anchorStoreKey key, false⟩ w

/-- What an anchored roll is worth later, whatever has been done to the database: its key
reads back its root, the command compares with that root, it accepts the history as it was at
the roll, and what it accepts is that history. -/
structure Anchored (store : LocalFsObjectStore) (rolled later : AnchorWorld)
    (receipt : AnchorReceipt) : Prop where
  root : receipt.root = rolled.root
  fetched : (fetchFromAnchorStore store receipt.witnessReference later.disk).1 =
    .returned rolled.root
  verdict : ∀ zone, exitCode store zone receipt.witnessReference later =
    if (verifyAgainstAnchor zone later.db.audit (some rolled.root)).ok then 0 else 1
  accepts : ∀ zone, later.db.audit.entries = rolled.db.audit.entries →
    (∀ shardId ∈ shardIds, (chainFormat zone).Linked none
      (rolled.db.audit.entries.walk shardId)) →
    exitCode store zone receipt.witnessReference later = 0
  pins : ∀ y z, (∀ shardId ∈ shardIds, (chainFormat y).Linked none
      (rolled.db.audit.entries.walk shardId)) →
    CollisionFree Sha256.hexdigest
      (reportMaterials z later.db.audit.entries ++ reportMaterials y rolled.db.audit.entries) →
    exitCode store z receipt.witnessReference later = 0 →
    ∀ shardId ∈ shardIds, walkTriples z later.db.audit.entries shardId =
      walkTriples y rolled.db.audit.entries shardId

theorem exitCode_eq {key : Text} {root : Text} (zone : Zone)
    (hfetched : (fetchFromAnchorStore store key w.disk).1 = .returned root) :
    exitCode store zone key w =
      if (verifyAgainstAnchor zone w.db.audit (some root)).ok then 0 else 1 := by
  have htrusted : (trustedRoot store ⟨.anchorStoreKey key, false⟩ w.disk).1 = .returned (some root) := by
    cases hfetch : fetchFromAnchorStore store key w.disk with
    | mk exit disk =>
      rw [hfetch] at hfetched
      obtain rfl : exit = .returned root := hfetched
      simp only [trustedRoot, Bool.false_eq_true, if_false]
      rw [bind_returned hfetch]
      rfl
  unfold exitCode verifyChain
  rw [htrusted]
  rfl

theorem Anchored.of_fetched {rolled later : AnchorWorld} {receipt : AnchorReceipt}
    (hroot : receipt.root = rolled.root)
    (hfetched : (fetchFromAnchorStore store receipt.witnessReference later.disk).1 =
      .returned rolled.root) : Anchored store rolled later receipt := by
  have hverdict := fun zone => @exitCode_eq store later _ _ zone hfetched
  refine ⟨hroot, hfetched, hverdict, fun zone hentries hlinked => ?_,
    fun y z hlinked hfree hzero => ?_⟩
  · have hok : (verifyAgainstAnchor zone later.db.audit (some rolled.root)).ok = true := by
      rw [report_ok_iff, hentries]
      exact ⟨hlinked, (rollGlobalRoot_fst _).symm⟩
    rw [hverdict, if_pos hok]
  · have hok : (verifyAgainstAnchor z later.db.audit (some rolled.root)).ok = true := by
      by_contra hnot
      rw [hverdict, if_neg hnot] at hzero
      exact Nat.one_ne_zero hzero
    exact walkTriples_eq_of_report hlinked hfree hok

theorem roll_receipt {call : RollCall} {receipt : AnchorReceipt}
    (hsound : ∀ held, w.disk (Storage.address store
      (anchorPayload signer w.root call.anchoredAt)) = some held →
        held = anchorPayload signer w.root call.anchoredAt)
    (hreceipt : (w.step store signer (.roll call)).db.receipts = w.db.receipts ++ [receipt]) :
    receipt.root = w.root ∧ (w.step store signer (.roll call)).disk
      (store.path receipt.witnessReference) = some (anchorPayload signer w.root call.anchoredAt) := by
  have hnew : (w.step store signer (.roll call)).db.receipts ≠ w.db.receipts := by
    rw [hreceipt]
    simp
  rcases roll_cases store signer w call with ⟨-, hsame⟩ | ⟨hdisk, hsame | ⟨result, hreturned, hrow⟩⟩
  · exact absurd hsame hnew
  · exact absurd hsame hnew
  · obtain ⟨heffect, hnamed⟩ := put_effect call.conditions hsound
    rw [hreturned] at heffect
    rw [hrow] at hreceipt
    obtain rfl := List.singleton_inj.mp (List.append_cancel_left hreceipt)
    rw [hdisk]
    have hreference : (receiptRow signer w call result.key).witnessReference =
        keyFor (digestOf (anchorPayload signer w.root call.anchoredAt)) := hnamed result hreturned
    have hroot : (receiptRow signer w call result.key).root = w.root := by rw [receiptRow]
    rw [hreference]
    exact ⟨hroot, heffect.held⟩

theorem AnchorWorld.runPayloads_append (w : AnchorWorld) (before after : List AnchorStep) :
    w.runPayloads store signer (before ++ after) = w.runPayloads store signer before ++
      (w.run store signer before).runPayloads store signer after := by
  induction before generalizing w with
  | nil => rfl
  | cons s rest ih =>
    rw [List.cons_append, runPayloads, runPayloads, ih, List.append_assoc]
    rfl

/-- Whatever rolls, failures of the anchor store and changes to the database come before and
after it, a roll with a receipt pins the history behind it. -/
theorem anchored_roll_pins (store : LocalFsObjectStore) (signer : Option SignOnlyKeyHandle)
    {start : AnchorWorld} (hempty : ∀ content, start.disk (store.path (keyFor (digestOf content))) = none)
    (before : List AnchorStep) (call : RollCall) (after : List AnchorStep) {receipt : AnchorReceipt}
    (hreceipt : ((start.run store signer before).step store signer (.roll call)).db.receipts =
      (start.run store signer before).db.receipts ++ [receipt])
    (hfree : CollisionFree digestOf (start.runPayloads store signer (before ++ .roll call :: after))) :
    Anchored store (start.run store signer before)
      (((start.run store signer before).step store signer (.roll call)).run store signer after)
      receipt := by
  rw [AnchorWorld.runPayloads_append, AnchorWorld.runPayloads] at hfree
  obtain ⟨⟨stored, hbefore⟩, -⟩ := @run_represents store signer start _ _ hfree before
    (represents_empty (Storage.address store) hempty) (List.subset_append_left _ _)
  have hcall : anchorPayload signer (start.run store signer before).root call.anchoredAt ∈
      start.runPayloads store signer before ++
        ((start.run store signer before).payloads signer (.roll call) ++
          ((start.run store signer before).step store signer (.roll call)).runPayloads store signer
            after) :=
    List.mem_append_right _ (List.mem_append_left _ List.mem_cons_self)
  obtain ⟨hroot, hheld⟩ := roll_receipt (fun held => hbefore.sound hcall) hreceipt
  obtain ⟨stored', hrolled⟩ : ∃ stored', Represents (Storage.address store) _
      ((start.run store signer before).step store signer (.roll call)).disk stored' :=
    (@run_represents store signer _ _ _ hfree [.roll call] hbefore (by
      rw [AnchorWorld.runPayloads, AnchorWorld.runPayloads, List.append_nil]
      exact List.subset_append_of_subset_right _ (List.subset_append_left _ _))).1
  obtain ⟨-, hkept⟩ := @run_represents store signer _ _ _ hfree after hrolled
    (List.subset_append_of_subset_right _ (List.subset_append_right _ _))
  refine Anchored.of_fetched hroot ?_
  have hbar : '|' ∉ (start.run store signer before).root := by
    intro hmem
    rw [AnchorWorld.root, rollGlobalRoot_fst] at hmem
    exact absurd (computeRoot_mem hmem) (by decide)
  rw [fetch_payload hbar (hkept _ _ hheld)]

def sampleRoll : RollCall where
  chainRootId := "root-1".toList
  rolledAt := newYear 7
  anchoredAt := newYear 7
  anchor := true
  conditions := { names := ["a".toList] }
  commits := true

def emptyWorld : AnchorWorld := ⟨⟨⟨.empty, []⟩, []⟩, fun _ => none⟩

def ingestedWorld : AnchorWorld :=
  emptyWorld.run Storage.sampleStore none [.append (pageIngested "a" 5)]

def sampleReceipt : AnchorReceipt :=
  receiptRow none ingestedWorld sampleRoll
    (keyFor (digestOf (anchorPayload none ingestedWorld.root sampleRoll.anchoredAt)))

/-- The whole database is replaced after the roll. -/
theorem anchored_roll_pins_replaced : Anchored Storage.sampleStore ingestedWorld
    ((ingestedWorld.step Storage.sampleStore none (.roll sampleRoll)).run Storage.sampleStore none
      [.rewrite emptyWorld.db]) sampleReceipt := by
  have hreceipt : (ingestedWorld.step Storage.sampleStore none (.roll sampleRoll)).db.receipts =
      ingestedWorld.db.receipts ++ [sampleReceipt] := by decide +kernel
  apply @anchored_roll_pins Storage.sampleStore none emptyWorld (fun _ => rfl)
    [.append (pageIngested "a" 5)] sampleRoll [.rewrite emptyWorld.db] _ hreceipt
  · exact collisionFree_of_nodup (by decide +kernel)

end Guarantee

end LandRecords.Audit
