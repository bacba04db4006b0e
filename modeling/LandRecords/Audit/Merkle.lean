import LandRecords.Audit.History
import LandRecords.Base.MerkleTree

/-! The global root: a Merkle tree over the heads of the shards. Where SHA-256
has no collision on the strings hashed, the root determines every head. -/
namespace LandRecords.Audit

open Text

structure ShardHeadRecord where
  shardId : Int
  /-- `none` for a shard without entries. -/
  headHash : Option Text
deriving DecidableEq

/-- The string that `_leaf_hash` hashes. -/
def leafText (head : ShardHeadRecord) : Text :=
  intText head.shardId ++ ":".toList ++ orEmpty head.headHash

def leafHash (head : ShardHeadRecord) : Text := Sha256.hexdigest (leafText head)

def pairHash (left right : Text) : Text := Sha256.hexdigest (left ++ right)

def merkleRoot (leaves : List Text) : Text :=
  (MerkleTree.root pairHash leaves).getD (Sha256.hexdigest [])

/-- `range(NUM_SHARDS)`. -/
def shardIds : List Int := (List.range numShards).map Int.ofNat

def AuditTable.head (table : AuditTable) (shardId : Int) : Option Text :=
  (latest AuditEntry.chainKey (table.shard shardId)).map AuditEntry.hash

def currentShardHeads (table : AuditTable) : List ShardHeadRecord :=
  shardIds.map fun shardId => ⟨shardId, table.head shardId⟩

def headLeaves (heads : List ShardHeadRecord) : List Text :=
  (orderBy ShardHeadRecord.shardId heads).map leafHash

def computeRoot (heads : List ShardHeadRecord) : Text := merkleRoot (headLeaves heads)

def rollGlobalRoot (table : AuditTable) : Text × List ShardHeadRecord :=
  let heads := currentShardHeads table
  (computeRoot heads, heads)

@[simp] theorem rollGlobalRoot_fst (table : AuditTable) :
    (rollGlobalRoot table).1 = computeRoot (currentShardHeads table) := by
  rw [rollGlobalRoot]

def rootMaterials (heads : List ShardHeadRecord) : List Text :=
  (orderBy ShardHeadRecord.shardId heads).map leafText ++
    (MerkleTree.inputs pairHash (headLeaves heads).length (headLeaves heads)).map fun p =>
      p.1 ++ p.2

theorem length_headLeaves (heads : List ShardHeadRecord) :
    (headLeaves heads).length = heads.length := by
  rw [headLeaves, List.length_map, (orderBy_perm _ heads).length_eq]

def hashedPairs (heads heads' : List ShardHeadRecord) : List (Text × Text) :=
  MerkleTree.inputs pairHash (headLeaves heads).length (headLeaves heads) ++
    MerkleTree.inputs pairHash (headLeaves heads').length (headLeaves heads')

theorem length_fst_of_mem_inputs {heads : List ShardHeadRecord} {fuel : Nat} :
    ∀ p ∈ MerkleTree.inputs pairHash fuel (headLeaves heads), p.1.length = 64 := by
  intro p hp
  refine (MerkleTree.inputs_forall (P := fun d : Text => d.length = 64) ?_ ?_ p hp).1
  · intro left right
    exact Sha256.length_hexdigest _
  · intro d hd
    obtain ⟨head, -, rfl⟩ := List.mem_map.mp hd
    exact Sha256.length_hexdigest _

theorem length_fst_of_mem_hashedPairs {heads heads' : List ShardHeadRecord} {p : Text × Text}
    (hp : p ∈ hashedPairs heads heads') : p.1.length = 64 := by
  rcases List.mem_append.mp hp with hp | hp
  · exact length_fst_of_mem_inputs p hp
  · exact length_fst_of_mem_inputs p hp

theorem join_mem_rootMaterials {heads heads' : List ShardHeadRecord} {p : Text × Text}
    (hp : p ∈ hashedPairs heads heads') :
    p.1 ++ p.2 ∈ rootMaterials heads ++ rootMaterials heads' := by
  rcases List.mem_append.mp hp with hp | hp
  · exact List.mem_append_left _ (List.mem_append_right _ (List.mem_map.mpr ⟨p, hp, rfl⟩))
  · exact List.mem_append_right _ (List.mem_append_right _ (List.mem_map.mpr ⟨p, hp, rfl⟩))

theorem merkleRoot_eq {leaves : List Text} (h : leaves ≠ []) :
    MerkleTree.root pairHash leaves = some (merkleRoot leaves) := by
  have hsome : (MerkleTree.root pairHash leaves).isSome := MerkleTree.root_isSome h
  obtain ⟨d, hd⟩ := Option.isSome_iff_exists.mp hsome
  rw [merkleRoot, hd]
  rfl

theorem headLeaves_eq {heads heads' : List ShardHeadRecord} (hlength : heads.length = heads'.length)
    (hfree : CollisionFree Sha256.hexdigest (rootMaterials heads ++ rootMaterials heads'))
    (hroot : computeRoot heads = computeRoot heads') : headLeaves heads = headLeaves heads' := by
  have hleaves : (headLeaves heads).length = (headLeaves heads').length := by
    rw [length_headLeaves, length_headLeaves, hlength]
  by_cases hnil : headLeaves heads = []
  · rw [hnil] at hleaves ⊢
    exact (List.length_eq_zero_iff.mp hleaves.symm).symm
  · have hnil' : headLeaves heads' ≠ [] := by
      intro hempty
      rw [hempty] at hleaves
      exact hnil (List.length_eq_zero_iff.mp hleaves)
    have hpairs : CollisionFree (fun p : Text × Text => pairHash p.1 p.2)
        (hashedPairs heads heads') := by
      intro p hp q hq hpq
      have hjoined := hfree (join_mem_rootMaterials hp) (join_mem_rootMaterials hq) hpq
      have hwidth : p.1.length = q.1.length := by
        rw [length_fst_of_mem_hashedPairs hp, length_fst_of_mem_hashedPairs hq]
      have hparts := List.append_inj hjoined hwidth
      exact Prod.ext hparts.1 hparts.2
    apply MerkleTree.root_inj hleaves hpairs
    rw [merkleRoot_eq hnil, merkleRoot_eq hnil']
    exact congrArg some hroot

theorem orderBy_currentShardHeads (table : AuditTable) :
    orderBy ShardHeadRecord.shardId (currentShardHeads table) = currentShardHeads table := by
  apply orderBy_of_increasing
  rw [currentShardHeads, List.pairwise_map, shardIds, List.pairwise_map]
  exact List.pairwise_lt_range.imp Int.ofNat_lt.mpr

/-- The root pins the head of every shard. -/
theorem head_eq_of_root_eq {table table' : AuditTable}
    (hfree : CollisionFree Sha256.hexdigest
      (rootMaterials (currentShardHeads table) ++ rootMaterials (currentShardHeads table')))
    (hroot : computeRoot (currentShardHeads table) = computeRoot (currentShardHeads table')) :
    ∀ shardId ∈ shardIds, orEmpty (table.head shardId) = orEmpty (table'.head shardId) := by
  intro shardId hshard
  have hleaves := headLeaves_eq (by simp [currentShardHeads]) hfree hroot
  have hsub : (currentShardHeads table).map leafText ++ (currentShardHeads table').map leafText ⊆
      rootMaterials (currentShardHeads table) ++ rootMaterials (currentShardHeads table') := by
    intro m hm
    rw [rootMaterials, rootMaterials, orderBy_currentShardHeads, orderBy_currentShardHeads]
    rcases List.mem_append.mp hm with hm | hm
    · exact List.mem_append_left _ (List.mem_append_left _ hm)
    · exact List.mem_append_right _ (List.mem_append_left _ hm)
  have htexts : (currentShardHeads table).map leafText = (currentShardHeads table').map leafText := by
    apply (hfree.mono hsub).map_eq
    rw [headLeaves, headLeaves, orderBy_currentShardHeads, orderBy_currentShardHeads] at hleaves
    rw [List.map_map, List.map_map]
    exact hleaves
  rw [currentShardHeads, currentShardHeads, List.map_map, List.map_map,
    List.map_inj_left] at htexts
  exact List.append_cancel_left (htexts shardId hshard)

end LandRecords.Audit
