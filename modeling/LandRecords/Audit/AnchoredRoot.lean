import LandRecords.Audit.Verify

/-! What a report against an anchored root says about the history behind the
root: which histories the root pins, and after which appends the report still
agrees with it. -/
namespace LandRecords.Audit

open Datetime Text

def walkTriples (zone : Zone) (table : AuditTable) (shardId : Int) :
    List (Option Text × Text × Text) :=
  (table.walk shardId).map fun entry => (entry.prevHash, storedMaterial zone entry, entry.hash)

/-- The strings hashed by the appends of a history to the rolled shards. -/
def historyMaterials (calls : List AppendCall) : List Text :=
  shardIds.flatMap (appendMaterials calls)

/-- The strings hashed by a report. -/
def reportMaterials (zone : Zone) (table : AuditTable) : List Text :=
  shardIds.flatMap (verifyMaterials zone table) ++ rootMaterials (currentShardHeads table)

theorem walkTriples_eq_trace {zone : Zone} {table : AuditTable} {shardId : Int}
    (h : (chainFormat zone).Linked none (table.walk shardId)) :
    walkTriples zone table shardId =
      zonedFormat.trace none ((table.walk shardId).map fun entry => (zone, entry)) := by
  rw [← ChainFormat.trace_comap]
  exact h.trace_eq_map.symm

theorem AuditTable.head_eq_tip (table : AuditTable) (zone : Zone) (shardId : Int) :
    table.head shardId = (chainFormat zone).tip none (table.walk shardId) := by
  rw [ChainFormat.tip_eq_getLast?, AuditTable.head, AuditTable.walk,
    latest_eq_getLast? (table.nodup_chainKey shardId)]
  rfl

theorem walkTriples_eq {y z : Zone} {table table' : AuditTable} {shardId : Int}
    (h : (chainFormat y).Linked none (table.walk shardId))
    (h' : (chainFormat z).Linked none (table'.walk shardId))
    (hfree : CollisionFree Sha256.hexdigest
      (verifyMaterials y table shardId ++ verifyMaterials z table' shardId))
    (hhead : orEmpty (table.head shardId) = orEmpty (table'.head shardId)) :
    walkTriples y table shardId = walkTriples z table' shardId := by
  rw [table.head_eq_tip y, table'.head_eq_tip z] at hhead
  have htip := eq_of_orEmpty_eq h.tip_mem_range h'.tip_mem_range hhead
  rw [walkTriples_eq_trace h, walkTriples_eq_trace h']
  apply (ChainFormat.linked_comap _).mp h |>.trace_eq ((ChainFormat.linked_comap _).mp h')
  · rw [← ChainFormat.materials_comap, ← ChainFormat.materials_comap]
    exact hfree
  · rw [← ChainFormat.tip_comap, ← ChainFormat.tip_comap]
    exact htip

theorem length_walkTriples (zone : Zone) (table : AuditTable) (shardId : Int) :
    (walkTriples zone table shardId).length = (table.shard shardId).length := by
  rw [walkTriples, List.length_map, AuditTable.walk, (orderBy_perm _ _).length_eq]

private theorem append_subset_append {ms ns ms' ns' : List Text} (h : ms ⊆ ms') (h' : ns ⊆ ns') :
    ms ++ ns ⊆ ms' ++ ns' :=
  List.append_subset.mpr
    ⟨List.subset_append_of_subset_left _ h, List.subset_append_of_subset_right _ h'⟩

theorem verifyMaterials_subset {zone : Zone} {table : AuditTable} {shardId : Int}
    (hshard : shardId ∈ shardIds) :
    verifyMaterials zone table shardId ⊆ reportMaterials zone table := by
  intro m hm
  rw [reportMaterials]
  exact List.mem_append_left _ (List.mem_flatMap.mpr ⟨shardId, hshard, hm⟩)

theorem rootMaterials_subset (zone : Zone) (table : AuditTable) :
    rootMaterials (currentShardHeads table) ⊆ reportMaterials zone table := by
  rw [reportMaterials]
  exact List.subset_append_right _ _

/-- A root that was rolled over a table pins the walks of every accepted table
that has it. -/
theorem walkTriples_eq_of_report {y z : Zone} {table : AuditTable} {db : AuditDatabase}
    (htable : ∀ shardId ∈ shardIds, (chainFormat y).Linked none (table.walk shardId))
    (hfree : CollisionFree Sha256.hexdigest (reportMaterials z db.entries ++ reportMaterials y table))
    (hreport : (verifyAgainstAnchor z db (some (rollGlobalRoot table).1)).ok = true) :
    ∀ shardId ∈ shardIds, walkTriples z db.entries shardId = walkTriples y table shardId := by
  intro shardId hshard
  rw [report_ok_iff, rollGlobalRoot_fst] at hreport
  have hroots := hfree.mono (append_subset_append (rootMaterials_subset z db.entries)
    (rootMaterials_subset y table))
  have hwalks := hfree.mono (append_subset_append
    (verifyMaterials_subset hshard) (verifyMaterials_subset hshard))
  have hhead := head_eq_of_root_eq hroots hreport.2 shardId hshard
  exact walkTriples_eq (hreport.1 shardId hshard) (htable shardId hshard) hwalks hhead

/-- Whatever the later content of the database, a report that agrees with a root
rolled over the history shows the shards as they were at the roll. -/
def Pinned (calls : List AppendCall) : Prop :=
  ∀ (roots : List ChainRoot) (id : Text) (rolledAt : Instant) (configVersion : Option Text)
    (zone : Zone) (later : AuditDatabase),
    CollisionFree Sha256.hexdigest
      (historyMaterials calls ++ rootMaterials (currentShardHeads (history calls)) ++
        reportMaterials zone later.entries) →
    (verifyAgainstAnchor zone later
      (some (performRoll ⟨history calls, roots⟩ id rolledAt configVersion).1.root)).ok = true →
    ∀ shardId ∈ shardIds,
      walkTriples zone later.entries shardId = walkTriples utc (history calls) shardId

@[simp] theorem performRoll_root (db : AuditDatabase) (id : Text) (rolledAt : Instant)
    (configVersion : Option Text) :
    (performRoll db id rolledAt configVersion).1.root = (rollGlobalRoot db.entries).1 := by
  rw [performRoll]

theorem verifyMaterials_history {calls : List AppendCall} {shardId : Int}
    (hids : (calls.map AppendCall.id).Nodup) (horder : InOrder shardId calls) :
    verifyMaterials utc (history calls) shardId ⊆ appendMaterials calls shardId := by
  have hwalk := horder.walk hids
  rw [verifyMaterials, hwalk.1]
  exact hwalk.2.materials_perm (List.Perm.refl _)

theorem reportMaterials_history {calls : List AppendCall} (hids : (calls.map AppendCall.id).Nodup)
    (horder : ∀ shardId ∈ shardIds, InOrder shardId calls) :
    reportMaterials utc (history calls) ⊆
      historyMaterials calls ++ rootMaterials (currentShardHeads (history calls)) := by
  rw [reportMaterials, historyMaterials]
  apply append_subset_append _ (List.Subset.refl _)
  intro m hm
  obtain ⟨shardId, hshard, hmem⟩ := List.mem_flatMap.mp hm
  exact List.mem_flatMap.mpr
    ⟨shardId, hshard, verifyMaterials_history hids (horder shardId hshard) hmem⟩

theorem pinned_of_inOrder {calls : List AppendCall} (hids : (calls.map AppendCall.id).Nodup)
    (horder : ∀ shardId ∈ shardIds, InOrder shardId calls) : Pinned calls := by
  intro roots id rolledAt configVersion zone later hfree hreport
  rw [performRoll_root] at hreport
  refine walkTriples_eq_of_report (fun shardId hshard => ?_) (hfree.mono ?_) hreport
  · have hwalk := (horder shardId hshard).walk hids
    rw [hwalk.1]
    exact hwalk.2
  · exact List.append_subset.mpr ⟨List.subset_append_right _ _,
      List.Subset.trans (reportMaterials_history hids horder) (List.subset_append_left _ _)⟩

def recordsTable (table : AuditTable) : AuditTable where
  rows := table.rows.filter fun entry =>
    entry ∈ ChainFormat.records AuditEntry.chainKey (table.shard entry.shardId)
  unique := table.unique.sublist (List.filter_sublist.map _)

theorem AuditTable.nodup_shard (table : AuditTable) (shardId : Int) : (table.shard shardId).Nodup :=
  List.Nodup.of_map _ (table.nodup_chainKey shardId)

theorem recordsTable_shard (table : AuditTable) (shardId : Int) :
    (recordsTable table).shard shardId =
      ChainFormat.records AuditEntry.chainKey (table.shard shardId) := by
  have hsublist : (ChainFormat.records AuditEntry.chainKey (table.shard shardId)).Sublist
      (table.shard shardId) := ChainFormat.records_sublist _
  rw [← filter_mem_of_sublist hsublist (table.nodup_shard shardId), AuditTable.shard, recordsTable,
    List.filter_filter, AuditTable.shard, List.filter_filter]
  apply List.filter_congr
  intro entry _
  by_cases hshard : entry.shardId = shardId
  · simp [hshard, AuditTable.shard]
  · simp [hshard]

theorem recordsTable_heads (table : AuditTable) :
    currentShardHeads (recordsTable table) = currentShardHeads table := by
  apply List.map_congr_left
  intro shardId _
  have hrecords : (ChainFormat.records AuditEntry.chainKey (table.shard shardId)).Pairwise
      fun a b => a.chainKey < b.chainKey := ChainFormat.records_increasing _
  rw [AuditTable.head, recordsTable_shard, latest_of_increasing hrecords,
    ChainFormat.records_getLast? (table.nodup_chainKey shardId)]
  rfl

theorem recordsTable_walk (table : AuditTable) (shardId : Int) :
    (recordsTable table).walk shardId =
      ChainFormat.records AuditEntry.chainKey (table.shard shardId) := by
  rw [AuditTable.walk, recordsTable_shard]
  exact orderBy_of_increasing (ChainFormat.records_increasing _)

theorem recordsTable_linked {calls : List AppendCall} (shardId : Int)
    (hids : (calls.map AppendCall.id).Nodup) :
    (chainFormat utc).Linked none ((recordsTable (history calls)).walk shardId) := by
  rw [recordsTable_walk]
  exact (history_appended shardId hids).records_linked (AuditTable.nodup_chainKey _ _)

theorem reportMaterials_recordsTable {calls : List AppendCall}
    (hids : (calls.map AppendCall.id).Nodup) :
    reportMaterials utc (recordsTable (history calls)) ⊆
      historyMaterials calls ++ rootMaterials (currentShardHeads (history calls)) := by
  rw [reportMaterials, historyMaterials, recordsTable_heads]
  apply append_subset_append _ (List.Subset.refl _)
  intro m hm
  obtain ⟨shardId, hshard, hmem⟩ := List.mem_flatMap.mp hm
  rw [verifyMaterials, (recordsTable_linked shardId hids).materials_eq_map, recordsTable_walk] at hmem
  exact List.mem_flatMap.mpr
    ⟨shardId, hshard, List.map_subset _ (ChainFormat.records_sublist _).subset hmem⟩

/-- If a root pins a history, the clock left no row of it behind. -/
theorem inOrder_of_pinned {calls : List AppendCall} (hids : (calls.map AppendCall.id).Nodup)
    (hfree : CollisionFree Sha256.hexdigest
      (historyMaterials calls ++ rootMaterials (currentShardHeads (history calls))))
    (hpinned : Pinned calls) : ∀ shardId ∈ shardIds, InOrder shardId calls := by
  intro shardId hshard
  have hreport : (verifyAgainstAnchor utc ⟨recordsTable (history calls), []⟩
      (some (performRoll ⟨history calls, []⟩ [] (newYear 0) none).1.root)).ok = true := by
    rw [report_ok_iff, performRoll_root, rollGlobalRoot_fst, recordsTable_heads]
    exact ⟨fun shardId _ => recordsTable_linked shardId hids, rfl⟩
  have htriples := hpinned [] [] (newYear 0) none utc ⟨recordsTable (history calls), []⟩
    (hfree.mono (List.append_subset.mpr
      ⟨List.Subset.refl _, reportMaterials_recordsTable hids⟩)) hreport shardId hshard
  have hlength := congrArg List.length htriples
  rw [length_walkTriples, length_walkTriples, recordsTable_shard] at hlength
  have hsublist : (ChainFormat.records AuditEntry.chainKey ((history calls).shard shardId)).Sublist
      ((history calls).shard shardId) := ChainFormat.records_sublist _
  rw [inOrder_iff hids, ← hsublist.eq_of_length hlength]
  exact ChainFormat.records_increasing _

/-- A roll pins its history exactly when every rolled shard was appended to in
the order of the clock readings and ids. -/
theorem pinned_iff_inOrder {calls : List AppendCall} (hids : (calls.map AppendCall.id).Nodup)
    (hfree : CollisionFree Sha256.hexdigest
      (historyMaterials calls ++ rootMaterials (currentShardHeads (history calls)))) :
    Pinned calls ↔ ∀ shardId ∈ shardIds, InOrder shardId calls :=
  ⟨inOrder_of_pinned hids hfree, pinned_of_inOrder hids⟩

theorem appendMaterials_mono {calls later : List AppendCall} (shardId : Int)
    (hids : ((calls ++ later).map AppendCall.id).Nodup) :
    appendMaterials calls shardId ⊆ appendMaterials (calls ++ later) shardId :=
  List.map_subset _ (history_shard_initial shardId hids).subset

def steadyClock : List AppendCall := [pageIngested "a" 5, pageIngested "b" 9]

def clockStepsBack : List AppendCall := [pageIngested "a" 5, pageIngested "b" 9, pageIngested "c" 7]

theorem clockStepsBack_collisionFree :
    CollisionFree Sha256.hexdigest
      (historyMaterials clockStepsBack ++ rootMaterials (currentShardHeads (history clockStepsBack))) := by
  have hnodup : ((historyMaterials clockStepsBack ++
      rootMaterials (currentShardHeads (history clockStepsBack))).map Sha256.hexdigest).Nodup := by
    decide +kernel
  exact collisionFree_of_nodup hnodup

theorem steadyClock_heads :
    currentShardHeads (history steadyClock) = currentShardHeads (history clockStepsBack) := by
  decide +kernel

theorem steadyClock_materials : historyMaterials steadyClock ⊆ historyMaterials clockStepsBack := by
  have hids : ((steadyClock ++ [pageIngested "c" 7]).map AppendCall.id).Nodup := by decide
  intro m hm
  obtain ⟨shardId, hshard, hmem⟩ := List.mem_flatMap.mp hm
  exact List.mem_flatMap.mpr ⟨shardId, hshard, appendMaterials_mono shardId hids hmem⟩

theorem steadyClock_pinned : Pinned steadyClock := by
  have horder : ∀ shardId ∈ shardIds, InOrder shardId steadyClock := by decide +kernel
  have hfree : CollisionFree Sha256.hexdigest
      (historyMaterials steadyClock ++ rootMaterials (currentShardHeads (history steadyClock))) := by
    rw [steadyClock_heads]
    exact clockStepsBack_collisionFree.mono
      (append_subset_append steadyClock_materials (List.Subset.refl _))
  exact (pinned_iff_inOrder (by decide) hfree).mpr horder

/-- After a clock that steps back, deleting the last entry leaves the report ok. -/
theorem deleted_entry_accepted :
    CollisionFree Sha256.hexdigest (historyMaterials clockStepsBack ++
        rootMaterials (currentShardHeads (history clockStepsBack)) ++
        reportMaterials utc (history steadyClock)) ∧
      (verifyAgainstAnchor utc ⟨history steadyClock, []⟩ (some (performRoll
        ⟨history clockStepsBack, []⟩ "root-1".toList (newYear 10) none).1.root)).ok = true ∧
      walkTriples utc (history steadyClock) 1 ≠ walkTriples utc (history clockStepsBack) 1 := by
  have hids : (steadyClock.map AppendCall.id).Nodup := by decide
  have horder : ∀ shardId ∈ shardIds, InOrder shardId steadyClock := by decide +kernel
  refine ⟨clockStepsBack_collisionFree.mono (List.append_subset.mpr
    ⟨List.Subset.refl _, ?_⟩), ?_, ?_⟩
  · rw [← steadyClock_heads]
    exact List.Subset.trans (reportMaterials_history hids horder)
      (append_subset_append steadyClock_materials (List.Subset.refl _))
  · rw [report_ok_iff, performRoll_root, rollGlobalRoot_fst]
    refine ⟨fun shardId hshard => ?_, congrArg computeRoot steadyClock_heads⟩
    have hwalk := (horder shardId hshard).walk hids
    rw [hwalk.1]
    exact hwalk.2
  · intro htriples
    have hlength := congrArg List.length htriples
    rw [length_walkTriples, length_walkTriples] at hlength
    revert hlength
    decide +kernel

/-- The appends after a roll keep the rolled heads: none of them goes to a shard
of the tree. -/
def LeavesHeads (later : List AppendCall) : Prop :=
  ∀ call ∈ later, call.args.resolvedShard ∉ shardIds

/-- The session reads every instant stored in the rolled shards at offset zero. -/
def ReadsUtc (zone : Zone) (table : AuditTable) : Prop :=
  ∀ shardId ∈ shardIds, ∀ entry ∈ table.shard shardId, zone.offset entry.atInstant = 0

theorem length_history_shard {calls : List AppendCall} (shardId : Int)
    (hids : (calls.map AppendCall.id).Nodup) :
    ((history calls).shard shardId).length = (callsTo shardId calls).length := by
  have hlength := congrArg List.length (history_chainKeys shardId hids)
  rwa [List.length_map, List.length_map] at hlength

theorem heads_of_leavesHeads {calls later : List AppendCall}
    (hids : ((calls ++ later).map AppendCall.id).Nodup) (hleaves : LeavesHeads later) :
    currentShardHeads (history (calls ++ later)) = currentShardHeads (history calls) := by
  apply List.map_congr_left
  intro shardId hshard
  have hsame : (history (calls ++ later)).shard shardId = (history calls).shard shardId :=
    history_shard_of_elsewhere hids fun call hcall hto => hleaves call hcall (hto ▸ hshard)
  rw [AuditTable.head, AuditTable.head, hsame]

theorem report_ok_of_leavesHeads {calls later : List AppendCall} {zone : Zone}
    (roots : List ChainRoot) (hids : ((calls ++ later).map AppendCall.id).Nodup)
    (horder : ∀ shardId ∈ shardIds, InOrder shardId (calls ++ later)) (hleaves : LeavesHeads later)
    (hutc : ReadsUtc zone (history (calls ++ later))) :
    (verifyAgainstAnchor zone ⟨history (calls ++ later), roots⟩
      (some (rollGlobalRoot (history calls)).1)).ok = true := by
  rw [report_ok_iff, rollGlobalRoot_fst, heads_of_leavesHeads hids hleaves]
  refine ⟨fun shardId hshard => ?_, rfl⟩
  have hwalk := (horder shardId hshard).walk hids
  rw [hwalk.1]
  exact linked_congr (fun entry hentry => (hutc shardId hshard entry hentry).symm) hwalk.2

theorem leavesHeads_of_report_ok {calls later : List AppendCall} {zone : Zone}
    {roots : List ChainRoot} (hids : ((calls ++ later).map AppendCall.id).Nodup)
    (horder : ∀ shardId ∈ shardIds, InOrder shardId (calls ++ later))
    (hfree : CollisionFree Sha256.hexdigest (historyMaterials (calls ++ later) ++
      rootMaterials (currentShardHeads (history calls)) ++
        reportMaterials zone (history (calls ++ later))))
    (hreport : (verifyAgainstAnchor zone ⟨history (calls ++ later), roots⟩
      (some (rollGlobalRoot (history calls)).1)).ok = true) :
    LeavesHeads later ∧ ReadsUtc zone (history (calls ++ later)) := by
  have hcallIds : (calls.map AppendCall.id).Nodup := by
    rw [List.map_append, List.nodup_append] at hids
    exact hids.1
  have hcallOrder : ∀ shardId ∈ shardIds, InOrder shardId calls := fun shardId hshard =>
    (horder shardId hshard).of_initial (List.prefix_append _ _)
  have hgrown : historyMaterials calls ⊆ historyMaterials (calls ++ later) := by
    intro m hm
    obtain ⟨shardId, hshard, hmem⟩ := List.mem_flatMap.mp hm
    exact List.mem_flatMap.mpr ⟨shardId, hshard, appendMaterials_mono shardId hids hmem⟩
  have hrolled : reportMaterials utc (history calls) ⊆ historyMaterials (calls ++ later) ++
      rootMaterials (currentShardHeads (history calls)) :=
    List.Subset.trans (reportMaterials_history hcallIds hcallOrder)
      (append_subset_append hgrown (List.Subset.refl _))
  constructor
  · intro call hcall hshard
    have htriples := walkTriples_eq_of_report
      (fun shardId hshard => by
        rw [((hcallOrder shardId hshard).walk hcallIds).1]
        exact ((hcallOrder shardId hshard).walk hcallIds).2)
      (hfree.mono (List.append_subset.mpr ⟨List.subset_append_right _ _,
        List.Subset.trans hrolled (List.subset_append_left _ _)⟩)) hreport _ hshard
    have hlength := congrArg List.length htriples
    rw [length_walkTriples, length_walkTriples, length_history_shard _ hids,
      length_history_shard _ hcallIds, callsTo, callsTo, List.filter_append,
      List.length_append] at hlength
    have hmem : call ∈ later.filter fun other =>
        other.args.resolvedShard = call.args.resolvedShard :=
      List.mem_filter.mpr ⟨hcall, by simp⟩
    have hpos := List.length_pos_of_mem hmem
    omega
  · intro shardId hshard
    have hwalk := (horder shardId hshard).walk hids
    have hzone := (report_ok_iff.mp hreport).1 shardId hshard
    have hread : verifyMaterials zone (history (calls ++ later)) shardId ++
        verifyMaterials utc (history (calls ++ later)) shardId ⊆
          historyMaterials (calls ++ later) ++ rootMaterials (currentShardHeads (history calls)) ++
            reportMaterials zone (history (calls ++ later)) := by
      refine List.append_subset.mpr ⟨List.Subset.trans (verifyMaterials_subset hshard)
        (List.subset_append_right _ _), ?_⟩
      intro m hm
      exact List.mem_append_left _ (List.mem_append_left _ (List.mem_flatMap.mpr
        ⟨shardId, hshard, verifyMaterials_history hids (horder shardId hshard) hm⟩))
    have hmaterials := hfree.mono hread
    unfold verifyMaterials at hmaterials
    rw [hwalk.1] at hzone hmaterials
    exact offset_eq_of_linked hzone hwalk.2 hmaterials

/-- A report against the root of an earlier roll is ok when, and without a
SHA-256 collision only when, no later append went to a rolled shard and the
session reads at UTC. -/
theorem report_after_growth_ok_iff {calls later : List AppendCall} {zone : Zone}
    {db : AuditDatabase} {roots : List ChainRoot} {id : Text} {rolledAt : Instant}
    {configVersion : Option Text} (hdb : db.entries = history calls)
    (hids : ((calls ++ later).map AppendCall.id).Nodup)
    (horder : ∀ shardId ∈ shardIds, InOrder shardId (calls ++ later)) :
    (LeavesHeads later ∧ ReadsUtc zone (history (calls ++ later)) →
      (verifyAgainstAnchor zone ⟨history (calls ++ later), roots⟩
        (some (performRoll db id rolledAt configVersion).1.root)).ok = true) ∧
    (CollisionFree Sha256.hexdigest (historyMaterials (calls ++ later) ++
        rootMaterials (currentShardHeads (history calls)) ++
          reportMaterials zone (history (calls ++ later))) →
      ((verifyAgainstAnchor zone ⟨history (calls ++ later), roots⟩
          (some (performRoll db id rolledAt configVersion).1.root)).ok = true ↔
        LeavesHeads later ∧ ReadsUtc zone (history (calls ++ later)))) := by
  rw [performRoll_root, hdb]
  have hsufficient := fun h : LeavesHeads later ∧ ReadsUtc zone (history (calls ++ later)) =>
    report_ok_of_leavesHeads roots hids horder h.1 h.2
  exact ⟨hsufficient, fun hfree => ⟨leavesHeads_of_report_ok hids horder hfree, hsufficient⟩⟩

def outsideTree : AppendCall where
  id := "outside".toList
  now := newYear 9
  args := { actor := "system:ingest".toList, action := "page.ingested".toList, shardId := some 8 }

theorem growth_outside_tree_ok :
    (verifyAgainstAnchor utc ⟨history ([pageIngested "a" 5] ++ [outsideTree]), []⟩
      (some (performRoll ⟨history [pageIngested "a" 5], []⟩ "root-1".toList (newYear 7)
        none).1.root)).ok = true := by
  have horder : ∀ shardId ∈ shardIds, InOrder shardId ([pageIngested "a" 5] ++ [outsideTree]) := by
    decide +kernel
  have hleaves : ∀ call ∈ [outsideTree], call.args.resolvedShard ∉ shardIds := by decide +kernel
  exact (report_after_growth_ok_iff rfl (by decide) horder).1 ⟨hleaves, fun _ _ _ _ => rfl⟩

/-- One append to a rolled shard after the roll, and the untampered chain is
reported as not matching. -/
theorem growth_reported_as_tampering :
    (verifyAgainstAnchor utc ⟨history ([pageIngested "a" 5] ++ [pageIngested "b" 9]), []⟩
      (some (performRoll ⟨history [pageIngested "a" 5], []⟩ "root-1".toList (newYear 7)
        none).1.root)).ok = false := by
  decide +kernel

end LandRecords.Audit
