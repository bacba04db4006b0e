import LandRecords.Publication.Completeness

/-! Gaps that appear after an acknowledgement. The acknowledgement is one state of
the whole index, and a rebuild keeps it whatever the new gaps are. -/
namespace LandRecords.Publication

open Backend Audit Datetime Text

structure Volume where
  db : Database
  acknowledged : List Int

inductive VolumeStep
  | arrive (pageId : Text) (indexPosition : Int) (indexId : Text) (entry : Stamp)
  | acknowledge (actor : Text) (reasonCode : Option Text) (entry : Stamp)

/-- `record_index_position` followed by `rebuild`. -/
def arrive (batchId pageId : Text) (indexPosition : Int) (indexId : Text) (entry : Stamp) :
    Session VolumeIndex := do
  recordIndexPosition pageId indexPosition
  rebuild batchId indexId entry

def openGaps (db : Database) (batchId : Text) : List Int :=
  match volumeIndex? db batchId with
  | some row => if row.state = .gapDetected then row.gaps else []
  | none => []

def volumeStep (batchId : Text) (s : Volume) : VolumeStep → Option Volume
  | .arrive pageId indexPosition indexId entry =>
      (commit (arrive batchId pageId indexPosition indexId entry) s.db).map fun db =>
        { s with db := db }
  | .acknowledge actor reasonCode entry =>
      (commit (acknowledgeGap batchId actor reasonCode entry) s.db).map fun db =>
        ⟨db, s.acknowledged ++ openGaps s.db batchId⟩

/-- While the gate lets the batch pass, every missing position was acknowledged. -/
def GateSound (batchId : Text) (s : Volume) : Prop :=
  checkVolumeCompleteness s.db batchId = none →
    ∀ position, Missing s.db batchId position → position ∈ s.acknowledged

/-- A position that arrives at an acknowledged index leaves only gaps that were
acknowledged. -/
def NoNewGap (batchId : Text) (s : Volume) : VolumeStep → Prop
  | .arrive pageId indexPosition .. =>
      (volumeIndex? s.db batchId).map VolumeIndex.state = some .acknowledged →
        ∀ position ∈ gapsOf (observedPositions (withIndexPosition pageId indexPosition s.db) batchId),
          position ∈ s.acknowledged
  | .acknowledge .. => True

/-- The index is the one of the pages. -/
structure Indexed (batchId : Text) (db : Database) : Prop where
  unindexed : volumeIndex? db batchId = none → batchPositions db batchId = []
  gaps : ∀ row, volumeIndex? db batchId = some row →
    row.gaps = gapsOf (observedPositions db batchId)

def Accepted (batchId : Text) (s : Volume) : Prop :=
  ∀ row, volumeIndex? s.db batchId = some row → row.state = .acknowledged →
    ∀ position ∈ row.gaps, position ∈ s.acknowledged

section Steps

variable {db db' : Database} {batchId pageId indexId : Text} {indexPosition : Int} {entry : Stamp}

theorem gateSound_iff_accepted {s : Volume} (h : Indexed batchId s.db) :
    GateSound batchId s ↔ Accepted batchId s := by
  constructor
  · intro hsound row hrow hstate position hgap
    apply hsound
    · simp [checkVolumeCompleteness, currentAlert, hrow, hstate]
    · rw [h.gaps row hrow] at hgap
      exact mem_gapsOf.mp hgap
  · intro haccepted hpasses position hmissing
    cases hrow : volumeIndex? s.db batchId with
    | none =>
      obtain ⟨-, ⟨first, hfirst, -⟩, -⟩ := hmissing
      rw [h.unindexed hrow] at hfirst
      cases hfirst
    | some row =>
      have hgap := mem_gapsOf.mpr hmissing
      rw [← h.gaps row hrow] at hgap
      simp only [checkVolumeCompleteness, currentAlert, hrow, Option.map_eq_none_iff] at hpasses
      split at hpasses
      · rename_i hclosed
        rcases hclosed with hnil | hstate
        · rw [hnil] at hgap
          cases hgap
        · exact haccepted row hrow hstate position hgap
      · cases hpasses

theorem withIndexPosition_of_unknown (h : db.page? pageId = none) :
    withIndexPosition pageId indexPosition db = db := by
  have hpages : db.pages.map (fun page => if page.id = pageId then
      { page with indexPosition := some indexPosition } else page) = db.pages := by
    apply Rows.updateAt_of_notMem
    intro hknown
    obtain ⟨page, hpage, hid⟩ := List.mem_map.mp hknown
    have hother := List.find?_eq_none.mp h page hpage
    exact hother (decide_eq_true hid)
  unfold withIndexPosition
  rw [hpages]

theorem rebuild_raisesOnly : Fallible.RaisesOnly (· = Error.integrityError)
    (rebuild batchId indexId entry) := by
  apply Fallible.raisesOnly_bind (Fallible.raisesOnly_read _)
  intro observed
  apply Fallible.raisesOnly_bind
  · apply Fallible.raisesOnly_bind (Fallible.raisesOnly_read _)
    intro existing
    cases existing with
    | some row => exact Fallible.raisesOnly_pure _
    | none =>
      exact Fallible.raisesOnly_bind (addRow_raisesOnly _ _) fun _ => Fallible.raisesOnly_pure _
  · intro row
    apply Fallible.raisesOnly_bind (Fallible.raisesOnly_write _)
    intro _
    split
    · exact Fallible.raisesOnly_bind (auditAppend_raisesOnly _ _)
        fun _ => Fallible.raisesOnly_pure _
    · exact Fallible.raisesOnly_pure _

theorem arrive_cases (h : commit (arrive batchId pageId indexPosition indexId entry) db = some db') :
    (db' = db ∧ withIndexPosition pageId indexPosition db = db) ∨
      (volumeIndex? db' batchId = some (rebuiltRow
          (observedPositions (withIndexPosition pageId indexPosition db) batchId)
          (oldRow db batchId indexId)) ∧
        SamePositions (withIndexPosition pageId indexPosition db) db') := by
  cases hpage : db.page? pageId with
  | none =>
    refine .inl ⟨?_, withIndexPosition_of_unknown hpage⟩
    rcases commit_eq_some h with hunchanged | ⟨row, hrow⟩
    · exact hunchanged
    · rw [arrive, Fallible.bind_eq_returned] at hrow
      obtain ⟨_, _, hrecorded, -⟩ := hrow
      rw [recordIndexPosition, Fallible.read_bind, hpage] at hrecorded
      cases hrecorded
  | some page =>
    have hid : page.id = pageId := Rows.find?_key hpage
    have hrecorded : recordIndexPosition pageId indexPosition db =
        (.returned (), withIndexPosition pageId indexPosition db) := by
      rw [recordIndexPosition, Fallible.read_bind, hpage, ← hid]
      rfl
    have hcall : arrive batchId pageId indexPosition indexId entry db =
        (Fallible.write (withIndexPosition pageId indexPosition) >>= fun _ =>
          rebuild batchId indexId entry : Session VolumeIndex) db := by
      rw [arrive, Fallible.bind_returned hrecorded]
      rfl
    rw [commit_congr hcall] at h
    obtain ⟨row, hrow⟩ := commit_returned h
      (Fallible.raisesOnly_bind (Fallible.raisesOnly_write _) fun _ => rebuild_raisesOnly)
    rw [Fallible.write_bind] at hrow
    exact .inr (rebuild_returned hrow)

theorem Indexed.arrive (h : Indexed batchId db)
    (harrive : commit (arrive batchId pageId indexPosition indexId entry) db = some db') :
    Indexed batchId db' := by
  rcases arrive_cases harrive with ⟨rfl, -⟩ | ⟨hrow, hsame⟩
  · exact h
  · constructor
    · intro hnone
      rw [hrow] at hnone
      cases hnone
    · intro row hfound
      obtain rfl := Option.some.inj (hrow.symm.trans hfound)
      rw [hsame.observedPositions]
      rfl

theorem Indexed.acknowledge {actor : Text} {reasonCode : Option Text} (h : Indexed batchId db)
    (hack : commit (acknowledgeGap batchId actor reasonCode entry) db = some db') :
    Indexed batchId db' := by
  rcases commit_eq_some hack with rfl | ⟨row, hrow⟩
  · exact h
  · obtain ⟨old, hold, -, hnew, hsame⟩ := acknowledgeGap_returned hrow
    constructor
    · intro hnone
      rw [hnew] at hnone
      cases hnone
    · intro row hfound
      obtain rfl := Option.some.inj (hnew.symm.trans hfound)
      rw [hsame.observedPositions]
      exact h.gaps old hold

theorem rebuiltState_acknowledged {observed : List Int} {state : VolumeState} :
    rebuiltState observed state = .acknowledged ↔ gapsOf observed ≠ [] ∧ state = .acknowledged := by
  unfold rebuiltState
  split
  · split
    · simp_all
    · simp_all
  · split
    · simp_all
    · simp_all

theorem oldRow_acknowledged : (oldRow db batchId indexId).state = .acknowledged ↔
    (volumeIndex? db batchId).map VolumeIndex.state = some .acknowledged := by
  unfold oldRow
  cases volumeIndex? db batchId with
  | none => simp
  | some row => simp

/-- An arrival keeps every open gap accepted exactly when it leaves no new gap. -/
theorem accepted_arrive_iff {acknowledged : List Int} (h : Indexed batchId db)
    (haccepted : Accepted batchId ⟨db, acknowledged⟩)
    (harrive : commit (arrive batchId pageId indexPosition indexId entry) db = some db') :
    Accepted batchId ⟨db', acknowledged⟩ ↔
      NoNewGap batchId ⟨db, acknowledged⟩ (.arrive pageId indexPosition indexId entry) := by
  rcases arrive_cases harrive with ⟨rfl, hpages⟩ | ⟨hrow, -⟩
  · apply iff_of_true haccepted
    intro hstate position hgap
    obtain ⟨row, hfound, hrowState⟩ := Option.map_eq_some_iff.mp hstate
    dsimp only at hgap hfound
    rw [hpages, ← h.gaps row hfound] at hgap
    exact haccepted row hfound hrowState position hgap
  · have hiff : Accepted batchId ⟨db', acknowledged⟩ ↔
        ((rebuiltRow (observedPositions (withIndexPosition pageId indexPosition db) batchId)
          (oldRow db batchId indexId)).state = .acknowledged →
            ∀ position ∈ gapsOf (observedPositions (withIndexPosition pageId indexPosition db)
              batchId), position ∈ acknowledged) := by
      constructor
      · exact fun hall => hall _ hrow
      · intro hall row hfound
        obtain rfl := Option.some.inj (hrow.symm.trans hfound)
        exact hall
    rw [hiff]
    change (rebuiltState _ _ = .acknowledged → _) ↔ _
    rw [rebuiltState_acknowledged, oldRow_acknowledged]
    constructor
    · intro hall hstate position hgap
      exact hall ⟨List.ne_nil_of_mem hgap, hstate⟩ position hgap
    · intro hnew hstate
      exact hnew hstate.2

theorem accepted_acknowledge {actor : Text} {reasonCode : Option Text} {s : Volume}
    (haccepted : Accepted batchId s)
    (hack : commit (acknowledgeGap batchId actor reasonCode entry) s.db = some db') :
    Accepted batchId ⟨db', s.acknowledged ++ openGaps s.db batchId⟩ := by
  rcases commit_eq_some hack with rfl | ⟨row, hrow⟩
  · intro row hfound hstate position hgap
    exact List.mem_append_left _ (haccepted row hfound hstate position hgap)
  · obtain ⟨old, hold, hopen, hnew, -⟩ := acknowledgeGap_returned hrow
    intro row hfound _ position hgap
    obtain rfl := Option.some.inj (hnew.symm.trans hfound)
    apply List.mem_append_right
    simp only [openGaps, hold, hopen, if_true]
    exact hgap

end Steps

structure Unindexed (batchId : Text) (db : Database) : Prop where
  positions : batchPositions db batchId = []
  volumeIndex : volumeIndex? db batchId = none

theorem Unindexed.indexed {batchId : Text} {db : Database} (h : Unindexed batchId db) :
    Indexed batchId db := by
  constructor
  · exact fun _ => h.positions
  · intro row hrow
    rw [h.volumeIndex] at hrow
    cases hrow

/-- The gate lets only acknowledged gaps pass throughout a run exactly when no
arrival leaves a new gap in an acknowledged index. -/
theorem gate_sound_iff {batchId : Text} {db : Database} (h : Unindexed batchId db)
    (steps : List VolumeStep) :
    Runs.Throughout (volumeStep batchId) (GateSound batchId) ⟨db, []⟩ steps ↔
      Runs.AllSteps (volumeStep batchId) (NoNewGap batchId) ⟨db, []⟩ steps := by
  apply Runs.throughout_iff_of_exact (I := fun s => Indexed batchId s.db) (C := Accepted batchId)
    h.indexed
  · intro row hrow
    rw [h.volumeIndex] at hrow
    cases hrow
  · intro s a t hs hacc hstep
    cases a with
    | arrive pageId indexPosition indexId entry =>
      obtain ⟨db', hcommit, rfl⟩ := Option.map_eq_some_iff.mp hstep
      exact ⟨hs.arrive hcommit, accepted_arrive_iff hs hacc hcommit⟩
    | acknowledge actor reasonCode entry =>
      obtain ⟨db', hcommit, rfl⟩ := Option.map_eq_some_iff.mp hstep
      exact ⟨hs.acknowledge hcommit, iff_of_true (accepted_acknowledge hacc hcommit) trivial⟩
  · exact fun s hs => gateSound_iff_accepted hs

def sampleBatch : Database where
  batches := [⟨"b1".toList, "d1".toList⟩]
  sourceDocuments := [⟨"s1".toList, "b1".toList⟩]
  pages := [⟨"p1".toList, "s1".toList, none, none⟩, ⟨"p2".toList, "s1".toList, none, none⟩,
    ⟨"p3".toList, "s1".toList, none, none⟩]

theorem sampleBatch_unindexed : Unindexed "b1".toList sampleBatch := ⟨by decide, rfl⟩

def lateArrival : List VolumeStep :=
  [.arrive "p1".toList 1 "v1".toList ⟨"a1".toList, newYear 1⟩,
    .arrive "p2".toList 3 "v2".toList ⟨"a2".toList, newYear 2⟩,
    .acknowledge "supervisor".toList none ⟨"a3".toList, newYear 3⟩,
    .arrive "p3".toList 5 "v3".toList ⟨"a4".toList, newYear 4⟩]

theorem gate_sound_lateArrival :
    Runs.Throughout (volumeStep "b1".toList) (GateSound "b1".toList) ⟨sampleBatch, []⟩ lateArrival ↔
      Runs.AllSteps (volumeStep "b1".toList) (NoNewGap "b1".toList) ⟨sampleBatch, []⟩ lateArrival :=
  gate_sound_iff sampleBatch_unindexed lateArrival

theorem lateArrival_passes_new_gap : ¬ Runs.Throughout (volumeStep "b1".toList)
    (GateSound "b1".toList) ⟨sampleBatch, []⟩ lateArrival := by
  intro h
  have hpasses : (Runs.run (volumeStep "b1".toList) ⟨sampleBatch, []⟩ lateArrival).any (fun s =>
      checkVolumeCompleteness s.db "b1".toList = none ∧
        4 ∈ gapsOf (observedPositions s.db "b1".toList) ∧ 4 ∉ s.acknowledged) = true := by
    decide +kernel
  obtain ⟨s, hrun, hs⟩ := (Option.any_eq_true _ _).mp hpasses
  obtain ⟨hgate, hgap, hunseen⟩ := of_decide_eq_true hs
  exact hunseen (h.at_run hrun hgate 4 (mem_gapsOf.mp hgap))

end LandRecords.Publication
