import LandRecords.Backend.Database
import LandRecords.Base.OrderBy
import LandRecords.Base.Runs
import Mathlib

/-! Volume completeness: the index of a batch is rebuilt from the positions of its
pages, and a batch with an open gap is blocked until an operator acknowledges it. -/
namespace LandRecords.Publication

open Backend Audit Datetime Text

def withIndexPosition (pageId : Text) (indexPosition : Int) (db : Database) : Database :=
  { db with pages := db.pages.map fun page =>
      if page.id = pageId then { page with indexPosition := some indexPosition } else page }

def recordIndexPosition (pageId : Text) (indexPosition : Int) : Session Unit := do
  match ← Fallible.read fun db => db.page? pageId with
  | none => Fallible.raise (.keyError "page".toList pageId)
  | some page => Fallible.write (withIndexPosition page.id indexPosition)

def batchPositions (db : Database) (batchId : Text) : List Int :=
  (db.pages.filter fun page =>
    (db.sourceDocument? page.documentId).any fun doc => doc.batchId = batchId).filterMap
      Page.indexPosition

def observedPositions (db : Database) (batchId : Text) : List Int :=
  orderBy id (batchPositions db batchId)

/-- `list(range(observed[0], observed[-1] + 1))`. -/
def expectedPositions (observed : List Int) : List Int :=
  match observed.head?, observed.getLast? with
  | some first, some last => (List.range (last + 1 - first).toNat).map fun i : Nat => first + i
  | _, _ => []

def gapsOf (observed : List Int) : List Int :=
  (expectedPositions observed).filter fun i => i ∉ observed

def volumeIndex? (db : Database) (batchId : Text) : Option VolumeIndex :=
  db.volumeIndexes.find? fun row => row.batchId = batchId

def withVolumeIndex (id : Text) (update : VolumeIndex → VolumeIndex) (db : Database) : Database :=
  { db with volumeIndexes :=
      db.volumeIndexes.map fun row => if row.id = id then update row else row }

def addVolumeIndex (row : VolumeIndex) : Session Unit :=
  addRow (fun db => row.id ∈ db.volumeIndexes.map VolumeIndex.id) fun db =>
    { db with volumeIndexes := db.volumeIndexes ++ [row] }

def getOrCreate (batchId indexId : Text) : Session VolumeIndex := do
  match ← Fallible.read fun db => volumeIndex? db batchId with
  | some row => return row
  | none =>
      addVolumeIndex { id := indexId, batchId := batchId }
      return { id := indexId, batchId := batchId }

def rebuiltState (observed : List Int) (state : VolumeState) : VolumeState :=
  if gapsOf observed ≠ [] then
    if state ≠ .acknowledged then .gapDetected else state
  else if expectedPositions observed ≠ [] then .complete else .pending

def rebuiltRow (observed : List Int) (row : VolumeIndex) : VolumeIndex :=
  { row with
    expectedSequence := expectedPositions observed
    observedSequence := observed
    gaps := gapsOf observed
    state := rebuiltState observed row.state }

def rebuild (batchId indexId : Text) (entry : Stamp) : Session VolumeIndex := do
  let observed ← Fallible.read fun db => observedPositions db batchId
  let row ← getOrCreate batchId indexId
  Fallible.write (withVolumeIndex row.id (rebuiltRow observed))
  if gapsOf observed ≠ [] ∧ row.state ≠ .acknowledged then
    auditAppend entry {
      actor := "system:completeness".toList
      action := "volume_index.gap_detected".toList
      subject := some batchId
      purpose := some "FR-ING-08".toList }
  return rebuiltRow observed row

def acknowledgedRow (row : VolumeIndex) : VolumeIndex := { row with state := .acknowledged }

def acknowledgeGap (batchId actor : Text) (reasonCode : Option Text) (entry : Stamp) :
    Session VolumeIndex := do
  match ← Fallible.read fun db => volumeIndex? db batchId with
  | none => Fallible.raise (.keyError "volume_index".toList batchId)
  | some row =>
    if row.state ≠ .gapDetected then Fallible.raise (.notAcknowledgeable row.state)
    else
      Fallible.write (withVolumeIndex row.id acknowledgedRow)
      auditAppend entry {
        actor := actor
        action := "volume_index.gap_acknowledged".toList
        subject := some batchId
        purpose := reasonCode }
      return acknowledgedRow row

structure CompletenessAlert where
  batchId : Text
  missingIndexPositions : List Int
deriving DecidableEq

def currentAlert (db : Database) (batchId : Text) : Option CompletenessAlert :=
  match volumeIndex? db batchId with
  | none => none
  | some row =>
      if row.gaps = [] ∨ row.state = .acknowledged then none else some ⟨batchId, row.gaps⟩

def checkVolumeCompleteness (db : Database) (batchId : Text) : Option BlockReason :=
  (currentAlert db batchId).map fun alert => .volumeGap batchId alert.missingIndexPositions

def Missing (db : Database) (batchId : Text) (position : Int) : Prop :=
  position ∉ batchPositions db batchId ∧
    (∃ first ∈ batchPositions db batchId, first ≤ position) ∧
      ∃ last ∈ batchPositions db batchId, position ≤ last

section Gaps

variable {db db' : Database} {batchId : Text}

theorem mem_expectedPositions {observed : List Int} (hsorted : observed.Pairwise (· ≤ ·))
    {position : Int} : position ∈ expectedPositions observed ↔
      (∃ first ∈ observed, first ≤ position) ∧ ∃ last ∈ observed, position ≤ last := by
  cases observed with
  | nil => simp [expectedPositions]
  | cons first rest =>
    have hfirst : ∀ other ∈ first :: rest, first ≤ other := by
      intro other hother
      rcases List.mem_cons.mp hother with rfl | hrest
      · exact le_refl _
      · exact (List.pairwise_cons.mp hsorted).1 other hrest
    have hlast : ∀ other ∈ first :: rest, other ≤ (first :: rest).getLast (List.cons_ne_nil _ _) :=
      fun other hother => hsorted.rel_getLast hother
    have hlastMem := List.getLast_mem (List.cons_ne_nil first rest)
    simp only [expectedPositions, List.head?_cons,
      List.getLast?_eq_some_getLast (List.cons_ne_nil first rest), List.mem_map, List.mem_range]
    constructor
    · rintro ⟨i, hi, rfl⟩
      refine ⟨⟨first, List.mem_cons_self, by omega⟩, _, hlastMem, by omega⟩
    · rintro ⟨⟨low, hlow, hlowle⟩, high, hhigh, hhighle⟩
      have hfirstle := hfirst low hlow
      have hlastle := hlast high hhigh
      exact ⟨(position - first).toNat, by omega, by omega⟩

theorem mem_gapsOf {position : Int} :
    position ∈ gapsOf (observedPositions db batchId) ↔ Missing db batchId position := by
  have hsorted : (observedPositions db batchId).Pairwise (· ≤ ·) := orderBy_sorted id _
  unfold gapsOf Missing
  rw [List.mem_filter, mem_expectedPositions hsorted]
  simp only [observedPositions, mem_orderBy, decide_eq_true_eq]
  exact and_comm

theorem volumeIndex?_withVolumeIndex {row : VolumeIndex} (update : VolumeIndex → VolumeIndex)
    (hbatch : ∀ row, (update row).batchId = row.batchId) (h : volumeIndex? db batchId = some row) :
    volumeIndex? (withVolumeIndex row.id update db) batchId = some (update row) := by
  have hkey : ∀ other : VolumeIndex,
      (if other.id = row.id then update other else other).batchId = other.batchId :=
    fun other => Rows.updateAt_column hbatch other
  have hfound := Rows.find?_map_key hkey db.volumeIndexes batchId
  unfold volumeIndex? at h ⊢
  rw [h, Option.map_some, if_pos rfl] at hfound
  exact hfound

def SamePositions (db db' : Database) : Prop :=
  db'.pages = db.pages ∧ db'.sourceDocuments = db.sourceDocuments

theorem SamePositions.observedPositions (h : SamePositions db db') (batchId : Text) :
    observedPositions db' batchId = observedPositions db batchId := by
  simp only [Publication.observedPositions, batchPositions, Database.sourceDocument?, h.1, h.2]

def oldRow (db : Database) (batchId indexId : Text) : VolumeIndex :=
  (volumeIndex? db batchId).getD { id := indexId, batchId := batchId }

theorem getOrCreate_returned {indexId : Text} {row : VolumeIndex}
    (h : getOrCreate batchId indexId db = (.returned row, db')) :
    row = oldRow db batchId indexId ∧ volumeIndex? db' batchId = some row ∧
      SamePositions db db' := by
  simp only [getOrCreate, Fallible.read_bind] at h
  unfold oldRow
  cases hold : volumeIndex? db batchId with
  | some old =>
    simp only [hold] at h
    cases h
    exact ⟨rfl, hold, rfl, rfl⟩
  | none =>
    simp only [hold, Fallible.bind_eq_returned, addVolumeIndex, addRow_returned] at h
    obtain ⟨_, _, ⟨-, rfl⟩, h⟩ := h
    cases h
    refine ⟨rfl, ?_, rfl, rfl⟩
    unfold volumeIndex? at hold ⊢
    rw [List.find?_append, hold]
    simp

theorem rebuild_returned {indexId : Text} {entry : Stamp} {row : VolumeIndex}
    (h : rebuild batchId indexId entry db = (.returned row, db')) :
    volumeIndex? db' batchId =
        some (rebuiltRow (observedPositions db batchId) (oldRow db batchId indexId)) ∧
      SamePositions db db' := by
  simp only [rebuild, Fallible.read_bind] at h
  rw [Fallible.bind_eq_returned] at h
  obtain ⟨old, created, hcreated, h⟩ := h
  obtain ⟨rfl, hfound, hsame⟩ := getOrCreate_returned hcreated
  have hwritten : volumeIndex? (withVolumeIndex (oldRow db batchId indexId).id
      (rebuiltRow (observedPositions db batchId)) created) batchId =
        some (rebuiltRow (observedPositions db batchId) (oldRow db batchId indexId)) :=
    volumeIndex?_withVolumeIndex _ (fun _ => rfl) hfound
  rw [Fallible.write_bind] at h
  split at h
  · rw [Fallible.bind_eq_returned] at h
    obtain ⟨_, logged, hentry, h⟩ := h
    cases h
    rw [(auditAppend_returned hentry).1]
    exact ⟨hwritten, hsame⟩
  · cases h
    exact ⟨hwritten, hsame⟩

theorem acknowledgeGap_returned {actor : Text} {reasonCode : Option Text} {entry : Stamp}
    {row : VolumeIndex}
    (h : acknowledgeGap batchId actor reasonCode entry db = (.returned row, db')) :
    ∃ old, volumeIndex? db batchId = some old ∧ old.state = .gapDetected ∧
      volumeIndex? db' batchId = some (acknowledgedRow old) ∧ SamePositions db db' := by
  simp only [acknowledgeGap, Fallible.read_bind] at h
  cases hold : volumeIndex? db batchId with
  | none =>
    rw [hold] at h
    cases h
  | some old =>
    simp only [hold] at h
    by_cases hstate : old.state = .gapDetected
    · rw [if_neg (not_not.mpr hstate), Fallible.write_bind, Fallible.bind_eq_returned] at h
      obtain ⟨_, logged, hentry, h⟩ := h
      cases h
      refine ⟨old, rfl, hstate, ?_, ?_⟩
      · rw [(auditAppend_returned hentry).1]
        exact volumeIndex?_withVolumeIndex acknowledgedRow (fun _ => rfl) hold
      · rw [(auditAppend_returned hentry).1]
        exact ⟨rfl, rfl⟩
    · rw [if_pos hstate] at h
      cases h

end Gaps

end LandRecords.Publication
