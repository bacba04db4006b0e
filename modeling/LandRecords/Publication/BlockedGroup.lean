import LandRecords.Base.Runs
import LandRecords.Publication.Records

/-! Conflicts block the publication of a record group. The gate looks at conflicts
that list the row of the latest version, while conflicts are opened against any
version, or against the group. -/
namespace LandRecords.Publication

open Backend Audit Datetime Text

inductive PublicationStep
  | publish (request : PublishRequest) (stamps : PublishStamps)
  | openConflict (records : List Text) (rule : Text) (evidence : List (Text × Text))
      (origin : ConflictOrigin) (stamp entry : Stamp)
  | reportDefect (name recordId rule : Text) (evidence : List (Text × Text)) (stamp entry : Stamp)
  | transition (conflictId newState actor : Text) (resolution : Option Text) (entry : Stamp)

def publicationStep (db : Database) : PublicationStep → Option Database
  | .publish request stamps => commit (publishNewVersion request stamps) db
  | .openConflict records rule evidence origin stamp entry =>
      commit (openConflict records rule evidence origin stamp entry) db
  | .reportDefect name recordId rule evidence stamp entry =>
      commit (reportDefect name recordId rule evidence stamp entry) db
  | .transition conflictId newState actor resolution entry =>
      commit (transition conflictId newState actor resolution entry) db

def HasVersion (db : Database) (groupId : Text) : Prop :=
  ∃ version ∈ db.records, version.recordGroupId = groupId

def Names (db : Database) (listed : Text → Prop) (groupId : Text) : Prop :=
  listed groupId ∨ ∃ version ∈ db.records, version.recordGroupId = groupId ∧ listed version.id

def NamesPrevious (db : Database) (listed : Text → Prop) (groupId : Text) : Prop :=
  ∃ previous, previousVersion db (some groupId) = some previous ∧ listed previous.id

def Blocking (db : Database) (id : Text) : Prop := isPublishBlocked db id = true

/-- A group that a blocking conflict names is not published, and nothing changes. -/
def ConflictsBlock (db : Database) : Prop :=
  ∀ groupId, HasVersion db groupId → Names db (Blocking db) groupId → ∀ request stamps,
    request.recordGroupId = some groupId → ∃ reasons,
      publishNewVersion request stamps db = (.raised (.publishBlocked reasons), db)

def NamesLatest (db : Database) (listed : Text → Prop) : Prop :=
  ∀ groupId, HasVersion db groupId → Names db listed groupId → NamesPrevious db listed groupId

def BlockingBesides (db : Database) (conflictId id : Text) : Prop :=
  ∃ other ∈ db.conflicts, other.id ≠ conflictId ∧ id ∈ other.records ∧
    isBlocking other.state = true

/-- The group is new, so that no conflict names its first version unless one
lists that very row. -/
def FirstVersionFree (db : Database) (groupId rowId : Text) : Prop :=
  Blocking db groupId ∨ Blocking db rowId → isTruthy (some groupId) = true ∧ Blocking db rowId

/-- A conflict that begins to block lists the latest version of every group it
names, if no other does, and one that ceases to block leaves such conflicts. -/
def KeepsLatest (db : Database) : PublicationStep → Prop
  | .publish request stamps => passesGate db request = true →
      previousVersion db request.recordGroupId = none →
        FirstVersionFree db (groupOf request stamps) stamps.row.id
  | .openConflict records .. => NamesLatest db fun id => id ∈ records ∨ Blocking db id
  | .reportDefect _ recordId .. => NamesLatest db fun id => id ∈ [recordId] ∨ Blocking db id
  | .transition conflictId newState _ resolution _ => ∀ conflict state,
      Moves db conflictId newState resolution conflict state →
        if isBlocking state then NamesLatest db fun id => id ∈ conflict.records ∨ Blocking db id
        else NamesLatest db (BlockingBesides db conflictId)

/-- What holds whatever is opened. -/
structure Registry (db : Database) : Prop where
  conflictKeys : (db.conflicts.map Conflict.id).Nodup
  firstVersion : ∀ version ∈ db.records, ∃ first ∈ db.records,
    first.recordGroupId = version.recordGroupId ∧ first.version = 1

section Names

variable {db db' : Database} {listed listed' : Text → Prop}

theorem namesLatest_congr (h : ∀ id, listed id ↔ listed' id) :
    NamesLatest db listed ↔ NamesLatest db listed' := by
  have heq : listed = listed' := funext fun id => propext (h id)
  rw [heq]

theorem namesLatest_of_records (h : db'.records = db.records) :
    NamesLatest db' listed ↔ NamesLatest db listed := by
  unfold NamesLatest HasVersion Names NamesPrevious previousVersion latestVersion
  rw [h]

theorem blocking_iff {id : Text} : Blocking db id ↔
    ∃ conflict ∈ db.conflicts, id ∈ conflict.records ∧ isBlocking conflict.state = true := by
  unfold Blocking isPublishBlocked checkOpenConflict openConflicts
  dsimp only
  split
  · rename_i hnone
    simp only [Option.isSome_none, Bool.false_eq_true, false_iff]
    rintro ⟨conflict, hconflict, hlisted⟩
    rw [List.isEmpty_iff, List.filter_eq_nil_iff] at hnone
    exact hnone conflict hconflict (decide_eq_true hlisted)
  · rename_i hsome
    simp only [Option.isSome_some, true_iff]
    rw [List.isEmpty_iff, List.filter_eq_nil_iff] at hsome
    push Not at hsome
    obtain ⟨conflict, hconflict, hlisted⟩ := hsome
    exact ⟨conflict, hconflict, of_decide_eq_true hlisted⟩

/-- The gate blocks a group exactly when its latest version is listed. -/
theorem conflictsBlock_iff : ConflictsBlock db ↔ NamesLatest db (Blocking db) := by
  have hgate : ∀ groupId, NamesPrevious db (Blocking db) groupId ↔
      (previousVersion db (some groupId)).any (fun previous => isPublishBlocked db previous.id) =
        true := fun groupId => (Option.any_eq_true _ _).symm
  constructor
  · intro hblock groupId hversion hnames
    rw [hgate]
    have hrefused := publishNewVersion_blocked_iff.mp
      (hblock groupId hversion hnames ⟨some groupId, none, [], none, none, none⟩
        ⟨⟨[], newYear 0⟩, [], ⟨[], newYear 0⟩⟩ rfl)
    unfold passesGate at hrefused
    rw [Bool.not_eq_false', Option.any_none, Bool.false_or] at hrefused
    exact hrefused
  · intro hlatest groupId hversion hnames request stamps hrequest
    apply publishNewVersion_blocked_iff.mpr
    have hlisted := (hgate groupId).mp (hlatest groupId hversion hnames)
    rw [passesGate, hrequest, hlisted, Bool.or_true]
    rfl

end Names

section Conflicts

variable {db db' : Database} {conflictId id : Text} {conflict : Conflict} {state : ConflictState}

theorem blocking_opened {stamp : Stamp} {records : List Text} {rule : Text}
    {evidence : List (Text × Text)} {origin : ConflictOrigin} :
    Blocking (withConflict (openedConflict stamp records rule evidence origin) db) id ↔
      id ∈ records ∨ Blocking db id := by
  simp only [blocking_iff, withConflict, List.mem_append, List.mem_singleton, or_and_right,
    exists_or, exists_eq_left]
  rw [or_comm]
  apply or_congr_left
  exact and_iff_left rfl

theorem eq_of_conflict? (hkeys : (db.conflicts.map Conflict.id).Nodup)
    (h : db.conflict? conflictId = some conflict) {row : Conflict} (hrow : row ∈ db.conflicts)
    (hid : row.id = conflictId) : row = conflict :=
  List.inj_on_of_nodup_map hkeys hrow (List.mem_of_find?_eq_some h)
    (hid.trans (Database.conflict?_id h).symm)

theorem blocking_withState (hkeys : (db.conflicts.map Conflict.id).Nodup)
    (h : db.conflict? conflictId = some conflict) :
    Blocking (withState conflictId state db) id ↔
      (isBlocking state = true ∧ id ∈ conflict.records) ∨ BlockingBesides db conflictId id := by
  rw [blocking_iff]
  simp only [withState, setState, List.mem_map]
  constructor
  · rintro ⟨_, ⟨row, hrow, rfl⟩, hlisted, hblocks⟩
    by_cases hid : row.id = conflictId
    · rw [if_pos hid] at hlisted hblocks
      rw [← eq_of_conflict? hkeys h hrow hid]
      exact .inl ⟨hblocks, hlisted⟩
    · rw [if_neg hid] at hlisted hblocks
      exact .inr ⟨row, hrow, hid, hlisted, hblocks⟩
  · rintro (⟨hblocks, hlisted⟩ | ⟨row, hrow, hid, hlisted, hblocks⟩)
    · refine ⟨_, ⟨conflict, List.mem_of_find?_eq_some h, rfl⟩, ?_⟩
      rw [if_pos (Database.conflict?_id h)]
      exact ⟨hlisted, hblocks⟩
    · refine ⟨_, ⟨row, hrow, rfl⟩, ?_⟩
      rw [if_neg hid]
      exact ⟨hlisted, hblocks⟩

theorem blocking_split (hkeys : (db.conflicts.map Conflict.id).Nodup)
    (h : db.conflict? conflictId = some conflict) :
    Blocking db id ↔ (isBlocking conflict.state = true ∧ id ∈ conflict.records) ∨
      BlockingBesides db conflictId id := by
  rw [blocking_iff]
  constructor
  · rintro ⟨row, hrow, hlisted, hblocks⟩
    by_cases hid : row.id = conflictId
    · rw [← eq_of_conflict? hkeys h hrow hid]
      exact .inl ⟨hblocks, hlisted⟩
    · exact .inr ⟨row, hrow, hid, hlisted, hblocks⟩
  · rintro (⟨hblocks, hlisted⟩ | ⟨row, hrow, hid, hlisted, hblocks⟩)
    · exact ⟨conflict, List.mem_of_find?_eq_some h, hlisted, hblocks⟩
    · exact ⟨row, hrow, hlisted, hblocks⟩

/-- A moved conflict keeps the latest versions named exactly under the condition. -/
theorem namesLatest_withState (hkeys : (db.conflicts.map Conflict.id).Nodup)
    (h : db.conflict? conflictId = some conflict) :
    NamesLatest (withState conflictId state db) (Blocking (withState conflictId state db)) ↔
      if isBlocking state then NamesLatest db fun id => id ∈ conflict.records ∨ Blocking db id
      else NamesLatest db (BlockingBesides db conflictId) := by
  have hrecords : (withState conflictId state db).records = db.records := rfl
  rw [namesLatest_of_records hrecords]
  cases hblocks : isBlocking state with
  | true =>
    apply namesLatest_congr
    intro id
    rw [blocking_withState hkeys h, blocking_split hkeys h, hblocks]
    tauto
  | false =>
    apply namesLatest_congr
    intro id
    rw [blocking_withState hkeys h, hblocks]
    simp

end Conflicts

section Versions

variable {db : Database} {record : Record} {listed : Text → Prop}

theorem latestVersion_withRecord (hlater : ∀ version ∈ db.records,
    version.recordGroupId = record.recordGroupId → version.version < record.version) :
    latestVersion (withRecord record db) record.recordGroupId = some record := by
  apply latest_eq_some
  · simp [withRecord]
  · intro version hversion
    obtain ⟨hmem, hgroup⟩ := List.mem_filter.mp hversion
    rcases List.mem_append.mp hmem with hold | hnew
    · exact .inr (hlater version hold (of_decide_eq_true hgroup))
    · exact .inl (List.mem_singleton.mp hnew)

theorem latestVersion_withRecord_other {groupId : Text} (h : groupId ≠ record.recordGroupId) :
    latestVersion (withRecord record db) groupId = latestVersion db groupId := by
  simp [latestVersion, withRecord, List.filter_append, Ne.symm h]

/-- A new version keeps its group named by the latest version exactly if conflicts
that name the group list the new row. -/
theorem namesLatest_withRecord (h : NamesLatest db listed)
    (hlater : ∀ version ∈ db.records,
      version.recordGroupId = record.recordGroupId → version.version < record.version) :
    NamesLatest (withRecord record db) listed ↔
      (Names db listed record.recordGroupId ∨ listed record.id →
        isTruthy (some record.recordGroupId) = true ∧ listed record.id) := by
  have hnames : ∀ groupId, Names (withRecord record db) listed groupId ↔
      Names db listed groupId ∨ (record.recordGroupId = groupId ∧ listed record.id) := by
    intro groupId
    simp only [Names, withRecord, List.mem_append, List.mem_singleton, or_and_right, exists_or,
      exists_eq_left, or_assoc]
  have hown : NamesPrevious (withRecord record db) listed record.recordGroupId ↔
      isTruthy (some record.recordGroupId) = true ∧ listed record.id := by
    unfold NamesPrevious previousVersion
    by_cases htruthy : isTruthy (some record.recordGroupId) = true
    · simp [htruthy, latestVersion_withRecord hlater]
    · simp [htruthy]
  constructor
  · intro hlatest hnamed
    apply hown.mp
    apply hlatest record.recordGroupId ⟨record, by simp [withRecord], rfl⟩
    rw [hnames]
    exact hnamed.imp_right fun hlisted => ⟨rfl, hlisted⟩
  · intro hfree groupId hversion hnamed
    rw [hnames] at hnamed
    by_cases hgroup : groupId = record.recordGroupId
    · subst hgroup
      exact hown.mpr (hfree (hnamed.imp_right And.right))
    · obtain ⟨version, hmem, hown'⟩ := hversion
      have hold : version ∈ db.records := by
        rcases List.mem_append.mp hmem with hold | hnew
        · exact hold
        · rw [List.mem_singleton.mp hnew] at hown'
          exact absurd hown'.symm hgroup
      have hnamedOld : Names db listed groupId :=
        hnamed.resolve_right fun hboth => hgroup hboth.1.symm
      obtain ⟨previous, hprevious, hlisted⟩ := h groupId ⟨version, hold, hown'⟩ hnamedOld
      refine ⟨previous, ?_, hlisted⟩
      unfold previousVersion at hprevious ⊢
      rw [orEmpty_some, latestVersion_withRecord_other hgroup]
      exact hprevious

theorem Registry.withRecord (h : Registry db)
    (hfirst : record.version = 1 ∨ HasVersion db record.recordGroupId) :
    Registry (withRecord record db) := by
  constructor
  · exact h.conflictKeys
  · intro version hversion
    rcases List.mem_append.mp hversion with hold | hnew
    · obtain ⟨first, hmem, hgroup, hone⟩ := h.firstVersion version hold
      exact ⟨first, List.mem_append_left _ hmem, hgroup, hone⟩
    · obtain rfl := List.mem_singleton.mp hnew
      rcases hfirst with hone | ⟨other, hother, hgroup⟩
      · exact ⟨version, hversion, rfl, hone⟩
      · obtain ⟨first, hmem, hsame, hone⟩ := h.firstVersion other hother
        exact ⟨first, List.mem_append_left _ hmem, hsame.trans hgroup, hone⟩

end Versions

section Publish

variable {db db' : Database} {request : PublishRequest} {stamps : PublishStamps}

theorem previousVersion_eq_some (stamps : PublishStamps) {previous : Record}
    (h : previousVersion db request.recordGroupId = some previous) :
    request.recordGroupId = some (groupOf request stamps) ∧
      isTruthy (some (groupOf request stamps)) = true ∧
      previous ∈ db.records ∧ previous.recordGroupId = groupOf request stamps ∧
      ∀ version ∈ db.records, version.recordGroupId = groupOf request stamps →
        version.version ≤ previous.version := by
  unfold previousVersion at h
  unfold groupOf
  split at h
  · rename_i htruthy
    cases hgroup : request.recordGroupId with
    | none =>
      rw [hgroup] at htruthy
      cases htruthy
    | some groupId =>
      rw [hgroup] at h htruthy
      obtain ⟨hmem, hown⟩ := List.mem_filter.mp (latest_mem h)
      refine ⟨rfl, htruthy, hmem, of_decide_eq_true hown, fun version hversion hsame => ?_⟩
      exact latest_greatest h (List.mem_filter.mpr ⟨hversion, decide_eq_true hsame⟩)
  · cases h

theorem not_hasVersion_of_fresh (h : Registry db) {groupId : Text}
    (hfresh : (groupId, 1) ∉ db.records.map fun row => (row.recordGroupId, row.version)) :
    ¬ HasVersion db groupId := by
  rintro ⟨version, hversion, rfl⟩
  obtain ⟨first, hmem, hgroup, hone⟩ := h.firstVersion version hversion
  apply hfresh
  rw [← hgroup, ← hone]
  exact List.mem_map_of_mem hmem

theorem publish_keeps {a : PublicationStep} (ha : a = .publish request stamps) (h : Registry db)
    (hlatest : NamesLatest db (Blocking db)) (hstep : publicationStep db a = some db') :
    Registry db' ∧ (NamesLatest db' (Blocking db') ↔ KeepsLatest db a) := by
  subst ha
  rcases publish_cases hstep with ⟨rfl, hrefused⟩ | ⟨hpassed, hfresh, hdb'⟩
  · refine ⟨h, iff_of_true hlatest fun hpassed => ?_⟩
    rw [hrefused] at hpassed
    cases hpassed
  · set previous := previousVersion db request.recordGroupId with hprevious
    have hblocking : NamesLatest db' (Blocking db') ↔
        NamesLatest (withRecord (nextVersion request previous stamps) db) (Blocking db) := by
      rw [hdb']
      exact Iff.rfl
    rw [hblocking]
    have hregistry : (nextVersion request previous stamps).version = 1 ∨
        HasVersion db (groupOf request stamps) → Registry db' := by
      intro hfirst
      have hwritten := h.withRecord hfirst
      rw [hdb']
      exact ⟨hwritten.conflictKeys, hwritten.firstVersion⟩
    cases hlast : previous with
    | none =>
      rw [hlast] at hfresh hregistry
      have hnone := not_hasVersion_of_fresh h hfresh
      refine ⟨hregistry (.inl rfl), ?_⟩
      rw [namesLatest_withRecord hlatest fun version hversion hown =>
        absurd ⟨version, hversion, hown⟩ hnone]
      have hnames : Names db (Blocking db) (groupOf request stamps) ↔
          Blocking db (groupOf request stamps) :=
        or_iff_left fun ⟨version, hversion, hown, _⟩ => hnone ⟨version, hversion, hown⟩
      change (Names db (Blocking db) (groupOf request stamps) ∨ Blocking db stamps.row.id → _) ↔ _
      rw [hnames]
      constructor
      · exact fun hfree _ _ => hfree
      · exact fun hfree => hfree hpassed (hprevious.symm.trans hlast)
    | some last =>
      rw [hlast] at hregistry
      obtain ⟨hgroup, htruthy, hmem, hown, hgreatest⟩ :=
        previousVersion_eq_some stamps (hprevious.symm.trans hlast)
      have hversion : HasVersion db (groupOf request stamps) := ⟨last, hmem, hown⟩
      refine ⟨hregistry (.inr hversion), ?_⟩
      rw [namesLatest_withRecord hlatest fun version hversion hown =>
        Nat.lt_succ_of_le (hgreatest version hversion hown)]
      have hunblocked : ¬ Names db (Blocking db) (groupOf request stamps) := by
        intro hnamed
        obtain ⟨found, hfound, hblocking⟩ := hlatest _ hversion hnamed
        rw [← hgroup, ← hprevious, hlast] at hfound
        obtain rfl := Option.some.inj hfound
        have hrefused : passesGate db request = false := by
          rw [passesGate, ← hprevious, hlast, Option.any_some, hblocking, Bool.or_true]
          rfl
        rw [hrefused] at hpassed
        cases hpassed
      apply iff_of_true
      · exact fun hnamed => ⟨htruthy, hnamed.resolve_left hunblocked⟩
      · intro _ hnone
        rw [← hprevious, hlast] at hnone
        cases hnone

end Publish

section Runs

variable {db db' : Database}

theorem Registry.withConflict (h : Registry db) {conflict : Conflict}
    (hfresh : conflict.id ∉ db.conflicts.map Conflict.id) : Registry (withConflict conflict db) := by
  constructor
  · exact Rows.nodup_append_row h.conflictKeys hfresh
  · exact h.firstVersion

theorem open_keeps {records : List Text} {rule : Text} {evidence : List (Text × Text)}
    {origin : ConflictOrigin} {stamp entry : Stamp} (h : Registry db)
    (hstep : commit (openConflict records rule evidence origin stamp entry) db = some db') :
    Registry db' ∧ (NamesLatest db' (Blocking db') ↔
      NamesLatest db fun id => id ∈ records ∨ Blocking db id) := by
  obtain ⟨conflict, hopened⟩ := commit_returned hstep (openConflict_raisesOnly _ _ _ _ _ _)
  obtain ⟨hfresh, hdb'⟩ := openConflict_returned hopened
  have hregistry : Registry (withConflict (openedConflict stamp records rule evidence origin) db) :=
    h.withConflict hfresh
  rw [hdb']
  refine ⟨⟨hregistry.conflictKeys, hregistry.firstVersion⟩, ?_⟩
  exact (namesLatest_of_records rfl).trans (namesLatest_congr fun id => blocking_opened)

theorem map_id_setState (conflictId : Text) (state : ConflictState) (conflicts : List Conflict) :
    (setState conflictId state conflicts).map Conflict.id = conflicts.map Conflict.id := by
  apply Rows.map_updateAt
  intro row
  rfl

theorem transition_keeps {conflictId newState actor : Text} {resolution : Option Text}
    {entry : Stamp} (h : Registry db) (hlatest : NamesLatest db (Blocking db))
    (hstep : commit (transition conflictId newState actor resolution entry) db = some db') :
    Registry db' ∧ (NamesLatest db' (Blocking db') ↔
      KeepsLatest db (.transition conflictId newState actor resolution entry)) := by
  rcases transition_cases hstep with ⟨rfl, hnone⟩ | ⟨conflict, state, hmoves, hdb'⟩
  · exact ⟨h, iff_of_true hlatest fun conflict state hmoves =>
      absurd hmoves (hnone conflict state)⟩
  · rw [hdb']
    refine ⟨⟨?_, h.firstVersion⟩, ?_⟩
    · simp only [Database.withAudit, withState, map_id_setState]
      exact h.conflictKeys
    · refine (namesLatest_withState h.conflictKeys hmoves.1).trans ?_
      constructor
      · intro hkept other target hother
        obtain rfl := Option.some.inj (hmoves.1.symm.trans hother.1)
        obtain rfl := Option.some.inj (hmoves.2.1.symm.trans hother.2.1)
        exact hkept
      · exact fun hkept => hkept conflict state hmoves

theorem publicationStep_keeps {a : PublicationStep} (h : Registry db)
    (hlatest : NamesLatest db (Blocking db)) (hstep : publicationStep db a = some db') :
    Registry db' ∧ (NamesLatest db' (Blocking db') ↔ KeepsLatest db a) := by
  cases a with
  | publish request stamps => exact publish_keeps rfl h hlatest hstep
  | openConflict records rule evidence origin stamp entry => exact open_keeps h hstep
  | reportDefect name recordId rule evidence stamp entry => exact open_keeps h hstep
  | transition conflictId newState actor resolution entry =>
    exact transition_keeps h hlatest hstep

end Runs

structure Unpublished (db : Database) : Prop where
  records : db.records = []
  conflictKeys : (db.conflicts.map Conflict.id).Nodup

/-- Conflicts block their groups throughout a run exactly when each step keeps the
latest version of every named group named. -/
theorem conflicts_block_iff {db : Database} (h : Unpublished db) (steps : List PublicationStep) :
    Runs.Throughout publicationStep ConflictsBlock db steps ↔
      Runs.AllSteps publicationStep KeepsLatest db steps := by
  apply Runs.throughout_iff_of_exact (I := Registry) (C := fun db => NamesLatest db (Blocking db))
  · refine ⟨h.conflictKeys, ?_⟩
    simp [h.records]
  · rintro groupId ⟨version, hversion, -⟩
    rw [h.records] at hversion
    cases hversion
  · exact fun db a db' hdb hlatest hstep => publicationStep_keeps hdb hlatest hstep
  · exact fun db _ => conflictsBlock_iff

theorem unpublished_empty : Unpublished {} := ⟨rfl, List.nodup_nil⟩

def publishSample (groupId : Option Text) (rowId entryId : Text) : PublicationStep :=
  .publish ⟨groupId, none, "supervisor".toList, none, none, none⟩
    ⟨⟨rowId, newYear 1⟩, "g1".toList, ⟨entryId, newYear 1⟩⟩

def lateDefect : List PublicationStep :=
  [publishSample none "r1".toList "a1".toList,
    publishSample (some "g1".toList) "r2".toList "a2".toList,
    .reportDefect "lrms".toList "r1".toList "area-mismatch".toList [] ⟨"c1".toList, newYear 2⟩
      ⟨"a3".toList, newYear 2⟩]

theorem conflicts_block_iff_lateDefect :
    Runs.Throughout publicationStep ConflictsBlock {} lateDefect ↔
      Runs.AllSteps publicationStep KeepsLatest {} lateDefect :=
  conflicts_block_iff unpublished_empty lateDefect

theorem lateDefect_does_not_block :
    ¬ Runs.Throughout publicationStep ConflictsBlock {} lateDefect := by
  intro h
  have hpasses : (Runs.run publicationStep {} lateDefect).any (fun db =>
      (db.records.any fun version =>
        version.recordGroupId = "g1".toList ∧ isPublishBlocked db version.id = true) ∧
      passesGate db ⟨some "g1".toList, none, [], none, none, none⟩ = true) = true := by
    decide +kernel
  obtain ⟨db, hrun, hdb⟩ := (Option.any_eq_true _ _).mp hpasses
  obtain ⟨hnamed, hpasses⟩ := of_decide_eq_true hdb
  obtain ⟨version, hversion, hboth⟩ := List.any_eq_true.mp hnamed
  obtain ⟨hgroup, hblocked⟩ := of_decide_eq_true hboth
  have hrefused := publishNewVersion_blocked_iff.mp
    (h.at_run hrun "g1".toList ⟨version, hversion, hgroup⟩
      (.inr ⟨version, hversion, hgroup, hblocked⟩) ⟨some "g1".toList, none, [], none, none, none⟩
      ⟨⟨[], newYear 0⟩, [], ⟨[], newYear 0⟩⟩ rfl)
  rw [hrefused] at hpasses
  cases hpasses

end LandRecords.Publication
