import LandRecords.Publication.Completeness
import LandRecords.Publication.ConflictRegister

/-! Publication of record versions. The gate checks the volume of the batch and the
conflicts that list the row of the previous version. -/
namespace LandRecords.Publication

open Backend Audit Datetime Text

abbrev CheckFn := Database → Text → Option BlockReason

structure GateResult where
  blocked : Bool
  reasons : List BlockReason

def evaluate (db : Database) (subjectId : Text) (checks : List CheckFn) : GateResult :=
  let reasons := checks.filterMap fun check => check db subjectId
  ⟨!reasons.isEmpty, reasons⟩

def attemptPublish (subjectId : Text) (checks : List CheckFn) : Session GateResult := do
  let result ← Fallible.read fun db => evaluate db subjectId checks
  if result.blocked then Fallible.raise (.publishBlocked result.reasons) else return result

def latestVersion (db : Database) (recordGroupId : Text) : Option Record :=
  latest Record.version (db.records.filter fun row => row.recordGroupId = recordGroupId)

/-- `latest_version(session, record_group_id) if record_group_id else None`. -/
def previousVersion (db : Database) (recordGroupId : Option Text) : Option Record :=
  if isTruthy recordGroupId then latestVersion db (orEmpty recordGroupId) else none

/-- The keyword arguments of `publish_new_version`. -/
structure PublishRequest where
  recordGroupId : Option Text
  batchId : Option Text
  actor : Text
  parcelRef : Option Text := none
  ulpin : Option Text := none
  lgdCodes : Option (List (Text × Text)) := none

structure PublishStamps where
  row : Stamp
  /-- The default of the column `record_group_id`. -/
  groupId : Text
  entry : Stamp

def groupOf (request : PublishRequest) (stamps : PublishStamps) : Text :=
  request.recordGroupId.getD stamps.groupId

def nextVersion (request : PublishRequest) (previous : Option Record) (stamps : PublishStamps) :
    Record where
  id := stamps.row.id
  recordGroupId := groupOf request stamps
  version := match previous with
    | some previous => previous.version + 1
    | none => 1
  parcelRef := request.parcelRef.or (previous.bind Record.parcelRef)
  ulpin := request.ulpin.or (previous.bind Record.ulpin)
  lgdCodes := request.lgdCodes.or (previous.bind Record.lgdCodes)
  publishedAt := stamps.row.time

def withRecord (record : Record) (db : Database) : Database :=
  { db with records := db.records ++ [record] }

def addRecord (record : Record) : Session Unit :=
  addRow (fun db => record.id ∈ db.records.map Record.id ∨
      (record.recordGroupId, record.version) ∈
        db.records.map fun row => (row.recordGroupId, row.version)) (withRecord record)

def publishChecks (request : PublishRequest) (previous : Option Record) : List CheckFn :=
  (request.batchId.toList.map fun batchId db _ => checkVolumeCompleteness db batchId) ++
    previous.toList.map fun previous db _ => checkOpenConflict db previous.id

/-- `record_group_id or batch_id or "new-record"`. -/
def subjectOf (request : PublishRequest) : Text :=
  if isTruthy request.recordGroupId then orEmpty request.recordGroupId
  else if isTruthy request.batchId then orEmpty request.batchId
  else "new-record".toList

/-- The arguments that `record_publish` appends with. -/
def recordPublish (actor recordId : Text) (version : Nat) (district : Option Text) :
    AppendArgs where
  actor := actor
  action := "record.published".toList
  subject := some (recordId ++ ':' :: (toString version).toList)
  shardKey := if isTruthy district then some (shardKeyFor district none) else none
  district := district

def districtOf (db : Database) (batchId : Option Text) : Option Text :=
  (batchId.bind db.batch?).map Batch.district

def writeVersion (request : PublishRequest) (previous : Option Record) (stamps : PublishStamps) :
    Session Record := do
  let record := nextVersion request previous stamps
  addRecord record
  let district ← Fallible.read fun db => districtOf db request.batchId
  auditAppend stamps.entry
    (recordPublish request.actor record.recordGroupId record.version district)
  return record

def publishNewVersion (request : PublishRequest) (stamps : PublishStamps) : Session Record := do
  let previous ← Fallible.read fun db => previousVersion db request.recordGroupId
  let _ ← attemptPublish (subjectOf request) (publishChecks request previous)
  writeVersion request previous stamps

section Gate

variable {db db' : Database} {request : PublishRequest} {previous : Option Record}
  {stamps : PublishStamps}

theorem evaluate_blocked : (evaluate db (subjectOf request) (publishChecks request previous)).blocked =
      (request.batchId.any (fun batchId => (checkVolumeCompleteness db batchId).isSome) ||
        previous.any fun previous => isPublishBlocked db previous.id) := by
  unfold evaluate publishChecks isPublishBlocked
  cases request.batchId with
  | none =>
    cases previous with
    | none => rfl
    | some previous => cases hconflict : checkOpenConflict db previous.id <;> simp [hconflict]
  | some batchId =>
    cases hvolume : checkVolumeCompleteness db batchId with
    | none =>
      cases previous with
      | none => simp [hvolume]
      | some previous =>
        cases hconflict : checkOpenConflict db previous.id <;> simp [hvolume, hconflict]
    | some reason =>
      cases previous with
      | none => simp [hvolume]
      | some previous =>
        cases hconflict : checkOpenConflict db previous.id <;> simp [hvolume, hconflict]

def passesGate (db : Database) (request : PublishRequest) : Bool :=
  !(request.batchId.any (fun batchId => (checkVolumeCompleteness db batchId).isSome) ||
    (previousVersion db request.recordGroupId).any fun previous =>
      isPublishBlocked db previous.id)

theorem publishNewVersion_of_blocked (stamps : PublishStamps)
    (h : passesGate db request = false) : ∃ reasons,
      publishNewVersion request stamps db = (.raised (.publishBlocked reasons), db) := by
  rw [passesGate, ← evaluate_blocked, Bool.not_eq_false'] at h
  have hgate : ∃ reasons, attemptPublish (subjectOf request)
      (publishChecks request (previousVersion db request.recordGroupId)) db =
        (.raised (.publishBlocked reasons), db) := by
    apply Exists.intro
    rw [attemptPublish, Fallible.read_bind, if_pos h]
    rfl
  obtain ⟨reasons, hraised⟩ := hgate
  apply Exists.intro reasons
  rw [publishNewVersion, Fallible.read_bind, Fallible.bind_raised hraised]

theorem publishNewVersion_of_passed (h : passesGate db request = true) :
    publishNewVersion request stamps db =
      writeVersion request (previousVersion db request.recordGroupId) stamps db := by
  rw [passesGate, ← evaluate_blocked, Bool.not_eq_true'] at h
  have hgate : attemptPublish (subjectOf request)
      (publishChecks request (previousVersion db request.recordGroupId)) db =
        (.returned (evaluate db (subjectOf request)
          (publishChecks request (previousVersion db request.recordGroupId))), db) := by
    rw [attemptPublish, Fallible.read_bind, if_neg (by rw [h]; exact Bool.false_ne_true)]
    rfl
  rw [publishNewVersion, Fallible.read_bind, Fallible.bind_returned hgate]

theorem writeVersion_raisesOnly : Fallible.RaisesOnly (· = Error.integrityError)
    (writeVersion request previous stamps) := by
  apply Fallible.raisesOnly_bind (addRow_raisesOnly _ _)
  intro _
  apply Fallible.raisesOnly_bind (Fallible.raisesOnly_read _)
  intro district
  exact Fallible.raisesOnly_bind (auditAppend_raisesOnly _ _) fun _ => Fallible.raisesOnly_pure _

theorem writeVersion_returned {record : Record}
    (h : writeVersion request previous stamps db = (.returned record, db')) :
    record = nextVersion request previous stamps ∧
      (record.recordGroupId, record.version) ∉
        db.records.map (fun row => (row.recordGroupId, row.version)) ∧
      db' = (withRecord record db).withAudit db'.audit := by
  simp only [writeVersion, Fallible.bind_eq_returned, addRecord, addRow_returned] at h
  obtain ⟨_, _, ⟨hfresh, rfl⟩, _, _, hdistrict, _, _, hentry, h⟩ := h
  cases hdistrict
  cases h
  exact ⟨rfl, (not_or.mp (of_decide_eq_false hfresh)).2, (auditAppend_returned hentry).1⟩

theorem publishNewVersion_blocked_iff : (∃ reasons,
    publishNewVersion request stamps db = (.raised (.publishBlocked reasons), db)) ↔
      passesGate db request = false := by
  constructor
  · rintro ⟨reasons, hraised⟩
    by_contra hpassed
    rw [Bool.not_eq_false] at hpassed
    rw [publishNewVersion_of_passed hpassed] at hraised
    have hraises : Fallible.RaisesOnly (· = Error.integrityError)
        (writeVersion request (previousVersion db request.recordGroupId) stamps) :=
      writeVersion_raisesOnly
    have hexit := hraises db trivial
    rw [hraised] at hexit
    cases hexit
  · exact publishNewVersion_of_blocked stamps

theorem publish_cases (h : commit (publishNewVersion request stamps) db = some db') :
    (db' = db ∧ passesGate db request = false) ∨
      (passesGate db request = true ∧
        (groupOf request stamps, (nextVersion request (previousVersion db request.recordGroupId)
          stamps).version) ∉ db.records.map (fun row => (row.recordGroupId, row.version)) ∧
        db' = (withRecord (nextVersion request (previousVersion db request.recordGroupId) stamps)
          db).withAudit db'.audit) := by
  cases hgate : passesGate db request with
  | false =>
    refine .inl ⟨?_, rfl⟩
    rcases commit_eq_some h with hunchanged | ⟨record, hreturned⟩
    · exact hunchanged
    · obtain ⟨reasons, hraised⟩ := publishNewVersion_of_blocked stamps hgate
      rw [hraised] at hreturned
      cases hreturned
  | true =>
    rw [commit_congr (publishNewVersion_of_passed hgate)] at h
    obtain ⟨record, hrecord⟩ := commit_returned h writeVersion_raisesOnly
    obtain ⟨rfl, hfresh, hdb'⟩ := writeVersion_returned hrecord
    exact .inr ⟨rfl, hfresh, hdb'⟩

end Gate

end LandRecords.Publication
