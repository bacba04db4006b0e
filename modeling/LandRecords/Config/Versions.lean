import LandRecords.Backend.Database
import LandRecords.Base.OrderBy

/-! Configuration versions. A write links the head of its key to the new row, and a
read takes the row that became effective last. -/
namespace LandRecords.Config

open Backend Audit Datetime Text

/-- `QUEUE_NAME` of the subscriber. -/
def queueName : Text := "config-version-events".toList

def configScopes : List Text := ["district".toList, "state".toList, "global".toList]

def versionsOf (db : Database) (scope key : Text) : List ConfigVersion :=
  db.configVersions.filter fun row => row.scope = scope ∧ row.key = key

/-- The row with the latest `effective_from` that is not after `asOf`. -/
def effectiveRow (db : Database) (scope key : Text) (asOf : Instant) : Option ConfigVersion :=
  latest ConfigVersion.effectiveFrom
    ((versionsOf db scope key).filter fun row => row.effectiveFrom ≤ asOf)

def getEffectiveConfig (scope key : Text) (asOf : Instant) : Session ConfigVersion := do
  match ← Fallible.read fun db => effectiveRow db scope key asOf with
  | none => Fallible.raise (.configNotFound scope key none)
  | some row => return row

def getPinnedConfig (scope key configVersion : Text) : Session ConfigVersion := do
  match ← Fallible.read fun db =>
    db.configVersions.find? fun row => row.id = configVersion with
  | none => Fallible.raise (.configNotFound scope key (some configVersion))
  | some row =>
      if row.scope ≠ scope ∨ row.key ≠ key then
        Fallible.raise (.configNotFound scope key (some configVersion))
      else return row

structure ConfigResponse where
  key : Text
  value : List (Text × Text)
  configVersion : Text
  effectiveFrom : Text
deriving DecidableEq

def asResponse (zone : Zone) (row : ConfigVersion) : ConfigResponse where
  key := row.key
  value := row.value
  configVersion := row.id
  effectiveFrom := isoformat zone row.effectiveFrom

def priorHead (db : Database) (scope key : Text) : Option ConfigVersion :=
  latest ConfigVersion.effectiveFrom
    ((versionsOf db scope key).filter fun row => row.supersededBy = none)

def withVersion (row : ConfigVersion) (db : Database) : Database :=
  { db with configVersions := db.configVersions ++ [row] }

/-- The unique key is the scope, the key and `effective_from`. -/
def addConfigVersion (row : ConfigVersion) : Session Unit :=
  addRow (fun db => row.id ∈ db.configVersions.map ConfigVersion.id ∨
      (row.scope, row.key, row.effectiveFrom) ∈
        db.configVersions.map (fun row => (row.scope, row.key, row.effectiveFrom)) ∨
      row.scope ∉ configScopes ∨ row.author = row.approver) (withVersion row)

def supersede (priorId newId : Text) (rows : List ConfigVersion) : List ConfigVersion :=
  rows.map fun row => if row.id = priorId then { row with supersededBy := some newId } else row

def withSuperseded (priorId newId : Text) (db : Database) : Database :=
  { db with configVersions := supersede priorId newId db.configVersions }

def withMessage (message : OutboxMessage) (db : Database) : Database :=
  { db with outboxMessages := db.outboxMessages ++ [message] }

/-- `landoutbox.write`. -/
def outboxWrite (stamp : Stamp) (queue : Text) (envelope : List (Text × Text)) : Session Unit :=
  addRow (fun db => stamp.id ∈ db.outboxMessages.map OutboxMessage.id)
    (withMessage ⟨stamp.id, queue, envelope, stamp.time⟩)

def buildVersionChangeEvent (row : ConfigVersion) : List (Text × Text) :=
  [("scope".toList, row.scope), ("key".toList, row.key), ("config_version".toList, row.id)]

def publishVersionChangeEvent (row : ConfigVersion) (stamp : Stamp) : Session Unit :=
  outboxWrite stamp queueName (buildVersionChangeEvent row)

/-- The two entries of `record_config_version_write`. -/
def recordConfigVersionWrite (row : ConfigVersion) (authored approved : Stamp) : Session Unit := do
  let subject := row.scope ++ ':' :: row.key ++ ':' :: row.id
  auditAppend authored {
    actor := row.author
    action := "config_version.authored".toList
    subject := some subject
    shardKey := some systemShardKey }
  auditAppend approved {
    actor := row.approver
    action := "config_version.approved".toList
    subject := some subject
    shardKey := some systemShardKey }

/-- The keyword arguments of `write_config_version`. -/
structure ConfigWrite where
  scope : Text
  key : Text
  value : List (Text × Text)
  effectiveFrom : Instant
  author : Text
  approver : Text

structure ConfigStamps where
  id : Text
  authored : Stamp
  approved : Stamp
  message : Stamp

def newVersion (write : ConfigWrite) (id : Text) : ConfigVersion where
  id := id
  scope := write.scope
  key := write.key
  value := write.value
  effectiveFrom := write.effectiveFrom
  author := write.author
  approver := write.approver

def linkHead (prior : Option ConfigVersion) (newId : Text) (db : Database) : Database :=
  match prior with
  | some prior => withSuperseded prior.id newId db
  | none => db

def writeConfigVersion (write : ConfigWrite) (stamps : ConfigStamps) : Session ConfigVersion := do
  if write.author = write.approver then Fallible.raise (.authorEqualsApprover write.author)
  else
    let prior ← Fallible.read fun db => priorHead db write.scope write.key
    let row := newVersion write stamps.id
    addConfigVersion row
    Fallible.write (linkHead prior row.id)
    recordConfigVersionWrite row stamps.authored stamps.approved
    publishVersionChangeEvent row stamps.message
    return row

section Returned

variable {db db' : Database}

theorem linkHead_outboxMessages (prior : Option ConfigVersion) (newId : Text) :
    (linkHead prior newId db).outboxMessages = db.outboxMessages := by
  cases prior with
  | none => rfl
  | some prior => rfl

theorem writeConfigVersion_returned {write : ConfigWrite} {stamps : ConfigStamps}
    {row : ConfigVersion} (h : writeConfigVersion write stamps db = (.returned row, db')) :
    write.author ≠ write.approver ∧ row = newVersion write stamps.id ∧
      stamps.id ∉ db.configVersions.map ConfigVersion.id ∧
      (write.scope, write.key, write.effectiveFrom) ∉
        db.configVersions.map (fun row => (row.scope, row.key, row.effectiveFrom)) ∧
      stamps.message.id ∉ db.outboxMessages.map OutboxMessage.id ∧
      db' = (withMessage ⟨stamps.message.id, queueName, buildVersionChangeEvent row,
          stamps.message.time⟩
        (linkHead (priorHead db write.scope write.key) stamps.id (withVersion row db))).withAudit
          db'.audit := by
  unfold writeConfigVersion at h
  by_cases hsame : write.author = write.approver
  · rw [if_pos hsame] at h
    cases h
  · rw [if_neg hsame] at h
    simp only [Fallible.bind_eq_returned, addConfigVersion, addRow_returned,
      recordConfigVersionWrite, publishVersionChangeEvent, outboxWrite] at h
    obtain ⟨prior, _, hprior, _, _, ⟨hfresh, rfl⟩, _, _, hlink, _, _, ⟨_, _, hauthored, happroved⟩,
      _, _, ⟨hmessage, rfl⟩, h⟩ := h
    cases hprior
    cases hlink
    cases h
    have hauthoredDb := (auditAppend_returned hauthored).1
    have happrovedDb := (auditAppend_returned happroved).1
    obtain ⟨hid, hkeys⟩ := not_or.mp (of_decide_eq_false hfresh)
    refine ⟨hsame, rfl, hid, (not_or.mp hkeys).1, ?_, ?_⟩
    · have hfreshMessage := of_decide_eq_false hmessage
      rw [happrovedDb, hauthoredDb] at hfreshMessage
      simp only [Database.withAudit, linkHead_outboxMessages, withVersion] at hfreshMessage
      exact hfreshMessage
    · rw [happrovedDb, hauthoredDb]
      rfl

theorem writeConfigVersion_raisesOnly {write : ConfigWrite} {stamps : ConfigStamps}
    (h : write.author ≠ write.approver) : Fallible.RaisesOnly (· = Error.integrityError)
      (writeConfigVersion write stamps) := by
  unfold writeConfigVersion
  rw [if_neg h]
  apply Fallible.raisesOnly_bind (Fallible.raisesOnly_read _)
  intro prior
  apply Fallible.raisesOnly_bind (addRow_raisesOnly _ _)
  intro _
  apply Fallible.raisesOnly_bind (Fallible.raisesOnly_write _)
  intro _
  apply Fallible.raisesOnly_bind
  · exact Fallible.raisesOnly_bind (auditAppend_raisesOnly _ _) fun _ => auditAppend_raisesOnly _ _
  · intro _
    exact Fallible.raisesOnly_bind (addRow_raisesOnly _ _) fun _ => Fallible.raisesOnly_pure _

theorem writeConfigVersion_cases {write : ConfigWrite} {stamps : ConfigStamps}
    (h : commit (writeConfigVersion write stamps) db = some db') :
    (db' = db ∧ write.author = write.approver) ∨
      (write.author ≠ write.approver ∧
        writeConfigVersion write stamps db = (.returned (newVersion write stamps.id), db')) := by
  by_cases hsame : write.author = write.approver
  · refine .inl ⟨?_, hsame⟩
    rcases commit_eq_some h with hunchanged | ⟨row, hrow⟩
    · exact hunchanged
    · exact absurd hsame (writeConfigVersion_returned hrow).1
  · obtain ⟨row, hrow⟩ := commit_returned h (writeConfigVersion_raisesOnly hsame)
    obtain rfl := (writeConfigVersion_returned hrow).2.1
    exact .inr ⟨hsame, hrow⟩

end Returned

end LandRecords.Config
