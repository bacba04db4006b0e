import LandRecords.Base.Clients
import LandRecords.Config.Freshness
import Mathlib

/-! Handlers inside a pinned scope. A handler reads configuration in any way it likes, catches
what it likes and enters scopes of its own, while others read, write and invalidate. Inside the
scope it gets the versions that it names and nothing that is in effect by then, so handling the
message again gives the same result. -/
namespace LandRecords.Config

open Backend Datetime Text Clients

structure Processes where
  /-- The time zone of the database sessions. -/
  zone : Zone := utc
  db : Database
  now : Instant
  /-- What the client's clock shows at a read, and after a fetch. -/
  clock : Rat := 0
  fetchedClock : Rat := 0
  clients : Nat → ConfigClient := fun _ => {}

/-- Whether `reject_config_version_update` raises. -/
def rejectConfigVersionUpdate (old new : ConfigVersion) : Prop :=
  new.id ≠ old.id ∨ new.scope ≠ old.scope ∨ new.key ≠ old.key ∨ new.value ≠ old.value ∨
    new.effectiveFrom ≠ old.effectiveFrom ∨ new.author ≠ old.author ∨ new.approver ≠ old.approver

instance (old new : ConfigVersion) : Decidable (rejectConfigVersionUpdate old new) :=
  inferInstanceAs (Decidable (_ ∨ _))

/-- An `UPDATE` of the row with the id. -/
def updateConfigVersion (id : Text) (new : ConfigVersion) (db : Database) : Database :=
  { db with configVersions := db.configVersions.map fun old =>
      if old.id = id ∧ ¬ rejectConfigVersionUpdate old new then new else old }

inductive ConfigRequest
  | get (process : Nat) (pinnedEnvelope : Option Text) (scope key : Text)
      (configVersion : Option Text)
  | deliver (process : Nat) (payloads : List (List (Text × Text)))
  | write (write : ConfigWrite) (stamps : ConfigStamps)
  | update (id : Text) (row : ConfigVersion)
  | tick (now : Instant) (clock fetchedClock : Rat)

def ConfigAnswer : ConfigRequest → Type
  | .get _ _ _ _ _ => Exit ClientError ConfigResponse
  | _ => Unit

def withClient (process : Nat) (client : ConfigClient) (s : Processes) : Processes :=
  { s with clients := Function.update s.clients process client }

def ConfigRequest.serve : (request : ConfigRequest) → Processes → ConfigAnswer request × Processes
  | .get process pinnedEnvelope scope key configVersion, s =>
      let (answer, client) := Config.get (fetchFrom s.zone s.db s.now) pinnedEnvelope s.clock s.fetchedClock
        scope key configVersion (s.clients process)
      (answer, withClient process client s)
  | .deliver process payloads, s =>
      ((), withClient process (drainOnce payloads (s.clients process)).2 s)
  | .write call stamps, s =>
      ((), { s with db := (commit (writeConfigVersion call stamps) s.db).getD s.db })
  | .update id row, s => ((), { s with db := updateConfigVersion id row s.db })
  | .tick now clock fetchedClock, s => ((), { s with now, clock, fetchedClock })

/-- What a handler does with the configuration. A read hands it what the client raised, too, and a
scope hands it how its body ended. -/
inductive Handler (ε ν : Type)
  | ended (exit : Exit ε ν)
  | get (scope key : Text) (configVersion : Option Text)
      (next : Exit ClientError ConfigResponse → Handler ε ν)
  | pinnedScope (envelopeId : Text) (body : Handler ε ν) (next : Exit ε ν → Handler ε ν)

section Handlers

variable {ε ν α : Type}

/-- What comes after a scope. A crash leaves every scope. -/
def afterScope (next : Exit ε ν → Program ConfigRequest ConfigAnswer ε α) :
    Exit ε ν → Program ConfigRequest ConfigAnswer ε α
  | .crashed => .ended .crashed
  | .returned value => next (.returned value)
  | .raised error => next (.raised error)

def Handler.program (process : Nat) : Handler ε ν → Option Text →
    (Exit ε ν → Program ConfigRequest ConfigAnswer ε α) → Program ConfigRequest ConfigAnswer ε α
  | .ended exit, _, rest => rest exit
  | .get scope key configVersion next, pinnedEnvelope, rest =>
      .ask (.get process pinnedEnvelope scope key configVersion) fun answer =>
        (next answer).program process pinnedEnvelope rest
  | .pinnedScope envelopeId body next, pinnedEnvelope, rest =>
      body.program process (some envelopeId)
        (afterScope fun exit => (next exit).program process pinnedEnvelope rest)

def pinnedAnswer (zone : Zone) (db : Database) (scope key configVersion : Text) :
    Exit ClientError ConfigResponse :=
  match db.configVersions.find? fun row => row.id = configVersion with
  | some row =>
      if row.scope ≠ scope ∨ row.key ≠ key then
        .raised (.fetchError (.configNotFound scope key (some configVersion)))
      else .returned (asResponse zone row)
  | none => .raised (.fetchError (.configNotFound scope key (some configVersion)))

def refusedAnswer (envelopeId scope key : Text) : Exit ClientError ConfigResponse :=
  .raised (.liveResolutionInsidePinnedScope ("config:".toList ++ scope ++ '.' :: key) envelopeId)

def replay (zone : Zone) (db : Database) : Text → Handler ε ν → Exit ε ν
  | _, .ended exit => exit
  | envelopeId, .get scope key (some configVersion) next =>
      replay zone db envelopeId (next (pinnedAnswer zone db scope key configVersion))
  | envelopeId, .get scope key none next =>
      replay zone db envelopeId (next (refusedAnswer envelopeId scope key))
  | envelopeId, .pinnedScope inner body next =>
      match replay zone db inner body with
      | .crashed => .crashed
      | exit => replay zone db envelopeId (next exit)

/-- The versions that the handler names are rows of the database. -/
def Named (zone : Zone) (db : Database) : Text → Handler ε ν → Prop
  | _, .ended _ => True
  | envelopeId, .get scope key (some configVersion) next =>
      configVersion ∈ db.configVersions.map ConfigVersion.id ∧
        Named zone db envelopeId (next (pinnedAnswer zone db scope key configVersion))
  | envelopeId, .get scope key none next =>
      Named zone db envelopeId (next (refusedAnswer envelopeId scope key))
  | envelopeId, .pinnedScope inner body next => Named zone db inner body ∧
      (replay zone db inner body ≠ .crashed → Named zone db envelopeId (next (replay zone db inner body)))

end Handlers

def frozenColumns (row : ConfigVersion) : ConfigVersion := { row with supersededBy := none }

def Kept (db db' : Database) : Prop :=
  db.configVersions.map frozenColumns ⊆ db'.configVersions.map frozenColumns

def AnswersFor (zone : Zone) (db : Database) (scope key configVersion : Text) (value : ConfigResponse) : Prop :=
  ∃ row ∈ db.configVersions, row.id = configVersion ∧ row.scope = scope ∧ row.key = key ∧
    value = asResponse zone row

def PinsFaithful (zone : Zone) (db : Database) (client : ConfigClient) : Prop :=
  ∀ scope key configVersion value,
    client.pinnedCache (scope, key, configVersion) = some value →
      AnswersFor zone db scope key configVersion value

structure Faithful (s : Processes) : Prop where
  ids : (s.db.configVersions.map ConfigVersion.id).Nodup
  pins : ∀ process, PinsFaithful s.zone s.db (s.clients process)

section Rows

variable {zone : Zone} {db db' db'' : Database} {scope key configVersion : Text} {value : ConfigResponse}

theorem Kept.refl (db : Database) : Kept db db := List.Subset.refl _

theorem Kept.trans (h : Kept db db') (h' : Kept db' db'') : Kept db db'' := List.Subset.trans h h'

theorem Kept.row (h : Kept db db') {row : ConfigVersion} (hrow : row ∈ db.configVersions) :
    ∃ row' ∈ db'.configVersions, row'.id = row.id ∧ row'.scope = row.scope ∧ row'.key = row.key ∧
      asResponse zone row' = asResponse zone row := by
  obtain ⟨row', hrow', hsame⟩ := List.mem_map.mp (h (List.mem_map_of_mem hrow))
  have hid := congrArg ConfigVersion.id hsame
  have hscope := congrArg ConfigVersion.scope hsame
  have hkey := congrArg ConfigVersion.key hsame
  have hanswer := congrArg (asResponse zone) hsame
  exact ⟨row', hrow', hid, hscope, hkey, hanswer⟩

theorem AnswersFor.kept (h : AnswersFor zone db scope key configVersion value) (hkept : Kept db db') :
    AnswersFor zone db' scope key configVersion value := by
  obtain ⟨row, hrow, hid, hscope, hkey, hvalue⟩ := h
  obtain ⟨row', hrow', hid', hscope', hkey', hanswer⟩ := hkept.row hrow
  exact ⟨row', hrow', hid'.trans hid, hscope'.trans hscope, hkey'.trans hkey,
    hvalue.trans hanswer.symm⟩

theorem pinnedAnswer_of_mem (hids : (db.configVersions.map ConfigVersion.id).Nodup)
    {row : ConfigVersion} (hrow : row ∈ db.configVersions) :
    pinnedAnswer zone db scope key row.id =
      if row.scope ≠ scope ∨ row.key ≠ key then
        .raised (.fetchError (.configNotFound scope key (some row.id)))
      else .returned (asResponse zone row) := by
  unfold pinnedAnswer
  rw [Rows.find?_of_mem hids hrow]

theorem AnswersFor.pinnedAnswer (h : AnswersFor zone db scope key configVersion value)
    (hids : (db.configVersions.map ConfigVersion.id).Nodup) :
    pinnedAnswer zone db scope key configVersion = .returned value := by
  obtain ⟨row, hrow, rfl, rfl, rfl, rfl⟩ := h
  rw [pinnedAnswer_of_mem hids hrow, if_neg (by simp)]

theorem answersFor_of_pinnedAnswer
    (h : pinnedAnswer zone db scope key configVersion = .returned value) :
    AnswersFor zone db scope key configVersion value := by
  unfold Config.pinnedAnswer at h
  split at h
  case h_1 row hfound =>
    split at h
    case isTrue => cases h
    case isFalse hown =>
      obtain ⟨hscope, hkey⟩ := not_or.mp hown
      cases h
      exact ⟨row, List.mem_of_find?_eq_some hfound, Rows.find?_key hfound, not_not.mp hscope,
        not_not.mp hkey, rfl⟩
  case h_2 => cases h

theorem Kept.pinnedAnswer (h : Kept db db')
    (hids : (db.configVersions.map ConfigVersion.id).Nodup)
    (hids' : (db'.configVersions.map ConfigVersion.id).Nodup)
    (hnamed : configVersion ∈ db.configVersions.map ConfigVersion.id) :
    pinnedAnswer zone db' scope key configVersion = pinnedAnswer zone db scope key configVersion := by
  obtain ⟨row, hrow, rfl⟩ := List.mem_map.mp hnamed
  obtain ⟨row', hrow', hid, hscope, hkey, hanswer⟩ := h.row hrow
  rw [pinnedAnswer_of_mem hids hrow, ← hid, pinnedAnswer_of_mem hids' hrow', hscope, hkey, hanswer]

theorem getPinnedConfig_found (scope key : Text) {row : ConfigVersion}
    (hfound : (db.configVersions.find? fun row => row.id = configVersion) = some row) :
    getPinnedConfig scope key configVersion db =
      if row.scope ≠ scope ∨ row.key ≠ key then
        (.raised (.configNotFound scope key (some configVersion)), db)
      else (.returned row, db) := by
  rw [getPinnedConfig, Fallible.read_bind, hfound]
  dsimp only
  split
  · rfl
  · rfl

theorem getPinnedConfig_missing
    (hfound : (db.configVersions.find? fun row => row.id = configVersion) = none) :
    getPinnedConfig scope key configVersion db =
      (.raised (.configNotFound scope key (some configVersion)), db) := by
  rw [getPinnedConfig, Fallible.read_bind, hfound]
  rfl

theorem fetchValue_pinned (now : Instant) (client : ConfigClient) :
    fetchValue (fetchFrom zone db now) scope key (some configVersion) client =
      (pinnedAnswer zone db scope key configVersion, client) := by
  simp only [fetchValue, fetchFrom, fetchConfig, pinnedAnswer]
  cases hfound : db.configVersions.find? fun row => row.id = configVersion with
  | none => rw [Fallible.bind_raised (getPinnedConfig_missing hfound)]
  | some row =>
    have hpinned := getPinnedConfig_found scope key hfound
    dsimp only
    by_cases hother : row.scope ≠ scope ∨ row.key ≠ key
    · rw [if_pos hother] at hpinned ⊢
      rw [Fallible.bind_raised hpinned]
    · rw [if_neg hother] at hpinned ⊢
      rw [Fallible.bind_returned hpinned]
      rfl

end Rows

section Reads

variable {zone : Zone} {db : Database} {client : ConfigClient} {now : Instant} {clock cachedAt : Rat}
  {scope key : Text}

theorem PinsFaithful.kept {db' : Database} (h : PinsFaithful zone db client) (hkept : Kept db db') :
    PinsFaithful zone db' client := by
  intro scope key configVersion value hvalue
  exact (h scope key configVersion value hvalue).kept hkept

theorem PinsFaithful.cachePinned {configVersion : Text} {value : ConfigResponse}
    (h : PinsFaithful zone db client) (hvalue : AnswersFor zone db scope key configVersion value) :
    PinsFaithful zone db (cachePinned scope key configVersion value client) := by
  intro scope' key' configVersion' value' hcached
  simp only [Config.cachePinned, Function.update_apply] at hcached
  split at hcached
  case isTrue hsame =>
    cases hsame
    cases hcached
    exact hvalue
  case isFalse => exact h scope' key' configVersion' value' hcached

theorem PinsFaithful.warmPinned {value : ConfigResponse} (h : PinsFaithful zone db client)
    (hvalue : AnswersFor zone db scope key value.configVersion value) :
    PinsFaithful zone db (warmPinned scope key value client) := by
  unfold Config.warmPinned
  split
  · exact h
  · exact h.cachePinned hvalue

theorem getPinned_answer (hids : (db.configVersions.map ConfigVersion.id).Nodup)
    (h : PinsFaithful zone db client) (configVersion : Text) :
    (getPinned (fetchFrom zone db now) scope key configVersion client).1 =
        pinnedAnswer zone db scope key configVersion ∧
      PinsFaithful zone db (getPinned (fetchFrom zone db now) scope key configVersion client).2 := by
  unfold getPinned
  rw [Fallible.read_bind]
  cases hcached : client.pinnedCache (scope, key, configVersion) with
  | some value =>
    exact ⟨((h scope key configVersion value hcached).pinnedAnswer hids).symm, h⟩
  | none =>
    dsimp only
    have hfetch : fetchValue (fetchFrom zone db now) scope key (some configVersion) client =
        (pinnedAnswer zone db scope key configVersion, client) := fetchValue_pinned now client
    cases hanswer : pinnedAnswer zone db scope key configVersion with
    | returned value =>
      rw [hanswer] at hfetch
      rw [Fallible.bind_returned hfetch]
      exact ⟨rfl, h.cachePinned (answersFor_of_pinnedAnswer hanswer)⟩
    | raised error =>
      rw [hanswer] at hfetch
      rw [Fallible.bind_raised hfetch]
      exact ⟨rfl, h⟩
    | crashed =>
      rw [hanswer] at hfetch
      rw [Fallible.bind_crashed hfetch]
      exact ⟨rfl, h⟩

/-- Outside a scope an unpinned read may cache a version, with the answer of its row. -/
theorem getEffective_pins (h : PinsFaithful zone db client) : PinsFaithful zone db
    (getEffective (fetchFrom zone db now) none clock cachedAt scope key client).2 := by
  cases hlive : liveEntry client clock scope key with
  | some entry =>
    rw [getEffective_cached hlive]
    exact h
  | none =>
    by_cases hfetch : ∃ value, fetchFrom zone db now scope key none = .returned value
    · obtain ⟨value, hvalue⟩ := hfetch
      obtain ⟨row, hrow, rfl⟩ := fetchFrom_returned.mp hvalue
      rw [getEffective_fetched hlive hvalue]
      have hmem := (effectiveRow_mem hrow).1
      obtain ⟨hscope, hkey⟩ := of_decide_eq_true (List.mem_filter.mp hmem).2
      apply @PinsFaithful.warmPinned _ _ (cacheEffective scope key _ client) _ _ _ h
      exact ⟨row, List.mem_of_mem_filter hmem, rfl, hscope, hkey, rfl⟩
    · have hunchanged : ∀ value, fetchFrom zone db now scope key none ≠ .returned value :=
        fun value hvalue => hfetch ⟨value, hvalue⟩
      rw [getEffective_failed hlive hunchanged, fetchValue]
      split
      · exact h
      · exact h
      · exact h

theorem PinsFaithful.drainOnce (h : PinsFaithful zone db client)
    (payloads : List (List (Text × Text))) : PinsFaithful zone db (drainOnce payloads client).2 :=
  (preserves_drainOnce (fun _ _ _ hclient => hclient) payloads).world h

end Reads

section Writes

variable {db db' : Database}

theorem kept_written {write : ConfigWrite} {stamps : ConfigStamps}
    (h : commit (writeConfigVersion write stamps) db = some db') :
    Kept db db' ∧ ((db.configVersions.map ConfigVersion.id).Nodup →
      (db'.configVersions.map ConfigVersion.id).Nodup) := by
  rcases writeConfigVersion_cases h with ⟨rfl, -⟩ | ⟨-, hreturned⟩
  · exact ⟨Kept.refl db', id⟩
  · have hrows := (configVersions_written hreturned write.scope write.key).1
    obtain ⟨-, -, hfresh, -⟩ := writeConfigVersion_returned hreturned
    constructor
    · unfold Kept
      rw [hrows, map_written fun _ _ => rfl]
      exact List.subset_append_left _ _
    · intro hids
      rw [hrows, map_written fun _ _ => rfl]
      exact List.Nodup.append hids (List.nodup_singleton _) (List.disjoint_singleton.mpr hfresh)

/-- An update that the trigger lets through changes no column but `superseded_by`. -/
theorem frozenColumns_of_not_rejected {old new : ConfigVersion}
    (h : ¬ rejectConfigVersionUpdate old new) : frozenColumns new = frozenColumns old := by
  simp only [rejectConfigVersionUpdate, not_or, not_not] at h
  obtain ⟨hid, hscope, hkey, hvalue, hdate, hauthor, happrover⟩ := h
  simp only [frozenColumns, hid, hscope, hkey, hvalue, hdate, hauthor, happrover]

theorem map_updateConfigVersion (id : Text) (new : ConfigVersion) :
    (updateConfigVersion id new db).configVersions.map frozenColumns =
      db.configVersions.map frozenColumns := by
  unfold updateConfigVersion
  rw [List.map_map]
  apply List.map_congr_left
  intro old _
  dsimp only [Function.comp_apply]
  split
  case isTrue hlet => exact frozenColumns_of_not_rejected hlet.2
  case isFalse => rfl

theorem map_id_of_frozen (h : db'.configVersions.map frozenColumns =
    db.configVersions.map frozenColumns) :
    db'.configVersions.map ConfigVersion.id = db.configVersions.map ConfigVersion.id := by
  have hids := congrArg (List.map ConfigVersion.id) h
  rw [List.map_map, List.map_map] at hids
  exact hids

end Writes

section Serving

variable {s : Processes}

theorem Faithful.withClient (h : Faithful s) (process : Nat) {client : ConfigClient}
    (hclient : PinsFaithful s.zone s.db client) : Faithful (withClient process client s) where
  ids := h.ids
  pins := by
    intro other
    dsimp only [Config.withClient]
    rw [Function.update_apply]
    split
    · exact hclient
    · exact h.pins other

theorem Faithful.moved (h : Faithful s) {db : Database} (hkept : Kept s.db db)
    (hids : (db.configVersions.map ConfigVersion.id).Nodup) : Faithful { s with db } where
  ids := hids
  pins := fun process => (h.pins process).kept hkept

theorem Faithful.serve (h : Faithful s) (request : ConfigRequest) :
    Kept s.db (request.serve s).2.db ∧ Faithful (request.serve s).2 := by
  cases request with
  | get process pinnedEnvelope scope key configVersion =>
    refine ⟨Kept.refl s.db, h.withClient process ?_⟩
    cases configVersion with
    | some configVersion => exact (getPinned_answer h.ids (h.pins process) configVersion).2
    | none =>
      cases pinnedEnvelope with
      | some envelopeId => exact h.pins process
      | none => exact getEffective_pins (h.pins process)
  | deliver process payloads =>
    exact ⟨Kept.refl s.db, h.withClient process ((h.pins process).drainOnce payloads)⟩
  | write call stamps =>
    dsimp only [ConfigRequest.serve]
    cases hdb : commit (writeConfigVersion call stamps) s.db with
    | none => exact ⟨Kept.refl s.db, h⟩
    | some db =>
      obtain ⟨hkept, hids⟩ := kept_written hdb
      exact ⟨hkept, h.moved hkept (hids h.ids)⟩
  | update id row =>
    have hrows := @map_updateConfigVersion s.db id row
    have hkept : Kept s.db (updateConfigVersion id row s.db) := by
      unfold Kept
      rw [hrows]
      exact List.Subset.refl _
    refine ⟨hkept, h.moved hkept ?_⟩
    rw [map_id_of_frozen hrows]
    exact h.ids
  | tick now clock fetchedClock => exact ⟨Kept.refl s.db, h.ids, h.pins⟩

end Serving

end LandRecords.Config
