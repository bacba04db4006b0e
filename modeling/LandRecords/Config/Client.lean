import LandRecords.Config.Versions
import Mathlib

/-! The client's caches. The value in effect is cached until a version-change event
or, where there is one, the time to live; a pinned value is cached forever. -/
namespace LandRecords.Config

open Backend Datetime Text

structure EffectiveCacheEntry where
  value : ConfigResponse
  cachedAt : Rat

structure ConfigClient where
  ttlSeconds : Option Rat := some 300
  pinnedCache : Text × Text × Text → Option ConfigResponse := fun _ => none
  effectiveCache : Text × Text → Option EffectiveCacheEntry := fun _ => none

inductive ClientError
  | liveResolutionInsidePinnedScope (what envelopeId : Text)
  | fetchError (error : Error)
  | keyError (field : Text)
deriving DecidableEq

abbrev Client := Fallible ConfigClient ClientError

/-- `fetch(scope, key, config_version)`. -/
abbrev FetchFn := Text → Text → Option Text → Exit Error ConfigResponse

def fetchValue (fetch : FetchFn) (scope key : Text) (configVersion : Option Text) :
    Client ConfigResponse := fun client =>
  match fetch scope key configVersion with
  | .returned value => (.returned value, client)
  | .raised e => (.raised (.fetchError e), client)
  | .crashed => (.crashed, client)

def guardResolveActive (what : Text) (pinnedEnvelope : Option Text) : Client Unit :=
  match pinnedEnvelope with
  | some envelopeId => Fallible.raise (.liveResolutionInsidePinnedScope what envelopeId)
  | none => return ()

def expired (client : ConfigClient) (clock : Rat) (entry : EffectiveCacheEntry) : Bool :=
  match client.ttlSeconds with
  | none => false
  | some ttl => ttl ≤ clock - entry.cachedAt

def liveEntry (client : ConfigClient) (clock : Rat) (scope key : Text) :
    Option EffectiveCacheEntry :=
  (client.effectiveCache (scope, key)).filter fun entry => !expired client clock entry

def cachePinned (scope key configVersion : Text) (value : ConfigResponse) (client : ConfigClient) :
    ConfigClient :=
  { client with
    pinnedCache := Function.update client.pinnedCache (scope, key, configVersion) (some value) }

def cacheEffective (scope key : Text) (entry : EffectiveCacheEntry) (client : ConfigClient) :
    ConfigClient :=
  { client with
    effectiveCache := Function.update client.effectiveCache (scope, key) (some entry) }

/-- `setdefault` on the pinned cache. -/
def warmPinned (scope key : Text) (value : ConfigResponse) (client : ConfigClient) : ConfigClient :=
  match client.pinnedCache (scope, key, value.configVersion) with
  | some _ => client
  | none => cachePinned scope key value.configVersion value client

def getPinned (fetch : FetchFn) (scope key configVersion : Text) : Client ConfigResponse := do
  match ← Fallible.read fun client => client.pinnedCache (scope, key, configVersion) with
  | some value => return value
  | none =>
      let value ← fetchValue fetch scope key (some configVersion)
      Fallible.write (cachePinned scope key configVersion value)
      return value

def getEffective (fetch : FetchFn) (pinnedEnvelope : Option Text) (clock cachedAt : Rat)
    (scope key : Text) : Client ConfigResponse := do
  guardResolveActive ("config:".toList ++ scope ++ '.' :: key) pinnedEnvelope
  match ← Fallible.read fun client => liveEntry client clock scope key with
  | some entry => return entry.value
  | none =>
      let value ← fetchValue fetch scope key none
      Fallible.write (cacheEffective scope key ⟨value, cachedAt⟩)
      Fallible.write (warmPinned scope key value)
      return value

def get (fetch : FetchFn) (pinnedEnvelope : Option Text) (clock cachedAt : Rat)
    (scope key : Text) : Option Text → Client ConfigResponse
  | some configVersion => getPinned fetch scope key configVersion
  | none => getEffective fetch pinnedEnvelope clock cachedAt scope key

def invalidate (scope key : Text) (client : ConfigClient) : ConfigClient :=
  { client with effectiveCache := Function.update client.effectiveCache (scope, key) none }

def payloadField (payload : List (Text × Text)) (field : Text) : Client Text :=
  match payload.lookup field with
  | some value => return value
  | none => Fallible.raise (.keyError field)

def handleVersionChangeEvent (payload : List (Text × Text)) : Client Unit := do
  let scope ← payloadField payload "scope".toList
  let key ← payloadField payload "key".toList
  Fallible.write (invalidate scope key)

def handleAll : List (List (Text × Text)) → Client Unit
  | [] => return ()
  | payload :: rest => do
      handleVersionChangeEvent payload
      handleAll rest

def drainOnce (messages : List (List (Text × Text))) : Client Nat := do
  handleAll messages
  return messages.length

/-- A `fetch` that reads the backend's tables, in a session of the zone. -/
def fetchConfig (zone : Zone) (scope key : Text) (now : Instant) : Option Text → Session ConfigResponse
  | none => do return asResponse zone (← getEffectiveConfig scope key now)
  | some configVersion => do return asResponse zone (← getPinnedConfig scope key configVersion)

def fetchFrom (zone : Zone) (db : Database) (now : Instant) : FetchFn := fun scope key configVersion =>
  (fetchConfig zone scope key now configVersion db).1

section Returned

variable {fetch : FetchFn} {client client' : ConfigClient} {clock cachedAt : Rat}
  {scope key : Text}

theorem handleVersionChangeEvent_built (row : ConfigVersion) (client : ConfigClient) :
    handleVersionChangeEvent (buildVersionChangeEvent row) client =
      (.returned (), invalidate row.scope row.key client) := rfl

theorem invalidate_effectiveCache (scope' key' : Text) :
    (invalidate scope key client).effectiveCache (scope', key') =
      if scope = scope' ∧ key = key' then none else client.effectiveCache (scope', key') := by
  simp only [invalidate, Function.update_apply, Prod.mk.injEq, eq_comm]

theorem cacheEffective_effectiveCache (entry : EffectiveCacheEntry) (scope' key' : Text) :
    (cacheEffective scope key entry client).effectiveCache (scope', key') =
      if scope = scope' ∧ key = key' then some entry else client.effectiveCache (scope', key') := by
  simp only [cacheEffective, Function.update_apply, Prod.mk.injEq, eq_comm]

theorem warmPinned_effectiveCache (value : ConfigResponse) :
    (warmPinned scope key value client).effectiveCache = client.effectiveCache ∧
      (warmPinned scope key value client).ttlSeconds = client.ttlSeconds := by
  unfold warmPinned
  split
  · exact ⟨rfl, rfl⟩
  · exact ⟨rfl, rfl⟩

theorem handleAll_built (rows : List ConfigVersion) (client : ConfigClient) : ∃ drained,
    handleAll (rows.map buildVersionChangeEvent) client = (.returned (), drained) ∧
      drained.ttlSeconds = client.ttlSeconds ∧
      ∀ scope key, drained.effectiveCache (scope, key) =
        if ∃ row ∈ rows, row.scope = scope ∧ row.key = key then none
        else client.effectiveCache (scope, key) := by
  induction rows generalizing client with
  | nil => exact ⟨client, rfl, rfl, fun scope key => by simp⟩
  | cons row rest ih =>
    obtain ⟨drained, hdrained, httl, hcache⟩ := ih (invalidate row.scope row.key client)
    refine ⟨drained, ?_, httl, fun scope key => ?_⟩
    · rw [List.map_cons, handleAll]
      rw [Fallible.bind_returned (handleVersionChangeEvent_built row client)]
      exact hdrained
    · rw [hcache scope key, invalidate_effectiveCache]
      by_cases hrest : ∃ other ∈ rest, other.scope = scope ∧ other.key = key
      · obtain ⟨other, hother, hown⟩ := hrest
        rw [if_pos ⟨other, hother, hown⟩, if_pos ⟨other, List.mem_cons_of_mem _ hother, hown⟩]
      · rw [if_neg hrest]
        simp only [List.exists_mem_cons_iff, hrest, or_false]

theorem drainOnce_built (rows : List ConfigVersion) (client : ConfigClient) : ∃ drained,
    drainOnce (rows.map buildVersionChangeEvent) client = (.returned rows.length, drained) ∧
      drained.ttlSeconds = client.ttlSeconds ∧
      ∀ scope key, drained.effectiveCache (scope, key) =
        if ∃ row ∈ rows, row.scope = scope ∧ row.key = key then none
        else client.effectiveCache (scope, key) := by
  obtain ⟨drained, hdrained, hkept⟩ := handleAll_built rows client
  refine ⟨drained, ?_, hkept⟩
  rw [drainOnce, Fallible.bind_returned hdrained, List.length_map]
  rfl

theorem preserves_drainOnce {I : ConfigClient → Prop}
    (h : ∀ scope key client, I client → I (invalidate scope key client))
    (payloads : List (List (Text × Text))) : Fallible.Preserves I (drainOnce payloads) := by
  have hfield : ∀ payload field, Fallible.Preserves I (payloadField payload field) := by
    intro payload field
    unfold payloadField
    cases payload.lookup field with
    | some value => exact Fallible.preserves_pure value
    | none => exact Fallible.triple_raise fun _ hclient => hclient
  have hall : Fallible.Preserves I (handleAll payloads) := by
    induction payloads with
    | nil => exact Fallible.preserves_pure ()
    | cons payload rest ih =>
      apply Fallible.preserves_bind _ fun _ => ih
      apply Fallible.preserves_bind (hfield payload _)
      intro scope
      apply Fallible.preserves_bind (hfield payload _)
      intro key client hclient
      exact h scope key client hclient
  exact Fallible.preserves_bind hall fun _ => Fallible.preserves_pure _

theorem getEffective_apply : getEffective fetch none clock cachedAt scope key client =
    (match liveEntry client clock scope key with
      | some entry => return entry.value
      | none => do
          let value ← fetchValue fetch scope key none
          Fallible.write (cacheEffective scope key ⟨value, cachedAt⟩)
          Fallible.write (warmPinned scope key value)
          return value : Client ConfigResponse) client := rfl

theorem getEffective_cached {entry : EffectiveCacheEntry}
    (h : liveEntry client clock scope key = some entry) :
    getEffective fetch none clock cachedAt scope key client = (.returned entry.value, client) := by
  rw [getEffective_apply, h]
  rfl

theorem getEffective_fetched {value : ConfigResponse}
    (h : liveEntry client clock scope key = none) (hfetch : fetch scope key none = .returned value) :
    getEffective fetch none clock cachedAt scope key client = (.returned value,
      warmPinned scope key value (cacheEffective scope key ⟨value, cachedAt⟩ client)) := by
  have hvalue : fetchValue fetch scope key none client = (.returned value, client) := by
    rw [fetchValue, hfetch]
  rw [getEffective_apply, h]
  exact Fallible.bind_returned hvalue

theorem getEffective_failed (h : liveEntry client clock scope key = none)
    (hfetch : ∀ value, fetch scope key none ≠ .returned value) :
    getEffective fetch none clock cachedAt scope key client =
      fetchValue fetch scope key none client := by
  rw [getEffective_apply, h]
  dsimp only
  cases hvalue : fetch scope key none with
  | returned value => exact absurd hvalue (hfetch value)
  | raised e =>
    have hraised : fetchValue fetch scope key none client = (.raised (.fetchError e), client) := by
      rw [fetchValue, hvalue]
    rw [Fallible.bind_raised hraised, hraised]
  | crashed =>
    have hcrashed : fetchValue fetch scope key none client = (.crashed, client) := by
      rw [fetchValue, hvalue]
    rw [Fallible.bind_crashed hcrashed, hcrashed]

theorem getPinned_effectiveCache (configVersion : Text) :
    (getPinned fetch scope key configVersion client).2.effectiveCache = client.effectiveCache ∧
      (getPinned fetch scope key configVersion client).2.ttlSeconds = client.ttlSeconds := by
  unfold getPinned
  rw [Fallible.read_bind]
  cases client.pinnedCache (scope, key, configVersion) with
  | some value => exact ⟨rfl, rfl⟩
  | none =>
    dsimp only
    cases hvalue : fetch scope key (some configVersion) with
    | returned value =>
      have hfetched : fetchValue fetch scope key (some configVersion) client =
          (.returned value, client) := by
        rw [fetchValue, hvalue]
      rw [Fallible.bind_returned hfetched]
      exact ⟨rfl, rfl⟩
    | raised e =>
      have hraised : fetchValue fetch scope key (some configVersion) client =
          (.raised (.fetchError e), client) := by
        rw [fetchValue, hvalue]
      rw [Fallible.bind_raised hraised]
      exact ⟨rfl, rfl⟩
    | crashed =>
      have hcrashed : fetchValue fetch scope key (some configVersion) client =
          (.crashed, client) := by
        rw [fetchValue, hvalue]
      rw [Fallible.bind_crashed hcrashed]
      exact ⟨rfl, rfl⟩

end Returned

end LandRecords.Config
