import LandRecords.Config.Client
import LandRecords.Config.Lineage
import Mathlib

/-! Freshness of the client cache without a time to live. Events drop a cached value
when its key is written, but a version that was written for a later date becomes
effective by the passing of time, and no event tells the client. -/
namespace LandRecords.Config

open Backend Audit Datetime Text

structure Deployment where
  /-- The time zone of the database sessions. -/
  zone : Zone := utc
  db : Database
  now : Instant
  client : ConfigClient
  /-- The outbox messages whose events the client has handled. -/
  handled : List Text
  /-- When the cached value of a key was fetched. -/
  fetchedAt : Text × Text → Instant

inductive DeploymentStep
  | write (write : ConfigWrite) (stamps : ConfigStamps)
  | deliver (messages : List OutboxMessage)
  | read (scope key : Text) (configVersion : Option Text) (clock cachedAt : Rat)
  | advance (now : Instant)

def deploymentStep (s : Deployment) : DeploymentStep → Option Deployment
  | .write write stamps => (commit (writeConfigVersion write stamps) s.db).map fun db =>
      { s with db := db }
  | .deliver messages =>
      if ∀ message ∈ messages, message ∈ s.db.outboxMessages then
        some { s with
          client := (drainOnce (messages.map OutboxMessage.envelope) s.client).2
          handled := s.handled ++ messages.map OutboxMessage.id }
      else none
  | .read scope key configVersion clock cachedAt =>
      some { s with
        client := (get (fetchFrom s.zone s.db s.now) none clock cachedAt scope key configVersion s.client).2
        fetchedAt :=
          if configVersion = none ∧ (liveEntry s.client clock scope key).isNone then
            Function.update s.fetchedAt (scope, key) s.now
          else s.fetchedAt }
  | .advance now => if s.now ≤ now then some { s with now := now } else none

def AllHandled (s : Deployment) : Prop :=
  ∀ message ∈ s.db.outboxMessages, message.id ∈ s.handled

/-- Once all events are handled, a read answers like a fetch at the current time. -/
def ServesCurrent (s : Deployment) : Prop :=
  AllHandled s → ∀ scope key clock cachedAt,
    (get (fetchFrom s.zone s.db s.now) none clock cachedAt scope key none s.client).1 =
      (fetchValue (fetchFrom s.zone s.db s.now) scope key none s.client).1

def BecameEffective (db : Database) (scope key : Text) (since upTo : Instant) : Prop :=
  ∃ row ∈ versionsOf db scope key, since < row.effectiveFrom ∧ row.effectiveFrom ≤ upTo

def Concerns (message : OutboxMessage) (scope key : Text) : Prop :=
  message.envelope.lookup "scope".toList = some scope ∧
    message.envelope.lookup "key".toList = some key

def Cached (s : Deployment) (scope key : Text) : Prop :=
  s.client.effectiveCache (scope, key) ≠ none

/-- No version of a cached key becomes effective while no event is outstanding, and
the last outstanding events leave no value cached that has been replaced by then. -/
def NothingLapses (s : Deployment) : DeploymentStep → Prop
  | .advance now => AllHandled s → ∀ scope key, Cached s scope key →
      ¬ BecameEffective s.db scope key s.now now
  | .deliver messages =>
      (∀ message ∈ s.db.outboxMessages, message.id ∈ s.handled ∨
        message.id ∈ messages.map OutboxMessage.id) →
      ∀ scope key, Cached s scope key → (∀ message ∈ messages, ¬ Concerns message scope key) →
        ¬ BecameEffective s.db scope key (s.fetchedAt (scope, key)) s.now
  | _ => True

structure Coherent (s : Deployment) : Prop where
  versioned : Versioned s.db
  ttl : s.client.ttlSeconds = none
  messageKeys : (s.db.outboxMessages.map OutboxMessage.id).Nodup
  built : ∀ message ∈ s.db.outboxMessages, ∃ row, message.envelope = buildVersionChangeEvent row
  known : ∀ id ∈ s.handled, id ∈ s.db.outboxMessages.map OutboxMessage.id
  cached : ∀ scope key entry, s.client.effectiveCache (scope, key) = some entry →
    (∃ message ∈ s.db.outboxMessages, Concerns message scope key ∧ message.id ∉ s.handled) ∨
    (s.fetchedAt (scope, key) ≤ s.now ∧ ∃ row,
      effectiveRow s.db scope key (s.fetchedAt (scope, key)) = some row ∧
        entry.value = asResponse s.zone row)

def Current (s : Deployment) : Prop :=
  AllHandled s → ∀ scope key, Cached s scope key →
    ¬ BecameEffective s.db scope key (s.fetchedAt (scope, key)) s.now

section Reads

variable {s : Deployment} {zone : Zone} {db : Database} {scope key : Text} {since upTo now : Instant}

theorem fetchFrom_returned {value : ConfigResponse} :
    fetchFrom zone db now scope key none = .returned value ↔
      ∃ row, effectiveRow db scope key now = some row ∧ value = asResponse zone row := by
  simp only [fetchFrom, fetchConfig]
  cases hrow : effectiveRow db scope key now with
  | some row =>
    rw [Fallible.bind_returned (getEffectiveConfig_returned.mpr hrow)]
    simp [Fallible.pure_apply, eq_comm]
  | none =>
    have hraised : getEffectiveConfig scope key now db =
        (.raised (.configNotFound scope key none), db) := by
      rw [getEffectiveConfig, Fallible.read_bind, hrow]
      rfl
    rw [Fallible.bind_raised hraised]
    simp

theorem effectiveRow_of_unchanged (hle : since ≤ upTo)
    (h : ¬ BecameEffective db scope key since upTo) :
    effectiveRow db scope key upTo = effectiveRow db scope key since := by
  unfold effectiveRow
  congr 1
  apply List.filter_congr
  intro row hrow
  rw [decide_eq_decide]
  constructor
  · intro hdate
    by_contra hlater
    exact h ⟨row, hrow, not_le.mp hlater, hdate⟩
  · exact fun hdate => le_trans hdate hle

/-- A row that was in effect before a version became effective is not any more. -/
theorem effectiveRow_of_became {row : ConfigVersion}
    (h : BecameEffective db scope key since upTo) (hrow : effectiveRow db scope key since = some row) :
    effectiveRow db scope key upTo ≠ some row := by
  obtain ⟨other, hother, hlater, hdate⟩ := h
  intro hstill
  have hgreatest := effectiveRow_greatest hstill hother hdate
  exact absurd (lt_of_lt_of_le hlater hgreatest) (not_lt_of_ge (effectiveRow_mem hrow).2)

theorem becameEffective_split (hle : since ≤ upTo) (hlater : upTo ≤ now) :
    BecameEffective db scope key since now ↔
      BecameEffective db scope key since upTo ∨ BecameEffective db scope key upTo now := by
  constructor
  · rintro ⟨row, hrow, hsince, hnow⟩
    rcases le_or_gt row.effectiveFrom upTo with hbefore | hafter
    · exact .inl ⟨row, hrow, hsince, hbefore⟩
    · exact .inr ⟨row, hrow, hafter, hnow⟩
  · rintro (⟨row, hrow, hsince, hbefore⟩ | ⟨row, hrow, hafter, hnow⟩)
    · exact ⟨row, hrow, hsince, le_trans hbefore hlater⟩
    · exact ⟨row, hrow, lt_of_le_of_lt hle hafter, hnow⟩

theorem liveEntry_eq (h : Coherent s) (clock : Rat) :
    liveEntry s.client clock scope key = s.client.effectiveCache (scope, key) := by
  unfold liveEntry expired
  rw [h.ttl]
  cases s.client.effectiveCache (scope, key) with
  | none => rfl
  | some entry => rfl

theorem Coherent.fetched (h : Coherent s) (hall : AllHandled s) {entry : EffectiveCacheEntry}
    (hentry : s.client.effectiveCache (scope, key) = some entry) :
    s.fetchedAt (scope, key) ≤ s.now ∧ ∃ row,
      effectiveRow s.db scope key (s.fetchedAt (scope, key)) = some row ∧
        entry.value = asResponse s.zone row := by
  rcases h.cached scope key entry hentry with ⟨message, hmessage, -, hunhandled⟩ | hfetched
  · exact absurd (hall message hmessage) hunhandled
  · exact hfetched

/-- Reads answer like fetches exactly while nothing cached has been replaced. -/
theorem servesCurrent_iff (h : Coherent s) : ServesCurrent s ↔ Current s := by
  constructor
  · intro hserves hall scope key hcached hbecame
    obtain ⟨entry, hentry⟩ := Option.ne_none_iff_exists'.mp hcached
    obtain ⟨-, row, hrow, hvalue⟩ := h.fetched hall hentry
    have hread := hserves hall scope key 0 0
    have hlive : liveEntry s.client 0 scope key = some entry := (liveEntry_eq h 0).trans hentry
    rw [get, getEffective_cached hlive] at hread
    cases hfetch : fetchFrom s.zone s.db s.now scope key none with
    | raised e =>
      rw [fetchValue, hfetch] at hread
      cases hread
    | crashed =>
      rw [fetchValue, hfetch] at hread
      cases hread
    | returned value =>
      rw [fetchValue, hfetch] at hread
      obtain ⟨other, hother, hresponse⟩ := fetchFrom_returned.mp hfetch
      have hvalues : asResponse s.zone row = asResponse s.zone other := by
        rw [← hvalue, ← hresponse]
        exact Exit.returned.inj hread
      have hsame : row = other := h.versioned.eq_of_id (effectiveRow_mem hrow).1
        (effectiveRow_mem hother).1 (congrArg ConfigResponse.configVersion hvalues)
      exact effectiveRow_of_became hbecame hrow (hsame ▸ hother)
  · intro hcurrent hall scope key clock cachedAt
    rw [get]
    cases hlive : liveEntry s.client clock scope key with
    | none =>
      by_cases hfetch : ∃ value, fetchFrom s.zone s.db s.now scope key none = .returned value
      · obtain ⟨value, hvalue⟩ := hfetch
        rw [getEffective_fetched hlive hvalue, fetchValue, hvalue]
      · rw [getEffective_failed hlive fun value hvalue => hfetch ⟨value, hvalue⟩]
    | some entry =>
      have hentry := (liveEntry_eq h clock).symm.trans hlive
      obtain ⟨hle, row, hrow, hvalue⟩ := h.fetched hall hentry
      have hkept := hcurrent hall scope key (by simp [Cached, hentry])
      have hfetch : fetchFrom s.zone s.db s.now scope key none = .returned (asResponse s.zone row) :=
        fetchFrom_returned.mpr ⟨row, (effectiveRow_of_unchanged hle hkept).trans hrow, rfl⟩
      rw [getEffective_cached hlive, fetchValue, hfetch, hvalue]

end Reads

section Steps

variable {s t : Deployment} {scope key : Text}

theorem concerns_built {message : OutboxMessage} {row : ConfigVersion}
    (h : message.envelope = buildVersionChangeEvent row) :
    Concerns message scope key ↔ row.scope = scope ∧ row.key = key := by
  unfold Concerns
  rw [h]
  constructor
  · rintro ⟨hscope, hkey⟩
    exact ⟨Option.some.inj hscope, Option.some.inj hkey⟩
  · rintro ⟨rfl, rfl⟩
    exact ⟨rfl, rfl⟩

theorem drainOnce_messages {messages : List OutboxMessage}
    (hbuilt : ∀ message ∈ messages, ∃ row, message.envelope = buildVersionChangeEvent row)
    (client : ConfigClient) :
    (drainOnce (messages.map OutboxMessage.envelope) client).2.ttlSeconds = client.ttlSeconds ∧
      ∀ scope key entry,
        (drainOnce (messages.map OutboxMessage.envelope) client).2.effectiveCache (scope, key) =
            some entry ↔
          client.effectiveCache (scope, key) = some entry ∧
            ∀ message ∈ messages, ¬ Concerns message scope key := by
  have hrange : messages.map OutboxMessage.envelope ∈
      Set.range (List.map buildVersionChangeEvent) := by
    rw [Set.range_list_map]
    intro envelope henvelope
    obtain ⟨message, hmessage, rfl⟩ := List.mem_map.mp henvelope
    obtain ⟨row, hrow⟩ := hbuilt message hmessage
    exact ⟨row, hrow.symm⟩
  obtain ⟨rows, hrows⟩ := hrange
  obtain ⟨drained, hdrained, httl, hcache⟩ := drainOnce_built rows client
  rw [← hrows, hdrained]
  refine ⟨httl, fun scope key entry => ?_⟩
  have hconcerned : (∃ row ∈ rows, row.scope = scope ∧ row.key = key) ↔
      ∃ message ∈ messages, Concerns message scope key := by
    constructor
    · rintro ⟨row, hrow, hown⟩
      have hmem : buildVersionChangeEvent row ∈ messages.map OutboxMessage.envelope :=
        hrows ▸ List.mem_map_of_mem hrow
      obtain ⟨message, hmessage, henvelope⟩ := List.mem_map.mp hmem
      exact ⟨message, hmessage, (concerns_built henvelope).mpr hown⟩
    · rintro ⟨message, hmessage, hconcerns⟩
      have hmem : message.envelope ∈ rows.map buildVersionChangeEvent :=
        hrows ▸ List.mem_map_of_mem hmessage
      obtain ⟨row, hrow, henvelope⟩ := List.mem_map.mp hmem
      exact ⟨row, hrow, (concerns_built henvelope.symm).mp hconcerns⟩
  rw [hcache scope key]
  by_cases hnone : ∃ message ∈ messages, Concerns message scope key
  · rw [if_pos (hconcerned.mpr hnone)]
    obtain ⟨message, hmessage, hconcerns⟩ := hnone
    constructor
    · exact fun h => nomatch h
    · exact fun h => absurd hconcerns (h.2 message hmessage)
  · rw [if_neg fun hrow => hnone (hconcerned.mp hrow)]
    push Not at hnone
    exact (and_iff_left hnone).symm

theorem get_effectiveCache (s : Deployment) (scope key : Text) (configVersion : Option Text)
    (clock cachedAt : Rat) :
    let client :=
      (get (fetchFrom s.zone s.db s.now) none clock cachedAt scope key configVersion s.client).2
    client.ttlSeconds = s.client.ttlSeconds ∧
      (client.effectiveCache = s.client.effectiveCache ∨
        ((configVersion = none ∧ (liveEntry s.client clock scope key).isNone) ∧
          ∃ row, effectiveRow s.db scope key s.now = some row ∧
            ∀ scope' key', client.effectiveCache (scope', key') =
              if scope = scope' ∧ key = key' then some ⟨asResponse s.zone row, cachedAt⟩
              else s.client.effectiveCache (scope', key'))) := by
  dsimp only
  cases configVersion with
  | some version =>
    have hpinned : (getPinned (fetchFrom s.zone s.db s.now) scope key version s.client).2.effectiveCache =
          s.client.effectiveCache ∧
        (getPinned (fetchFrom s.zone s.db s.now) scope key version s.client).2.ttlSeconds =
          s.client.ttlSeconds := getPinned_effectiveCache version
    exact ⟨hpinned.2, .inl hpinned.1⟩
  | none =>
    rw [get]
    cases hlive : liveEntry s.client clock scope key with
    | some entry =>
      rw [getEffective_cached hlive]
      exact ⟨rfl, .inl rfl⟩
    | none =>
      by_cases hfetch : ∃ value, fetchFrom s.zone s.db s.now scope key none = .returned value
      · obtain ⟨value, hvalue⟩ := hfetch
        obtain ⟨row, hrow, rfl⟩ := fetchFrom_returned.mp hvalue
        rw [getEffective_fetched hlive hvalue]
        refine ⟨(warmPinned_effectiveCache _).2, .inr ⟨⟨rfl, rfl⟩, row, hrow, fun scope' key' => ?_⟩⟩
        rw [(warmPinned_effectiveCache _).1, cacheEffective_effectiveCache]
      · have hfailed :
            (fetchValue (fetchFrom s.zone s.db s.now) scope key none s.client).2 = s.client := by
          unfold fetchValue
          split <;> rfl
        rw [getEffective_failed hlive fun value hvalue => hfetch ⟨value, hvalue⟩, hfailed]
        exact ⟨rfl, .inl rfl⟩

/-- A returned write publishes one event about its key. -/
theorem outboxMessages_written {db db' : Database} {write : ConfigWrite} {stamps : ConfigStamps}
    (h : writeConfigVersion write stamps db = (.returned (newVersion write stamps.id), db')) :
    stamps.message.id ∉ db.outboxMessages.map OutboxMessage.id ∧
      db'.outboxMessages = db.outboxMessages ++ [⟨stamps.message.id, queueName,
        buildVersionChangeEvent (newVersion write stamps.id), stamps.message.time⟩] := by
  obtain ⟨-, -, -, -, hmessage, hdb'⟩ := writeConfigVersion_returned h
  refine ⟨hmessage, ?_⟩
  rw [hdb']
  simp only [Database.withAudit, withMessage, linkHead_outboxMessages, withVersion]

theorem Coherent.write {db' : Database} {write : ConfigWrite} {stamps : ConfigStamps}
    (h : Coherent s)
    (hwrite : writeConfigVersion write stamps s.db = (.returned (newVersion write stamps.id), db')) :
    Coherent { s with db := db' } := by
  obtain ⟨hfresh, houtbox⟩ := outboxMessages_written hwrite
  have hkept : ∀ message ∈ s.db.outboxMessages, message ∈ db'.outboxMessages := by
    intro message hmessage
    rw [houtbox]
    exact List.mem_append_left _ hmessage
  constructor
  · exact h.versioned.written hwrite
  · exact h.ttl
  · dsimp only
    rw [houtbox]
    exact Rows.nodup_append_row h.messageKeys hfresh
  · dsimp only
    intro message hmessage
    rw [houtbox] at hmessage
    rcases List.mem_append.mp hmessage with hbefore | hnew
    · exact h.built message hbefore
    · exact ⟨_, congrArg OutboxMessage.envelope (List.mem_singleton.mp hnew)⟩
  · intro id hid
    obtain ⟨message, hmessage, rfl⟩ := List.mem_map.mp (h.known id hid)
    exact List.mem_map_of_mem (hkept message hmessage)
  · intro scope key entry hentry
    by_cases hown : write.scope = scope ∧ write.key = key
    · left
      refine ⟨⟨stamps.message.id, queueName, buildVersionChangeEvent (newVersion write stamps.id),
        stamps.message.time⟩, ?_, (concerns_built rfl).mpr hown,
        fun hhandled => hfresh (h.known _ hhandled)⟩
      dsimp only
      rw [houtbox]
      exact List.mem_append_right _ (List.mem_singleton_self _)
    · rcases h.cached scope key entry hentry with ⟨message, hmessage, houtstanding⟩ |
        ⟨hle, row, hrow, hvalue⟩
      · exact .inl ⟨message, hkept message hmessage, houtstanding⟩
      · refine .inr ⟨hle, row, ?_, hvalue⟩
        have hrows : versionsOf db' scope key = versionsOf s.db scope key :=
          (configVersions_written hwrite scope key).2.trans
            (h.versioned.written_other (newVersion write stamps.id) hown)
        dsimp only
        rw [effectiveRow, hrows]
        exact hrow

theorem Coherent.deliver {messages : List OutboxMessage} (h : Coherent s)
    (hmessages : ∀ message ∈ messages, message ∈ s.db.outboxMessages) :
    Coherent { s with
      client := (drainOnce (messages.map OutboxMessage.envelope) s.client).2
      handled := s.handled ++ messages.map OutboxMessage.id } := by
  obtain ⟨httl, hcache⟩ := drainOnce_messages
    (fun message hmessage => h.built message (hmessages message hmessage)) s.client
  constructor
  · exact h.versioned
  · exact httl.trans h.ttl
  · exact h.messageKeys
  · exact h.built
  · intro id hid
    rcases List.mem_append.mp hid with hbefore | hnew
    · exact h.known id hbefore
    · obtain ⟨message, hmessage, rfl⟩ := List.mem_map.mp hnew
      exact List.mem_map_of_mem (hmessages message hmessage)
  · intro scope key entry hentry
    obtain ⟨hbefore, hunconcerned⟩ := (hcache scope key entry).mp hentry
    rcases h.cached scope key entry hbefore with ⟨message, hmessage, hconcerns, hunhandled⟩ |
      hfetched
    · refine .inl ⟨message, hmessage, hconcerns, fun hhandled => ?_⟩
      rcases List.mem_append.mp hhandled with hold | hnew
      · exact hunhandled hold
      · obtain ⟨same, hsame, hid⟩ := List.mem_map.mp hnew
        have heq := List.inj_on_of_nodup_map h.messageKeys (hmessages same hsame) hmessage hid
        exact hunconcerned same hsame (heq ▸ hconcerns)
    · exact .inr hfetched

theorem Coherent.read (h : Coherent s) (scope key : Text) (configVersion : Option Text)
    (clock cachedAt : Rat) (hread : deploymentStep s (.read scope key configVersion clock cachedAt) =
      some t) : Coherent t := by
  obtain ⟨httl, hcache⟩ := get_effectiveCache s scope key configVersion clock cachedAt
  cases hread
  refine ⟨h.versioned, httl.trans h.ttl, h.messageKeys, h.built, h.known, ?_⟩
  intro scope' key' entry hentry
  dsimp only at hentry ⊢
  rcases hcache with hunchanged | ⟨hfetch, row, hrow, hcached⟩
  · rw [hunchanged] at hentry
    rcases h.cached scope' key' entry hentry with houtstanding | hfetched
    · exact .inl houtstanding
    · right
      split
      · rename_i hfetch
        have hother : (scope', key') ≠ (scope, key) := by
          intro heq
          obtain ⟨rfl, rfl⟩ := Prod.mk.inj heq
          have hnone := Option.isNone_iff_eq_none.mp hfetch.2
          rw [liveEntry_eq h, hentry] at hnone
          cases hnone
        rw [Function.update_of_ne hother]
        exact hfetched
      · exact hfetched
  · rw [if_pos hfetch]
    rw [hcached scope' key'] at hentry
    by_cases hown : scope = scope' ∧ key = key'
    · obtain ⟨rfl, rfl⟩ := hown
      rw [if_pos ⟨rfl, rfl⟩] at hentry
      obtain rfl := Option.some.inj hentry
      rw [Function.update_self]
      exact .inr ⟨le_refl _, row, hrow, rfl⟩
    · rw [if_neg hown] at hentry
      have hother : (scope', key') ≠ (scope, key) := by
        intro heq
        obtain ⟨rfl, rfl⟩ := Prod.mk.inj heq
        exact hown ⟨rfl, rfl⟩
      rw [Function.update_of_ne hother]
      exact h.cached scope' key' entry hentry

theorem Coherent.step {a : DeploymentStep} (h : Coherent s) (hstep : deploymentStep s a = some t) :
    Coherent t := by
  cases a with
  | write write stamps =>
    obtain ⟨db', hcommit, rfl⟩ := Option.map_eq_some_iff.mp hstep
    rcases writeConfigVersion_cases hcommit with ⟨rfl, -⟩ | ⟨-, hwrite⟩
    · exact h
    · exact h.write hwrite
  | deliver messages =>
    rw [deploymentStep, Option.ite_none_right_eq_some] at hstep
    obtain ⟨hmessages, hstep⟩ := hstep
    cases hstep
    exact h.deliver hmessages
  | read scope key configVersion clock cachedAt => exact h.read scope key configVersion _ _ hstep
  | advance now =>
    rw [deploymentStep, Option.ite_none_right_eq_some] at hstep
    obtain ⟨hnow, hstep⟩ := hstep
    cases hstep
    refine ⟨h.versioned, h.ttl, h.messageKeys, h.built, h.known, ?_⟩
    intro scope key entry hentry
    exact (h.cached scope key entry hentry).imp_right fun hfetched =>
      ⟨le_trans hfetched.1 hnow, hfetched.2⟩

theorem Current.read (h : Current s) (scope key : Text) (configVersion : Option Text)
    (clock cachedAt : Rat) (hread : deploymentStep s (.read scope key configVersion clock cachedAt) =
      some t) : Current t := by
  obtain ⟨-, hcache⟩ := get_effectiveCache s scope key configVersion clock cachedAt
  cases hread
  intro hall scope' key' hcached hbecame
  dsimp only at hbecame
  by_cases hfetch : (configVersion = none ∧ (liveEntry s.client clock scope key).isNone) ∧
      (scope', key') = (scope, key)
  · rw [if_pos hfetch.1, hfetch.2, Function.update_self] at hbecame
    obtain ⟨row, -, hlater, hdate⟩ := hbecame
    exact absurd hdate (not_le_of_gt hlater)
  · have hdate : (if configVersion = none ∧ (liveEntry s.client clock scope key).isNone then
          Function.update s.fetchedAt (scope, key) s.now
        else s.fetchedAt) (scope', key') = s.fetchedAt (scope', key') := by
      split
      · rename_i hfetched
        exact Function.update_of_ne (fun hown => hfetch ⟨hfetched, hown⟩) _ _
      · rfl
    rw [hdate] at hbecame
    refine h hall scope' key' ?_ hbecame
    rcases hcache with hunchanged | ⟨hfetched, row, -, hrows⟩
    · rw [Cached, hunchanged] at hcached
      exact hcached
    · have hother : ¬ (scope = scope' ∧ key = key') := by
        rintro ⟨rfl, rfl⟩
        exact hfetch ⟨hfetched, rfl⟩
      rw [Cached, hrows, if_neg hother] at hcached
      exact hcached

/-- A step leaves nothing replaced in the cache exactly when nothing lapses in it. -/
theorem current_iff_nothingLapses {a : DeploymentStep} (h : Coherent s) (hcurrent : Current s)
    (hstep : deploymentStep s a = some t) : Current t ↔ NothingLapses s a := by
  cases a with
  | write write stamps =>
    refine iff_of_true ?_ trivial
    obtain ⟨db', hcommit, rfl⟩ := Option.map_eq_some_iff.mp hstep
    rcases writeConfigVersion_cases hcommit with ⟨rfl, -⟩ | ⟨-, hwrite⟩
    · exact hcurrent
    · obtain ⟨hfresh, houtbox⟩ := outboxMessages_written hwrite
      intro hall
      refine absurd (h.known stamps.message.id (hall ⟨stamps.message.id, queueName,
        buildVersionChangeEvent (newVersion write stamps.id), stamps.message.time⟩ ?_)) hfresh
      dsimp only
      rw [houtbox]
      exact List.mem_append_right _ (List.mem_singleton_self _)
  | deliver messages =>
    rw [deploymentStep, Option.ite_none_right_eq_some] at hstep
    obtain ⟨hmessages, hstep⟩ := hstep
    cases hstep
    have hcache := (drainOnce_messages
      (fun message hmessage => h.built message (hmessages message hmessage)) s.client).2
    have hall : AllHandled { s with
          client := (drainOnce (messages.map OutboxMessage.envelope) s.client).2
          handled := s.handled ++ messages.map OutboxMessage.id } ↔
        ∀ message ∈ s.db.outboxMessages, message.id ∈ s.handled ∨
          message.id ∈ messages.map OutboxMessage.id :=
      forall₂_congr fun message _ => List.mem_append
    have hcached : ∀ scope key, Cached { s with
          client := (drainOnce (messages.map OutboxMessage.envelope) s.client).2
          handled := s.handled ++ messages.map OutboxMessage.id } scope key ↔
        Cached s scope key ∧ ∀ message ∈ messages, ¬ Concerns message scope key := by
      intro scope key
      simp only [Cached, Option.ne_none_iff_exists', hcache, exists_and_right]
    unfold Current NothingLapses
    rw [hall]
    simp only [hcached, and_imp]
  | read scope key configVersion clock cachedAt =>
    exact iff_of_true (hcurrent.read scope key configVersion clock cachedAt hstep) trivial
  | advance now =>
    rw [deploymentStep, Option.ite_none_right_eq_some] at hstep
    obtain ⟨hnow, hstep⟩ := hstep
    cases hstep
    refine forall_congr' fun hall => forall_congr' fun scope => forall_congr' fun key =>
      forall_congr' fun hcached => not_congr ?_
    obtain ⟨entry, hentry⟩ := Option.ne_none_iff_exists'.mp hcached
    have hfetched := (h.fetched hall hentry).1
    rw [becameEffective_split hfetched hnow]
    exact or_iff_right (hcurrent hall scope key hcached)

end Steps

/-- A client with an empty cache and no time to live, over tables that earlier
writes have left. -/
structure Started (s : Deployment) : Prop where
  versioned : Versioned s.db
  ttl : s.client.ttlSeconds = none
  messageKeys : (s.db.outboxMessages.map OutboxMessage.id).Nodup
  built : ∀ message ∈ s.db.outboxMessages, ∃ row, message.envelope = buildVersionChangeEvent row
  known : ∀ id ∈ s.handled, id ∈ s.db.outboxMessages.map OutboxMessage.id
  uncached : ∀ scope key, s.client.effectiveCache (scope, key) = none

/-- Reads answer like fetches throughout a run exactly when nothing lapses in it. -/
theorem servesCurrent_iff_nothingLapses {s : Deployment} (h : Started s)
    (steps : List DeploymentStep) :
    Runs.Throughout deploymentStep ServesCurrent s steps ↔
      Runs.AllSteps deploymentStep NothingLapses s steps := by
  apply Runs.throughout_iff_of_exact (I := Coherent) (C := Current)
  · refine ⟨h.versioned, h.ttl, h.messageKeys, h.built, h.known, ?_⟩
    intro scope key entry hentry
    rw [h.uncached] at hentry
    cases hentry
  · intro _ scope key hcached
    exact absurd (h.uncached scope key) hcached
  · intro s a t hs hcurrent hstep
    exact ⟨hs.step hstep, current_iff_nothingLapses hs hcurrent hstep⟩
  · exact fun s hs => servesCurrent_iff hs

def sampleDeployment : Deployment where
  db := {}
  now := newYear 1
  client := { ttlSeconds := none }
  handled := []
  fetchedAt := fun _ => newYear 1

def sampleEvent (id : Text) (effectiveFrom : Instant) : OutboxMessage where
  id := id ++ "-m".toList
  queue := queueName
  envelope := buildVersionChangeEvent (newVersion (sampleWrite effectiveFrom) id)
  createdAt := newYear 9

def forwardDated : List DeploymentStep :=
  [.write (sampleWrite (newYear 1)) (sampleConfigStamps "v1".toList),
    .write (sampleWrite (newYear 5)) (sampleConfigStamps "v2".toList),
    .deliver [sampleEvent "v1".toList (newYear 1), sampleEvent "v2".toList (newYear 5)],
    .read "district".toList "review.sample".toList none 0 0,
    .advance (newYear 6)]

theorem started_sampleDeployment : Started sampleDeployment where
  versioned := ⟨List.nodup_nil, List.nodup_nil, fun _ _ => ⟨List.isChain_nil, fun _ h => nomatch h⟩⟩
  ttl := rfl
  messageKeys := List.nodup_nil
  built := fun _ h => nomatch h
  known := fun _ h => nomatch h
  uncached := fun _ _ => rfl

theorem servesCurrent_iff_forwardDated :
    Runs.Throughout deploymentStep ServesCurrent sampleDeployment forwardDated ↔
      Runs.AllSteps deploymentStep NothingLapses sampleDeployment forwardDated :=
  servesCurrent_iff_nothingLapses started_sampleDeployment forwardDated

theorem forwardDated_serves_replaced :
    ¬ Runs.Throughout deploymentStep ServesCurrent sampleDeployment forwardDated := by
  intro h
  have hserved : (Runs.run deploymentStep sampleDeployment forwardDated).any (fun s =>
      (∀ message ∈ s.db.outboxMessages, message.id ∈ s.handled) ∧
        (get (fetchFrom s.zone s.db s.now) none 0 0 "district".toList "review.sample".toList none
            s.client).1 ≠
          (fetchValue (fetchFrom s.zone s.db s.now) "district".toList "review.sample".toList none
            s.client).1) = true := by
    decide +kernel
  obtain ⟨s, hrun, hs⟩ := (Option.any_eq_true _ _).mp hserved
  obtain ⟨hall, hreplaced⟩ := of_decide_eq_true hs
  exact hreplaced (h.at_run hrun hall _ _ 0 0)

end LandRecords.Config
