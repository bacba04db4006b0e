import LandRecords.Config.ClosedSets
import LandRecords.Config.Freshness
import LandRecords.Base.LastEvent
import Mathlib

/-! The partition of the corpora. Connections write rows in transactions of their own, with the
loaders or past them, while configuration versions are written and closed sets are read. What is
served comes from transactions in which the loader of its provenance had run. -/
namespace LandRecords.Config

open Backend Datetime Text

inductive CorpusCall
  | loadSchemaDerived (call : LoaderCall)
  | loadLgdDerived (call : LoaderCall)
  | add (rows : List ClosedSetEntry)

def CorpusCall.execute (tables : CorpusTables) : CorpusCall → Loading (List ClosedSetEntry)
  | .loadSchemaDerived call => loadSchemaDerivedEntries tables call
  | .loadLgdDerived call => loadLgdDerivedEntries tables call
  | .add rows => do
      insertEntries tables rows
      return rows

def CorpusCall.loader : CorpusCall → Option Text
  | .loadSchemaDerived _ => some "schema".toList
  | .loadLgdDerived _ => some "lgd".toList
  | .add _ => none

def CorpusCall.rows : CorpusCall → List ClosedSetEntry
  | .loadSchemaDerived call => call.rows "schema".toList "schema_extractor".toList
  | .loadLgdDerived call => call.rows "lgd".toList "lgd_importer".toList
  | .add rows => rows

structure OpenTransaction where
  transaction : LoaderTransaction := {}
  calls : List CorpusCall := []
  aborted : Bool := false

structure Corpus where
  /-- The time zone of the database sessions. -/
  zone : Zone := utc
  db : Database
  client : ConfigClient
  entries : List ClosedSetEntry := []
  connections : Nat → Option OpenTransaction := fun _ => none
  /-- The calls of each transaction that was committed. -/
  history : List (List CorpusCall) := []
  /-- What the database's clock showed at the reads of the configuration. -/
  readAt : List Instant := []

inductive CorpusStep
  | begin (connection : Nat)
  | execute (connection : Nat) (call : CorpusCall)
  | commit (connection : Nat)
  | rollback (connection : Nat)
  | writeConfig (write : ConfigWrite) (stamps : ConfigStamps)
  | deliver (payloads : List (List (Text × Text)))
  | read (request : ClosedSetRequest)

def Corpus.tables (s : Corpus) : CorpusTables where
  versions := s.db.configVersions.map ConfigVersion.id
  entries := s.entries

def ClosedSetRequest.readAt (request : ClosedSetRequest) : List Instant :=
  [request.districtReading.now, request.globalReading.now]

def executeCall (tables : CorpusTables) (call : CorpusCall) (opened : OpenTransaction) :
    OpenTransaction :=
  if opened.aborted then opened
  else
    match call.execute tables opened.transaction with
    | (.returned _, transaction) => { opened with transaction, calls := opened.calls ++ [call] }
    | _ => { opened with aborted := true }

/-- An insert waits for another transaction that added the same id. Here both go on, and the one
that commits last fails. -/
def Clashes (s : Corpus) (opened : OpenTransaction) : Prop :=
  ∃ row ∈ opened.transaction.added, row.id ∈ s.entries.map ClosedSetEntry.id

instance (s : Corpus) (opened : OpenTransaction) : Decidable (Clashes s opened) :=
  inferInstanceAs (Decidable (∃ row ∈ opened.transaction.added, _))

def closeConnection (connection : Nat) (s : Corpus) : Corpus :=
  { s with connections := Function.update s.connections connection none }

def commitTransaction (connection : Nat) (opened : OpenTransaction) (s : Corpus) : Corpus :=
  if opened.aborted ∨ Clashes s opened then closeConnection connection s
  else { closeConnection connection s with
    entries := s.entries ++ opened.transaction.added
    history := s.history ++ [opened.calls] }

section Steps

variable {κ : Type} [LinearOrder κ] (collation : Text ↪ κ)

def corpusStep (s : Corpus) : CorpusStep → Option Corpus
  | .begin connection =>
      match s.connections connection with
      | some _ => none
      | none => some { s with connections := Function.update s.connections connection (some {}) }
  | .execute connection call => (s.connections connection).map fun opened =>
      { s with connections :=
          Function.update s.connections connection (some (executeCall s.tables call opened)) }
  | .commit connection => (s.connections connection).map fun opened =>
      commitTransaction connection opened s
  | .rollback connection => (s.connections connection).map fun _ => closeConnection connection s
  | .writeConfig write stamps => (commit (writeConfigVersion write stamps) s.db).map fun db =>
      { s with db }
  | .deliver payloads => some { s with client := (drainOnce payloads s.client).2 }
  | .read request => some { s with
      client := (getClosedSet collation s.zone s.db s.entries request s.client).2
      readAt := s.readAt ++ request.readAt }

end Steps

/-- The row was added by a call of the transaction, and the loader that ran last before it, or ran
then, is the one of its provenance. -/
def Sanctioned (calls : List CorpusCall) (row : ClosedSetEntry) : Prop :=
  ∃ before call after, calls = before ++ call :: after ∧ row ∈ call.rows ∧
    lastValue CorpusCall.loader (before ++ [call]) = some row.provenance

def RanLoader (provenance : Text) (calls : List CorpusCall) : Prop :=
  some provenance ∈ calls.map CorpusCall.loader

instance (provenance : Text) : DecidablePred (RanLoader provenance) := fun _ =>
  inferInstanceAs (Decidable (_ ∈ _))

def callRows (calls : List CorpusCall) : List ClosedSetEntry := calls.flatMap CorpusCall.rows

def addedRows (history : List (List CorpusCall)) : List ClosedSetEntry := history.flatMap callRows

section Loaders

variable {tables : CorpusTables} {transaction after : LoaderTransaction} {row : ClosedSetEntry}

def LetIn (loaderProvenance : Option Text) (row : ClosedSetEntry) : Prop :=
  row.provenance ∈ lawfulProvenances → loaderProvenance = some row.provenance

theorem enforceLoaderProvenance_returned
    (h : enforceLoaderProvenance row transaction = (.returned (), after)) :
    LetIn transaction.loaderProvenance row ∧ after = transaction := by
  unfold enforceLoaderProvenance at h
  rw [Fallible.read_bind] at h
  by_cases hrefused : row.provenance ∈ ["schema".toList, "lgd".toList] ∧
      transaction.loaderProvenance ≠ some row.provenance
  · rw [if_pos hrefused] at h
    cases h
  · rw [if_neg hrefused] at h
    cases h
    refine ⟨?_, rfl⟩
    intro htrusted
    by_contra hother
    exact hrefused ⟨htrusted, hother⟩

theorem insertEntry_returned (h : insertEntry tables row transaction = (.returned (), after)) :
    LetIn transaction.loaderProvenance row ∧ after = withEntry row transaction := by
  unfold insertEntry at h
  obtain ⟨_, middle, henforced, hrest⟩ := Fallible.bind_eq_returned.mp h
  obtain ⟨hletIn, rfl⟩ := enforceLoaderProvenance_returned henforced
  rw [Fallible.read_bind] at hrest
  split at hrest
  · cases hrest
  · cases hrest
    exact ⟨hletIn, rfl⟩

theorem insertEntries_returned {rows : List ClosedSetEntry}
    (h : insertEntries tables rows transaction = (.returned (), after)) :
    (∀ row ∈ rows, LetIn transaction.loaderProvenance row) ∧
      after.added = transaction.added ++ rows ∧
      after.loaderProvenance = transaction.loaderProvenance := by
  induction rows generalizing transaction with
  | nil =>
    cases h
    simp
  | cons row rest ih =>
    rw [insertEntries] at h
    obtain ⟨_, middle, hrow, hrest⟩ := Fallible.bind_eq_returned.mp h
    obtain ⟨hletIn, rfl⟩ := insertEntry_returned hrow
    obtain ⟨hothers, hadded, hprovenance⟩ := ih hrest
    refine ⟨?_, ?_, hprovenance⟩
    · intro other hother
      cases hother with
      | head => exact hletIn
      | tail _ hother => exact hothers other hother
    · rw [hadded, withEntry, List.append_assoc, List.singleton_append]

theorem loadEntries_returned {provenance defaultSource : Text} {call : LoaderCall}
    {rows : List ClosedSetEntry}
    (h : loadEntries provenance defaultSource tables call transaction = (.returned rows, after)) :
    rows = call.rows provenance defaultSource ∧ after.loaderProvenance = some provenance ∧
      after.added = transaction.added ++ rows := by
  unfold loadEntries at h
  obtain ⟨_, middle, hset, hrest⟩ := Fallible.bind_eq_returned.mp h
  obtain ⟨_, last, hinserted, hlast⟩ := Fallible.bind_eq_returned.mp hrest
  cases hlast
  have hmiddle : middle = setLocal provenance transaction := by
    unfold setLoaderProvenance at hset
    split at hset
    · cases hset
      rfl
    · cases hset
  obtain ⟨-, hadded, hprovenance⟩ := insertEntries_returned hinserted
  rw [hmiddle] at hadded hprovenance
  exact ⟨rfl, hprovenance, hadded⟩

theorem LoaderCall.rows_provenance {call : LoaderCall} {provenance defaultSource : Text}
    (h : row ∈ call.rows provenance defaultSource) : row.provenance = provenance := by
  obtain ⟨code, -, rfl⟩ := List.mem_map.mp h
  rfl

theorem execute_returned {call : CorpusCall} {rows : List ClosedSetEntry}
    (h : call.execute tables transaction = (.returned rows, after)) :
    after.added = transaction.added ++ call.rows ∧
      after.loaderProvenance = call.loader.or transaction.loaderProvenance ∧
      ∀ row ∈ call.rows, LetIn after.loaderProvenance row := by
  cases call with
  | loadSchemaDerived call =>
    obtain ⟨rfl, hprovenance, hadded⟩ := loadEntries_returned h
    refine ⟨hadded, hprovenance, ?_⟩
    intro row hrow _
    rw [hprovenance, LoaderCall.rows_provenance hrow]
  | loadLgdDerived call =>
    obtain ⟨rfl, hprovenance, hadded⟩ := loadEntries_returned h
    refine ⟨hadded, hprovenance, ?_⟩
    intro row hrow _
    rw [hprovenance, LoaderCall.rows_provenance hrow]
  | add rows =>
    obtain ⟨_, last, hinserted, hlast⟩ := Fallible.bind_eq_returned.mp h
    cases hlast
    obtain ⟨hletIn, hadded, hprovenance⟩ := insertEntries_returned hinserted
    refine ⟨hadded, hprovenance, ?_⟩
    intro row hrow
    rw [hprovenance]
    exact hletIn row hrow

end Loaders

structure Traced (opened : OpenTransaction) : Prop where
  added : opened.transaction.added = callRows opened.calls
  setting : opened.transaction.loaderProvenance = lastValue CorpusCall.loader opened.calls
  sanctioned : ∀ row ∈ callRows opened.calls, row.provenance ∈ lawfulProvenances →
    Sanctioned opened.calls row

theorem traced_begin : Traced {} where
  added := rfl
  setting := rfl
  sanctioned := by
    intro row hrow
    cases hrow

theorem Sanctioned.concat {calls : List CorpusCall} {row : ClosedSetEntry}
    (h : Sanctioned calls row) (call : CorpusCall) : Sanctioned (calls ++ [call]) row := by
  obtain ⟨before, writer, after, rfl, hrow, hlast⟩ := h
  refine ⟨before, writer, after ++ [call], ?_, hrow, hlast⟩
  rw [List.append_assoc, List.cons_append]

theorem Sanctioned.ranLoader {calls : List CorpusCall} {row : ClosedSetEntry}
    (h : Sanctioned calls row) : RanLoader row.provenance calls := by
  obtain ⟨before, writer, after, rfl, -, hlast⟩ := h
  obtain ⟨call, hcall, hloader⟩ := lastValue_mem hlast
  apply List.mem_map.mpr
  refine ⟨call, ?_, hloader⟩
  rw [← List.singleton_append, ← List.append_assoc]
  exact List.mem_append_left after hcall

theorem executeCall_traced {tables : CorpusTables} {opened : OpenTransaction} (h : Traced opened)
    (call : CorpusCall) : Traced (executeCall tables call opened) := by
  unfold executeCall
  split
  · exact h
  · split
    case h_1 rows transaction hcall =>
      obtain ⟨hadded, hsetting, hletIn⟩ := execute_returned hcall
      have hlast : transaction.loaderProvenance =
          lastValue CorpusCall.loader (opened.calls ++ [call]) := by
        rw [hsetting, lastValue_concat, h.setting]
      refine ⟨?_, hlast, ?_⟩
      · change transaction.added = callRows (opened.calls ++ [call])
        rw [hadded, h.added, callRows, callRows, List.flatMap_append, List.flatMap_singleton]
      · intro row hrow hlawful
        rw [callRows, List.flatMap_append, List.flatMap_singleton] at hrow
        rcases List.mem_append.mp hrow with hearlier | hown
        · exact (h.sanctioned row hearlier hlawful).concat call
        · refine ⟨opened.calls, call, [], rfl, hown, ?_⟩
          rw [← hlast]
          exact hletIn row hown hlawful
    case h_2 => exact ⟨h.added, h.setting, h.sanctioned⟩

section Client

variable {zone : Zone} {db : Database} {readAt : List Instant} {scope key : Text} {now : Instant}
  {clock cachedAt : Rat}

def datedVersions (db : Database) (scope key : Text) : List (Text × Instant) :=
  (versionsOf db scope key).map fun row => (row.id, row.effectiveFrom)

def WasInEffect (db : Database) (readAt : List Instant) (scope key version : Text) : Prop :=
  ∃ asOf ∈ readAt, ∃ stored effectiveFrom, stored <+: datedVersions db scope key ∧
    (version, effectiveFrom) ∈ stored ∧ effectiveFrom ≤ asOf ∧
      ∀ other ∈ stored, other.2 ≤ asOf → other.2 ≤ effectiveFrom

def Pointed (db : Database) (readAt : List Instant) (client : ConfigClient) : Prop :=
  ∀ scope key entry, client.effectiveCache (scope, key) = some entry →
    WasInEffect db readAt scope key entry.value.configVersion

theorem wasInEffect_effectiveRow {row : ConfigVersion} (hnow : now ∈ readAt)
    (h : effectiveRow db scope key now = some row) : WasInEffect db readAt scope key row.id := by
  have ⟨hrow, hle⟩ := List.mem_filter.mp (latest_mem h)
  refine ⟨now, hnow, _, row.effectiveFrom, List.prefix_refl _, List.mem_map_of_mem hrow,
    of_decide_eq_true hle, ?_⟩
  intro other hother hotherLe
  obtain ⟨version, hversion, rfl⟩ := List.mem_map.mp hother
  exact latest_greatest h (List.mem_filter.mpr ⟨hversion, decide_eq_true hotherLe⟩)

theorem WasInEffect.later {version : Text} {readAt' : List Instant}
    (h : WasInEffect db readAt scope key version) (hreadAt : readAt ⊆ readAt') :
    WasInEffect db readAt' scope key version := by
  obtain ⟨asOf, hasOf, hstored⟩ := h
  exact ⟨asOf, hreadAt hasOf, hstored⟩

theorem pointed_empty (ttlSeconds : Option Rat) : Pointed db readAt { ttlSeconds } := by
  intro scope key entry hentry
  cases hentry

theorem Pointed.later {client : ConfigClient} {readAt' : List Instant} (h : Pointed db readAt client)
    (hreadAt : readAt ⊆ readAt') : Pointed db readAt' client :=
  fun scope key entry hentry => (h scope key entry hentry).later hreadAt

theorem Pointed.cacheEffective {client : ConfigClient} {entry : EffectiveCacheEntry}
    (h : Pointed db readAt client)
    (hversion : WasInEffect db readAt scope key entry.value.configVersion) :
    Pointed db readAt (cacheEffective scope key entry client) := by
  intro scope' key' other hother
  rw [cacheEffective_effectiveCache] at hother
  split at hother
  case isTrue hsame =>
    obtain ⟨rfl, rfl⟩ := hsame
    obtain rfl := Option.some.inj hother
    exact hversion
  case isFalse => exact h scope' key' other hother

theorem Pointed.invalidate {client : ConfigClient} (h : Pointed db readAt client) :
    Pointed db readAt (invalidate scope key client) := by
  intro scope' key' entry hentry
  rw [invalidate_effectiveCache] at hentry
  split at hentry
  · cases hentry
  · exact h scope' key' entry hentry

theorem fetchFrom_unconfigured (h : effectiveRow db scope key now = none) :
    fetchFrom zone db now scope key none = .raised (.configNotFound scope key none) := by
  have hraised : getEffectiveConfig scope key now db =
      (.raised (.configNotFound scope key none), db) := by
    rw [getEffectiveConfig, Fallible.read_bind, h]
    rfl
  simp only [fetchFrom, fetchConfig]
  rw [Fallible.bind_raised hraised]

def liveResolution (pointer : Text × Text) (envelopeId : Text) : ClientError :=
  .liveResolutionInsidePinnedScope ("config:".toList ++ pointer.1 ++ '.' :: pointer.2) envelopeId

def ReadError (db : Database) (now : Instant) (pinnedEnvelope : Option Text) (scope key : Text)
    (error : ClientError) : Prop :=
  (pinnedEnvelope = none ∧ error = .fetchError (.configNotFound scope key none) ∧
      effectiveRow db scope key now = none) ∨
    ∃ envelopeId ∈ pinnedEnvelope, error = liveResolution (scope, key) envelopeId

theorem triple_getEffective (pinnedEnvelope : Option Text) (hnow : now ∈ readAt) :
    Fallible.Triple (Pointed db readAt)
      (getEffective (fetchFrom zone db now) pinnedEnvelope clock cachedAt scope key)
      (fun value client => WasInEffect db readAt scope key value.configVersion ∧
        Pointed db readAt client)
      (fun error client => ReadError db now pinnedEnvelope scope key error ∧
        Pointed db readAt client) (fun _ => False) := by
  intro client hpointed
  cases pinnedEnvelope with
  | some envelopeId => exact ⟨.inr ⟨envelopeId, rfl, rfl⟩, hpointed⟩
  | none =>
    cases hlive : liveEntry client clock scope key with
    | some entry =>
      rw [getEffective_cached hlive]
      exact ⟨hpointed scope key entry (Option.eq_some_of_filter_eq_some hlive), hpointed⟩
    | none =>
      cases hrow : effectiveRow db scope key now with
      | some row =>
        rw [getEffective_fetched hlive (fetchFrom_returned.mpr ⟨row, hrow, rfl⟩)]
        have hversion := wasInEffect_effectiveRow hnow hrow
        refine ⟨hversion, ?_⟩
        unfold Pointed
        rw [(warmPinned_effectiveCache _).1]
        exact hpointed.cacheEffective hversion
      | none =>
        have hfetch := @fetchFrom_unconfigured zone db scope key now hrow
        rw [getEffective_failed hlive (fun value hvalue => by rw [hfetch] at hvalue; cases hvalue),
          fetchValue, hfetch]
        exact ⟨.inl ⟨rfl, rfl, hrow⟩, hpointed⟩

theorem Pointed.drainOnce {client : ConfigClient} (h : Pointed db readAt client)
    (payloads : List (List (Text × Text))) : Pointed db readAt (drainOnce payloads client).2 :=
  (preserves_drainOnce (fun _ _ _ hclient => hclient.invalidate) payloads).world h

theorem Pointed.written {db' : Database} {client : ConfigClient} {write : ConfigWrite}
    {stamps : ConfigStamps} (h : Pointed db readAt client)
    (hwrite : commit (writeConfigVersion write stamps) db = some db') : Pointed db' readAt client := by
  rcases writeConfigVersion_cases hwrite with ⟨rfl, -⟩ | ⟨-, hreturned⟩
  · exact h
  · intro scope key entry hentry
    obtain ⟨asOf, hasOf, stored, effectiveFrom, hprefix, hlatest⟩ := h scope key entry hentry
    refine ⟨asOf, hasOf, stored, effectiveFrom, hprefix.trans ?_, hlatest⟩
    have hversions := (configVersions_written hreturned scope key).2
    unfold datedVersions
    rw [hversions, map_versionsOf_written fun _ _ => rfl, List.map_append]
    exact List.prefix_append _ _

end Client

section Answers

variable {zone : Zone} {db : Database} {readAt : List Instant} {request : ClosedSetRequest}

def DistrictUnknown (db : Database) (request : ClosedSetRequest) : Prop :=
  ∀ district ∈ givenDistrict request,
    effectiveRow db (configPointer request.type (some district)).1
      (configPointer request.type (some district)).2 request.districtReading.now = none

structure Unknown (db : Database) (request : ClosedSetRequest) : Prop where
  everywhere : effectiveRow db (configPointer request.type none).1
    (configPointer request.type none).2 request.globalReading.now = none
  district : DistrictUnknown db request

/-- The pointer of a given district was in effect with the corpus version, or none of it is and the
pointer for all districts was. -/
def Resolved (db : Database) (readAt : List Instant) (request : ClosedSetRequest) (version : Text) :
    Prop :=
  (∃ district ∈ givenDistrict request, WasInEffect db readAt
    (configPointer request.type (some district)).1 (configPointer request.type (some district)).2
      version) ∨
  (DistrictUnknown db request ∧ WasInEffect db readAt (configPointer request.type none).1
    (configPointer request.type none).2 version)

theorem triple_corpusPointer {pinnedEnvelope : Option Text} {reading : Reading}
    {pointer : Text × Text} {otherwise : ClosedSets Text} {Good : Text → Prop}
    {E : ClosedSetError → Prop} (hnow : reading.now ∈ readAt)
    (hgood : ∀ version, WasInEffect db readAt pointer.1 pointer.2 version → Good version)
    (hpinned : ∀ envelopeId ∈ pinnedEnvelope, E (.client (liveResolution pointer envelopeId)))
    (hotherwise : pinnedEnvelope = none → effectiveRow db pointer.1 pointer.2 reading.now = none →
      Fallible.Triple (Pointed db readAt) otherwise
        (fun version client => Good version ∧ Pointed db readAt client)
        (fun error client => E error ∧ Pointed db readAt client) (fun _ => False)) :
    Fallible.Triple (Pointed db readAt)
      (corpusPointer zone db pinnedEnvelope reading pointer otherwise)
      (fun version client => Good version ∧ Pointed db readAt client)
      (fun error client => E error ∧ Pointed db readAt client) (fun _ => False) := by
  have hbody : Fallible.Triple (Pointed db readAt)
      (Fallible.within id (fun client _ => client) ClosedSetError.client
        (get (fetchFrom zone db reading.now) pinnedEnvelope reading.clock reading.cachedAt
          pointer.1 pointer.2 none))
      (fun value client => WasInEffect db readAt pointer.1 pointer.2 value.configVersion ∧
        Pointed db readAt client)
      (fun error client => (∃ inner, error = .client inner ∧
        ReadError db reading.now pinnedEnvelope pointer.1 pointer.2 inner) ∧
          Pointed db readAt client) (fun _ => False) := by
    apply Fallible.triple_within (triple_getEffective pinnedEnvelope hnow) (fun _ h => h)
    · exact fun _ _ _ _ h => h
    · exact fun _ error _ _ h => ⟨⟨error, rfl, h.1⟩, h.2⟩
    · exact fun _ _ _ h => h
  unfold corpusPointer
  apply Fallible.triple_handle (Fallible.triple_bind hbody ?_)
  · rintro error client ⟨⟨inner, rfl, ⟨hlive, rfl, hnone⟩ | ⟨envelopeId, hpin, rfl⟩⟩, hpointed⟩
    · exact hotherwise hlive hnone client hpointed
    · exact ⟨hpinned envelopeId hpin, hpointed⟩
  · intro value
    apply Fallible.triple_pure
    exact fun client hvalue => ⟨hgood _ hvalue.1, hvalue.2⟩

def ResolutionError (db : Database) (request : ClosedSetRequest) : ClosedSetError → Prop
  | .closedSetTypeNotFound type => type = request.type ∧ Unknown db request
  | .inconsistentClosedSetProvenance _ _ => False
  | .client error => ∃ envelopeId ∈ request.pinnedEnvelope,
      error = liveResolution (configPointer request.type (givenDistrict request)) envelopeId

theorem triple_resolveCorpusConfigVersion (hreadAt : request.readAt ⊆ readAt) :
    Fallible.Triple (Pointed db readAt) (resolveCorpusConfigVersion zone db request)
      (fun version client => Resolved db readAt request version ∧ Pointed db readAt client)
      (fun error client => ResolutionError db request error ∧ Pointed db readAt client)
      (fun _ => False) := by
  obtain ⟨hdistrictNow, hglobalNow⟩ : request.districtReading.now ∈ readAt ∧
      request.globalReading.now ∈ readAt := by simpa [ClosedSetRequest.readAt] using hreadAt
  have hglobal : DistrictUnknown db request →
      (∀ envelopeId ∈ request.pinnedEnvelope, ResolutionError db request
        (.client (liveResolution (configPointer request.type none) envelopeId))) →
      Fallible.Triple (Pointed db readAt) (resolveGlobal zone db request)
        (fun version client => Resolved db readAt request version ∧ Pointed db readAt client)
        (fun error client => ResolutionError db request error ∧ Pointed db readAt client)
        (fun _ => False) := by
    intro hdistrict hpinned
    apply triple_corpusPointer hglobalNow (fun _ hversion => .inr ⟨hdistrict, hversion⟩) hpinned
    intro _ heverywhere
    exact Fallible.triple_raise fun client hpointed => ⟨⟨rfl, heverywhere, hdistrict⟩, hpointed⟩
  unfold resolveCorpusConfigVersion
  cases hgiven : givenDistrict request with
  | none =>
    apply hglobal
    · intro district hdistrict
      rw [hgiven] at hdistrict
      cases hdistrict
    · intro envelopeId hpin
      exact ⟨envelopeId, hpin, by rw [hgiven]⟩
  | some district =>
    apply triple_corpusPointer hdistrictNow
      (fun _ hversion => .inl ⟨district, hgiven, hversion⟩)
    · intro envelopeId hpin
      exact ⟨envelopeId, hpin, by rw [hgiven]⟩
    · intro hlive hnone
      apply hglobal
      · intro other hother
        obtain rfl := Option.some.inj (hgiven.symm.trans hother)
        exact hnone
      · intro envelopeId hpin
        rw [hlive] at hpin
        cases hpin

end Answers

structure Partitioning (s : Corpus) : Prop where
  entries : s.entries = addedRows s.history
  sanctioned : ∀ calls ∈ s.history, ∀ row ∈ callRows calls,
    row.provenance ∈ lawfulProvenances → Sanctioned calls row
  traced : ∀ connection opened, s.connections connection = some opened → Traced opened
  pointed : Pointed s.db s.readAt s.client

/-- A store of nothing but configuration versions, before any closed set is read. -/
def Corpus.start (zone : Zone) (db : Database) (ttlSeconds : Option Rat) : Corpus where
  zone := zone
  db := db
  client := { ttlSeconds }

theorem partitioning_start (zone : Zone) (db : Database) (ttlSeconds : Option Rat) :
    Partitioning (Corpus.start zone db ttlSeconds) where
  entries := rfl
  sanctioned := by
    intro calls hcalls
    cases hcalls
  traced := by
    intro connection opened hopened
    cases hopened
  pointed := pointed_empty ttlSeconds

section Preserved

variable {s : Corpus}

theorem Partitioning.connect (h : Partitioning s) (connection : Nat)
    (opened : Option OpenTransaction) (htraced : ∀ new ∈ opened, Traced new) :
    Partitioning { s with connections := Function.update s.connections connection opened } where
  entries := h.entries
  sanctioned := h.sanctioned
  traced := by
    intro other found hfound
    dsimp only at hfound
    rw [Function.update_apply] at hfound
    split at hfound
    · exact htraced found hfound
    · exact h.traced other found hfound
  pointed := h.pointed

theorem Partitioning.close (h : Partitioning s) (connection : Nat) :
    Partitioning (closeConnection connection s) :=
  h.connect connection none (by simp)

theorem Partitioning.committed (h : Partitioning s) {connection : Nat} {opened : OpenTransaction}
    (hopened : s.connections connection = some opened) :
    Partitioning (commitTransaction connection opened s) := by
  have htraced := h.traced connection opened hopened
  have hclosed := h.close connection
  unfold commitTransaction
  split
  · exact hclosed
  · refine ⟨?_, ?_, hclosed.traced, hclosed.pointed⟩
    · change s.entries ++ opened.transaction.added = addedRows (s.history ++ [opened.calls])
      rw [h.entries, htraced.added, addedRows, addedRows, List.flatMap_append,
        List.flatMap_singleton]
    · intro calls hcalls
      rcases List.mem_append.mp hcalls with hearlier | hnew
      · exact h.sanctioned calls hearlier
      · obtain rfl := List.mem_singleton.mp hnew
        exact htraced.sanctioned

end Preserved

section Served

variable {κ : Type} [LinearOrder κ] (collation : Text ↪ κ) {s : Corpus} {request : ClosedSetRequest}

/-- What is served: a corpus that the request's configuration named when it was read, all its codes
of one lawful provenance, each written under the loader of it. A transaction that did not run that
loader has no part in it. -/
structure ServedFrom (s : Corpus) (request : ClosedSetRequest) (response : ClosedSetResponse) :
    Prop where
  resolved : Resolved s.db (s.readAt ++ request.readAt) request response.configVersion
  lawful : response.source ∈ lawfulProvenances
  codes : response.codes = (orderBy (fun row => collation row.code)
    ((addedRows (s.history.filter (RanLoader response.source))).filter fun row =>
      InCorpus request response.configVersion row ∧ row.provenance = response.source)).map
        ClosedSetEntry.code
  sanctioned : ∀ calls ∈ s.history, ∀ row ∈ callRows calls,
    row.provenance = response.source → Sanctioned calls row

def Mixed (s : Corpus) (request : ClosedSetRequest) (provenances : List Text) : Prop :=
  ∃ version, Resolved s.db (s.readAt ++ request.readAt) request version ∧
    ∀ provenance ∈ provenances,
    provenance ∈ lawfulProvenances ∧ ∃ calls ∈ s.history, ∃ row ∈ callRows calls,
      InCorpus request version row ∧ row.provenance = provenance ∧ Sanctioned calls row

def Answered (s : Corpus) (request : ClosedSetRequest) : Exit ClosedSetError ClosedSetResponse → Prop
  | .returned response => ServedFrom collation s request response
  | .raised (.closedSetTypeNotFound type) => type = request.type ∧ Unknown s.db request
  | .raised (.inconsistentClosedSetProvenance type provenances) =>
      type = request.type ∧ 1 < provenances.length ∧ provenances.Nodup ∧
        Mixed s request provenances
  | .raised (.client error) => ∃ envelopeId ∈ request.pinnedEnvelope,
      error = liveResolution (configPointer request.type (givenDistrict request)) envelopeId
  | .crashed => False

variable {collation} {version : Text}

theorem mem_selectEntries {entries : List ClosedSetEntry} {row : ClosedSetEntry} :
    row ∈ selectEntries collation entries request version ↔
      row ∈ entries ∧ InCorpus request version row ∧ row.provenance ∈ lawfulProvenances := by
  unfold selectEntries
  rw [mem_orderBy, List.mem_filter, decide_eq_true_iff]

theorem selectEntries_source {entries : List ClosedSetEntry} {source : Text}
    (hsource : source ∈ lawfulProvenances)
    (h : ∀ row ∈ selectEntries collation entries request version, row.provenance = source) :
    selectEntries collation entries request version =
      orderBy (fun row => collation row.code) (entries.filter fun row =>
        InCorpus request version row ∧ row.provenance = source) := by
  unfold selectEntries
  congr 1
  apply List.filter_congr
  intro row hrow
  rw [decide_eq_decide]
  constructor
  · intro hselected
    exact ⟨hselected.1, h row (mem_selectEntries.mpr ⟨hrow, hselected⟩)⟩
  · intro hown
    exact ⟨hown.1, hown.2 ▸ hsource⟩

theorem source_of_single {rows : List ClosedSetEntry}
    (hlawful : ∀ row ∈ rows, row.provenance ∈ lawfulProvenances)
    (hsingle : ¬ (rows.map ClosedSetEntry.provenance).dedup.length > 1) :
    let source := (rows.map ClosedSetEntry.provenance).dedup.head?.getD "schema".toList
    source ∈ lawfulProvenances ∧ ∀ row ∈ rows, row.provenance = source := by
  intro source
  have hmem : ∀ row ∈ rows, row.provenance ∈ (rows.map ClosedSetEntry.provenance).dedup :=
    fun row hrow => List.mem_dedup.mpr (List.mem_map_of_mem hrow)
  match hprovenances : (rows.map ClosedSetEntry.provenance).dedup with
  | [] =>
    have hsource : source = "schema".toList := by simp [source, hprovenances]
    refine ⟨by simp [hsource, lawfulProvenances], ?_⟩
    intro row hrow
    have hrow := hmem row hrow
    simp [hprovenances] at hrow
  | [provenance] =>
    have hsource : source = provenance := by simp [source, hprovenances]
    have hown : provenance ∈ rows.map ClosedSetEntry.provenance := by
      rw [← List.mem_dedup, hprovenances]
      exact List.mem_singleton_self provenance
    obtain ⟨writer, hwriter, hprovenance⟩ := List.mem_map.mp hown
    refine ⟨?_, ?_⟩
    · rw [hsource, ← hprovenance]
      exact hlawful writer hwriter
    · intro row hrow
      have hrow := hmem row hrow
      rw [hprovenances, List.mem_singleton] at hrow
      rw [hrow, hsource]
  | first :: second :: rest =>
    rw [hprovenances] at hsingle
    simp at hsingle

theorem Partitioning.filter_ranLoader (h : Partitioning s) {source : Text}
    (hsource : source ∈ lawfulProvenances) {p : ClosedSetEntry → Bool}
    (hp : ∀ row, p row = true → row.provenance = source) :
    s.entries.filter p = (addedRows (s.history.filter (RanLoader source))).filter p := by
  have hnone : ∀ calls ∈ s.history, ¬ RanLoader source calls → (callRows calls).filter p = [] := by
    intro calls hcalls hran
    rw [List.filter_eq_nil_iff]
    intro row hrow hselected
    have hprovenance := hp row hselected
    apply hran
    rw [← hprovenance]
    exact (h.sanctioned calls hcalls row hrow (hprovenance ▸ hsource)).ranLoader
  rw [h.entries, addedRows, addedRows, List.filter_flatMap, List.filter_flatMap]
  generalize s.history = history at hnone
  induction history with
  | nil => rfl
  | cons calls rest ih =>
    rw [List.forall_mem_cons] at hnone
    rw [List.flatMap_cons, ih hnone.2]
    by_cases hran : RanLoader source calls
    · rw [List.filter_cons_of_pos (by simpa using hran), List.flatMap_cons]
    · rw [List.filter_cons_of_neg (by simpa using hran), hnone.1 hran, List.nil_append]

theorem Partitioning.selectEntries_ranLoader (h : Partitioning s) {source : Text}
    (hsource : source ∈ lawfulProvenances)
    (hall : ∀ row ∈ selectEntries collation s.entries request version, row.provenance = source) :
    selectEntries collation s.entries request version = orderBy (fun row => collation row.code)
      ((addedRows (s.history.filter (RanLoader source))).filter fun row =>
        InCorpus request version row ∧ row.provenance = source) := by
  rw [selectEntries_source hsource hall, h.filter_ranLoader hsource]
  intro row hrow
  exact (of_decide_eq_true hrow).2

theorem triple_getClosedSet (h : Partitioning s) :
    Fallible.Triple (Pointed s.db (s.readAt ++ request.readAt))
      (getClosedSet collation s.zone s.db s.entries request)
      (fun response client => Answered collation s request (.returned response) ∧
        Pointed s.db (s.readAt ++ request.readAt) client)
      (fun error client => Answered collation s request (.raised error) ∧
        Pointed s.db (s.readAt ++ request.readAt) client)
      (fun _ => False) := by
  unfold getClosedSet
  apply Fallible.triple_bind (R := fun version client =>
    Resolved s.db (s.readAt ++ request.readAt) request version ∧
      Pointed s.db (s.readAt ++ request.readAt) client)
  · apply (triple_resolveCorpusConfigVersion (List.subset_append_right _ _)).imp (fun _ h => h)
      (fun _ _ h => h) _ (fun _ h => h)
    intro error client herror
    refine ⟨?_, herror.2⟩
    cases error with
    | closedSetTypeNotFound type => exact herror.1
    | inconsistentClosedSetProvenance type provenances => exact herror.1.elim
    | client error => exact herror.1
  · intro version
    apply Fallible.triple_fact
    intro hresolved
    have hlawful : ∀ row ∈ selectEntries collation s.entries request version,
        row.provenance ∈ lawfulProvenances := fun row hrow => (mem_selectEntries.mp hrow).2.2
    dsimp only
    split
    case isTrue hmany =>
      apply Fallible.triple_raise
      intro client hpointed
      refine ⟨⟨rfl, hmany, List.nodup_dedup _, version, hresolved, ?_⟩, hpointed⟩
      intro provenance hprovenance
      obtain ⟨row, hrow, rfl⟩ := List.mem_map.mp (List.mem_dedup.mp hprovenance)
      obtain ⟨hentry, hcorpus, hown⟩ := mem_selectEntries.mp hrow
      rw [h.entries] at hentry
      obtain ⟨calls, hcalls, hcall⟩ := List.mem_flatMap.mp hentry
      exact ⟨hown, calls, hcalls, row, hcall, hcorpus, rfl, h.sanctioned calls hcalls row hcall hown⟩
    case isFalse hsingle =>
      apply Fallible.triple_pure
      intro client hpointed
      obtain ⟨hsource, hall⟩ := source_of_single hlawful hsingle
      refine ⟨⟨hresolved, hsource, ?_, ?_⟩, hpointed⟩
      · exact congrArg (List.map ClosedSetEntry.code) (h.selectEntries_ranLoader hsource hall)
      · intro calls hcalls row hrow hprovenance
        exact h.sanctioned calls hcalls row hrow (hprovenance ▸ hsource)

end Served

section Runs

variable {κ : Type} [LinearOrder κ] {collation : Text ↪ κ} {s t : Corpus}

theorem Partitioning.step (h : Partitioning s) {step : CorpusStep}
    (hstep : corpusStep collation s step = some t) : Partitioning t := by
  cases step with
  | begin connection =>
    simp only [corpusStep] at hstep
    split at hstep
    · cases hstep
    · cases hstep
      apply h.connect
      intro new hnew
      obtain rfl := Option.some.inj hnew
      exact traced_begin
  | execute connection call =>
    obtain ⟨opened, hopened, rfl⟩ := Option.map_eq_some_iff.mp hstep
    apply h.connect
    intro new hnew
    obtain rfl := Option.some.inj hnew
    exact executeCall_traced (h.traced connection opened hopened) call
  | commit connection =>
    obtain ⟨opened, hopened, rfl⟩ := Option.map_eq_some_iff.mp hstep
    exact h.committed hopened
  | rollback connection =>
    obtain ⟨opened, hopened, rfl⟩ := Option.map_eq_some_iff.mp hstep
    exact h.close connection
  | writeConfig write stamps =>
    obtain ⟨db, hdb, rfl⟩ := Option.map_eq_some_iff.mp hstep
    exact ⟨h.entries, h.sanctioned, h.traced, h.pointed.written hdb⟩
  | deliver payloads =>
    cases hstep
    exact ⟨h.entries, h.sanctioned, h.traced, h.pointed.drainOnce payloads⟩
  | read request =>
    cases hstep
    refine ⟨h.entries, h.sanctioned, h.traced, ?_⟩
    exact ((triple_getClosedSet h).imp (fun _ h => h) (fun _ _ h => h.2) (fun _ _ h => h.2)
      fun _ h => h.elim).world (h.pointed.later (List.subset_append_left _ _))

/-- In every state, each request is answered from the sanctioned rows of the corpus that its
configuration names. A type is unknown only where no version of its pointers is in effect, and a
corpus is refused only where several loaders wrote it. -/
theorem closed_sets_partitioned (zone : Zone) (db : Database) (ttlSeconds : Option Rat)
    (steps : List CorpusStep) : Runs.Throughout (corpusStep collation)
      (fun s => ∀ request,
        Answered collation s request (getClosedSet collation s.zone s.db s.entries request s.client).1)
      (Corpus.start zone db ttlSeconds) steps := by
  have hpartitioning : Runs.Throughout (corpusStep collation) Partitioning
      (Corpus.start zone db ttlSeconds) steps :=
    Runs.throughout_of_preserved (partitioning_start zone db ttlSeconds)
      fun _ _ _ hs hstep => hs.step hstep
  apply hpartitioning.imp
  intro s hs request
  have hexit := @triple_getClosedSet _ _ collation s request hs s.client
    (hs.pointed.later (List.subset_append_left _ _))
  cases hanswer : getClosedSet collation s.zone s.db s.entries request s.client with
  | mk exit client =>
    rw [hanswer] at hexit
    cases exit with
    | returned response => exact hexit.1
    | raised error => exact hexit.1
    | crashed => exact hexit

def sampleCorpusWrite : ConfigWrite where
  scope := "global".toList
  key := "closed_set.crop".toList
  value := []
  effectiveFrom := newYear 3
  author := "alice".toList
  approver := "bob".toList

def sampleEntry (id code provenance : String) : ClosedSetEntry where
  id := id.toList
  type := "crop".toList
  district := none
  code := code.toList
  source := "schema".toList
  provenance := provenance.toList
  configVersion := "v1".toList

def sampleLoad : LoaderCall where
  type := "crop".toList
  configVersion := "v1".toList
  codes := [("e1".toList, "WHEAT".toList), ("e2".toList, "PADDY".toList)]

def sampleCorpusSteps : List CorpusStep :=
  [.writeConfig sampleCorpusWrite (sampleConfigStamps "v1".toList),
    .begin 0, .execute 0 (.add [sampleEntry "e0" "OPIUM" "schema"]), .commit 0,
    .begin 1, .execute 1 (.loadSchemaDerived sampleLoad),
    .begin 2, .execute 2 (.add [sampleEntry "e3" "JUTE" "lrms"]), .commit 2, .commit 1]

def sampleClosedSetRequest : ClosedSetRequest where
  type := "crop".toList
  district := some "pune".toList
  districtReading := ⟨newYear 5, 0, 0⟩
  globalReading := ⟨newYear 5, 0, 0⟩

example : ((Runs.run (corpusStep (.refl Text)) (Corpus.start utc {} (some 300))
    sampleCorpusSteps).map fun s => ((getClosedSet (.refl Text) s.zone s.db s.entries
      sampleClosedSetRequest s.client).1.getD ⟨[], [], []⟩).codes) =
    some ["PADDY".toList, "WHEAT".toList] := by
  decide +kernel

end Runs

end LandRecords.Config
