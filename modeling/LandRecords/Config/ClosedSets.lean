import LandRecords.Config.Client
import LandRecords.Config.Lineage
import LandRecords.Base.LastEvent
import Mathlib

/-! Closed sets. A row counts by its provenance, which only the loaders may claim: a trigger
compares it with a setting that they make for the rest of their transaction. The endpoint serves
the rows of the version that the configuration names. -/
namespace LandRecords.Config

open Backend Datetime Text

structure ClosedSetEntry where
  id : Text
  type : Text
  /-- Without a district, the row is for all of them. -/
  district : Option Text
  code : Text
  /-- What the writer says about the row. It is never read. -/
  source : Text
  provenance : Text
  configVersion : Text
deriving DecidableEq

/-- The values that `ck_closed_set_entry_provenance_enum` admits. -/
def closedSetProvenances : List Text := ["schema".toList, "lgd".toList, "lrms".toList]

def lawfulProvenances : List Text := ["schema".toList, "lgd".toList]

def trustedProvenances : List Text := ["schema".toList, "lgd".toList]

inductive LoaderError
  | assertionError (message : Text)
  /-- What the trigger raises. -/
  | raiseException (message : Text)
  | integrityError

/-- The rows that a transaction added, and its `app.closed_set_loader_provenance`. -/
structure LoaderTransaction where
  added : List ClosedSetEntry := []
  loaderProvenance : Option Text := none

abbrev Loading := Fallible LoaderTransaction LoaderError

def sanctionedLoaderMessage (provenance : Text) (loaderProvenance : Option Text) : Text :=
  "closed_set_entry.provenance=".toList ++ provenance ++
    " must be written by its own sanctioned loader (app.closed_set_loader_provenance was ".toList ++
    loaderProvenance.getD "<unset>".toList ++ ", expected ".toList ++ provenance ++
    ") — FR-VAL-09 corpus partition".toList

/-- `enforce_closed_set_entry_loader_provenance`. -/
def enforceLoaderProvenance (row : ClosedSetEntry) : Loading Unit := do
  let loaderProvenance ← Fallible.read LoaderTransaction.loaderProvenance
  if row.provenance ∈ ["schema".toList, "lgd".toList] ∧ loaderProvenance ≠ some row.provenance then
    Fallible.raise (.raiseException (sanctionedLoaderMessage row.provenance loaderProvenance))
  else return ()

def withEntry (row : ClosedSetEntry) (transaction : LoaderTransaction) : LoaderTransaction :=
  { transaction with added := transaction.added ++ [row] }

def setLocal (provenance : Text) (transaction : LoaderTransaction) : LoaderTransaction :=
  { transaction with loaderProvenance := some provenance }

/-- The configuration versions and the rows that are committed when a statement runs. -/
structure CorpusTables where
  versions : List Text
  entries : List ClosedSetEntry

/-- The trigger runs before the constraints are checked. -/
def insertEntry (tables : CorpusTables) (row : ClosedSetEntry) : Loading Unit := do
  enforceLoaderProvenance row
  let added ← Fallible.read LoaderTransaction.added
  if row.id ∈ (tables.entries ++ added).map ClosedSetEntry.id ∨
      row.provenance ∉ closedSetProvenances ∨ row.configVersion ∉ tables.versions then
    Fallible.raise .integrityError
  else Fallible.write (withEntry row)

def insertEntries (tables : CorpusTables) : List ClosedSetEntry → Loading Unit
  | [] => return ()
  | row :: rest => do
      insertEntry tables row
      insertEntries tables rest

def setLoaderProvenance (provenance : Text) : Loading Unit :=
  if provenance ∈ trustedProvenances then Fallible.write (setLocal provenance)
  else Fallible.raise (.assertionError
    ("refusing to SET LOCAL an unrecognised provenance: '".toList ++ provenance ++ "'".toList))

structure LoaderCall where
  type : Text
  configVersion : Text
  codes : List (Text × Text)
  district : Option Text := none
  source : Option Text := none

def LoaderCall.rows (call : LoaderCall) (provenance defaultSource : Text) : List ClosedSetEntry :=
  call.codes.map fun (id, code) =>
    { id, type := call.type, district := call.district, code, provenance,
      source := call.source.getD defaultSource, configVersion := call.configVersion }

def loadEntries (provenance defaultSource : Text) (tables : CorpusTables) (call : LoaderCall) :
    Loading (List ClosedSetEntry) := do
  setLoaderProvenance provenance
  let rows := call.rows provenance defaultSource
  insertEntries tables rows
  return rows

def loadSchemaDerivedEntries : CorpusTables → LoaderCall → Loading (List ClosedSetEntry) :=
  loadEntries "schema".toList "schema_extractor".toList

def loadLgdDerivedEntries : CorpusTables → LoaderCall → Loading (List ClosedSetEntry) :=
  loadEntries "lgd".toList "lgd_importer".toList

/-- `config_pointer`: the scope and the key of the version that names a corpus. -/
def configPointer (type : Text) : Option Text → Text × Text
  | some district =>
      if district ≠ [] then
        ("district".toList, "closed_set.".toList ++ type ++ '.' :: district)
      else ("global".toList, "closed_set.".toList ++ type)
  | none => ("global".toList, "closed_set.".toList ++ type)

inductive ClosedSetError
  | closedSetTypeNotFound (type : Text)
  | inconsistentClosedSetProvenance (type : Text) (provenances : List Text)
  | client (error : ClientError)

abbrev ClosedSets := Fallible ConfigClient ClosedSetError

structure Reading where
  now : Instant
  clock : Rat
  cachedAt : Rat

structure ClosedSetRequest where
  type : Text
  district : Option Text
  pinnedEnvelope : Option Text := none
  districtReading : Reading
  globalReading : Reading

/-- `config_client.get(scope, key)["config_version"]`, with `ConfigNotFound` caught. -/
def corpusPointer (zone : Zone) (db : Database) (pinnedEnvelope : Option Text) (reading : Reading)
    (pointer : Text × Text) (otherwise : ClosedSets Text) : ClosedSets Text :=
  Fallible.handle
    (do
      let response ← Fallible.within id (fun client _ => client) .client
        (get (fetchFrom zone db reading.now) pinnedEnvelope reading.clock reading.cachedAt
          pointer.1 pointer.2 none)
      return response.configVersion)
    fun error =>
      match error with
      | .client (.fetchError (.configNotFound _ _ _)) => otherwise
      | _ => Fallible.raise error

def resolveGlobal (zone : Zone) (db : Database) (request : ClosedSetRequest) : ClosedSets Text :=
  corpusPointer zone db request.pinnedEnvelope request.globalReading
    (configPointer request.type none)
    (Fallible.raise (.closedSetTypeNotFound request.type))

/-- An empty district is none. -/
def givenDistrict (request : ClosedSetRequest) : Option Text := request.district.filter (· ≠ [])

def resolveCorpusConfigVersion (zone : Zone) (db : Database) (request : ClosedSetRequest) :
    ClosedSets Text :=
  match givenDistrict request with
  | some district =>
      corpusPointer zone db request.pinnedEnvelope request.districtReading
        (configPointer request.type (some district)) (resolveGlobal zone db request)
  | none => resolveGlobal zone db request

structure ClosedSetResponse where
  codes : List Text
  source : Text
  configVersion : Text

/-- The rows of a corpus, whatever their provenance. -/
def InCorpus (request : ClosedSetRequest) (corpusVersion : Text) (row : ClosedSetEntry) : Prop :=
  row.type = request.type ∧ row.configVersion = corpusVersion ∧
    ∀ district ∈ givenDistrict request, row.district = some district ∨ row.district = none

instance (request : ClosedSetRequest) (corpusVersion : Text) :
    DecidablePred (InCorpus request corpusVersion) := fun row =>
  inferInstanceAs (Decidable (row.type = request.type ∧ row.configVersion = corpusVersion ∧
    ∀ district ∈ givenDistrict request, row.district = some district ∨ row.district = none))

section Endpoint

-- The order of the codes in `ORDER BY`, in which no two codes are equal.
variable {κ : Type} [LinearOrder κ] (collation : Text ↪ κ)

def selectEntries (entries : List ClosedSetEntry) (request : ClosedSetRequest)
    (corpusVersion : Text) : List ClosedSetEntry :=
  orderBy (fun row => collation row.code) (entries.filter fun row =>
    InCorpus request corpusVersion row ∧ row.provenance ∈ lawfulProvenances)

def getClosedSet (zone : Zone) (db : Database) (entries : List ClosedSetEntry)
    (request : ClosedSetRequest) : ClosedSets ClosedSetResponse := do
  let corpusVersion ← resolveCorpusConfigVersion zone db request
  let rows := selectEntries collation entries request corpusVersion
  let provenances := (rows.map ClosedSetEntry.provenance).dedup
  if provenances.length > 1 then
    Fallible.raise (.inconsistentClosedSetProvenance request.type provenances)
  else return {
    codes := rows.map ClosedSetEntry.code
    source := provenances.head?.getD "schema".toList
    configVersion := corpusVersion }

end Endpoint

end LandRecords.Config
