import LandRecords.Api.UnmaskedRead
import LandRecords.Decision.ExactlyOnce
import LandRecords.Publication.ConflictRegister
import LandRecords.Publication.Versions

/-! Requests to the API. The permission check of a request is a transaction of its own, and the
route another one, which commits when the route returns and is rolled back when it raises. Whatever
else commits may come between the two. -/
namespace LandRecords.Api

open Backend Audit Datetime Publication Text

def isOwnAction (action : Text) : Bool :=
  "rbac.".toList.isPrefixOf action || "conflict.".toList.isPrefixOf action ||
    decide (action = "field.unmasked_read".toList) || decide (action = "record.published".toList)

structure ForeignProgram where
  run : Session ℕ
  refusal : Backend.Error → ℕ := fun _ => 500
  frame : ∀ db status db', run db = (.returned status, db') → db'.conflicts = db.conflicts ∧
    ∃ calls, Appended db db' calls ∧ ∀ args ∈ calls, isOwnAction args.action = false

/-- A request of a route, with the ids and clock readings of its transaction. -/
inductive Request
  | listConflicts (state : Option Text)
  | getConflict (conflictId : Text)
  | assignConflict (conflictId assignee : Text) (entry : Stamp)
  | transitionConflict (conflictId newState : Text) (resolution : Option Text) (entry : Stamp)
  | unmaskedRead (args : UnmaskedReadArgs) (entry : Stamp)
  | publish (request : PublishRequest) (stamps : PublishStamps)
  /-- Any other route, by its permission. -/
  | other (permission : Permission) (program : Identity → ForeignProgram)

def Request.permission : Request → Permission
  | .listConflicts _ | .getConflict _ => .conflictRead
  | .assignConflict _ _ _ => .conflictAssign
  | .transitionConflict _ _ _ _ => .conflictTransition
  | .unmaskedRead _ _ => .recordReadUnmasked
  | .publish _ _ => .recordPublish
  | .other permission _ => permission

structure Call where
  /-- The header `X-Actor`. -/
  header : Text
  checkEntry : Stamp
  request : Request

inductive Body
  | conflicts (views : List ConflictPublicView)
  | conflict (view : ConflictPublicView)
  | unmasked (field : UnmaskedField)
  | published (recordGroupId id : Text) (version : ℕ)
  | blocked (reasons : List BlockReason)
  | elsewhere
  | noSuchIdentity (credential : Text)
  | lacksPermission (actor : Text) (permission : Permission)
  | noSuchConflict
  /-- `str(e)`. -/
  | error (error : Error)
  | internalServerError
deriving DecidableEq

structure Response where
  status : ℕ
  body : Body
deriving DecidableEq

def refuse (identity : Identity) (request : Request) (error : Error) : Response :=
  match request, error with
  | .other _ program, .domain error => ⟨(program identity).refusal error, .elsewhere⟩
  | .assignConflict _ _ _, .domain (.keyError _ _) => ⟨404, .error error⟩
  | .transitionConflict _ _ _ _, .domain (.keyError _ _) => ⟨404, .error error⟩
  | .transitionConflict _ _ _ _, .domain (.unrecognisedConflictState _) => ⟨422, .error error⟩
  | .transitionConflict _ _ _ _, .domain (.conflictAlreadyInState _ _) => ⟨422, .error error⟩
  | .transitionConflict _ _ _ _, .domain .resolutionRequired => ⟨422, .error error⟩
  | .unmaskedRead _ _, .missingPurpose => ⟨422, .error error⟩
  | .unmaskedRead _ _, .extractionNotFound _ => ⟨404, .error error⟩
  | .publish _ _, .domain (.publishBlocked reasons) => ⟨409, .blocked reasons⟩
  | _, _ => ⟨500, .internalServerError⟩

def viewOf (zone : Zone) (conflictId : Text) (db : Database) : Response :=
  match db.tables.conflict? conflictId with
  | none => ⟨404, .noSuchConflict⟩
  | some row => ⟨200, .conflict (conflictToPublicView zone db row)⟩

section Serve

variable (provider : IdentityProvider) (signGet : Text → ℕ → Text) (zone : Zone)

def route (identity : Identity) : Request → Route Response
  | .listConflicts state => Fallible.read fun db =>
      ⟨200, .conflicts ((listConflicts state db).map (conflictToPublicView zone db))⟩
  | .getConflict conflictId => Fallible.read (viewOf zone conflictId)
  | .assignConflict conflictId assignee entry => do
      assign conflictId assignee identity.actor entry
      Fallible.read (viewOf zone conflictId)
  | .transitionConflict conflictId newState resolution entry => do
      onTables (transition conflictId newState identity.actor resolution entry)
      Fallible.read (viewOf zone conflictId)
  | .unmaskedRead args entry => do
      let field ← readUnmaskedField signGet identity.actor args entry
      return ⟨200, .unmasked field⟩
  | .publish request stamps => do
      let record ← onTables (publishNewVersion { request with actor := identity.actor } stamps)
      return ⟨200, .published record.recordGroupId record.id record.version⟩
  | .other _ program => do
      let status ← onTables (program identity).run
      return ⟨status, .elsewhere⟩

/-- The transaction of the route. A generated id that is taken is never drawn, so that such
a request is not answered. -/
def respond (identity : Identity) (request : Request) (db : Database) :
    Option (Response × Database) :=
  match route signGet zone identity request db with
  | (.returned response, after) => some (response, after)
  | (.raised (.domain .integrityError), _) => none
  | (.raised error, _) => some (refuse identity request error, db)
  | (.crashed, _) => some (⟨500, .internalServerError⟩, db)

def checked (identity : Identity) (call : Call) (db : Database) : Option Database :=
  match auditAppend call.checkEntry (recordPermissionCheck identity.actor call.request.permission
      (identity.has call.request.permission)) db.tables with
  | (.returned _, tables) => some (withTables tables db)
  | _ => none

structure Admitted where
  ticket : ℕ
  call : Call
  identity : Identity

inductive Happening
  | checked (ticket : ℕ) (call : Call)
  | answered (ticket : ℕ) (call : Call) (response : Response)
  | opened (conflictId rule : Text) (origin : ConflictOrigin)

structure State where
  db : Database
  arrived : ℕ := 0
  waiting : List Admitted := []
  history : List Happening := []

def State.add (s : State) (happened : List Happening) : State :=
  { s with history := s.history ++ happened }

/-- A request arrives under the next ticket. Without an identity or the permission it is answered
at once. -/
def arrive (call : Call) (s : State) : Option State :=
  let ticket := s.arrived
  let s := { s with arrived := ticket + 1 }
  match provider.resolve call.header with
  | none => some (s.add [.answered ticket call ⟨401, .noSuchIdentity call.header⟩])
  | some identity => (checked identity call s.db).map fun db =>
      let s := { s with db := db }
      if identity.has call.request.permission then
        State.add { s with waiting := s.waiting ++ [⟨ticket, call, identity⟩] }
          [.checked ticket call]
      else
        s.add [.checked ticket call,
          .answered ticket call ⟨403, .lacksPermission identity.actor call.request.permission⟩]

def answer (admitted : Admitted) (s : State) : Option State :=
  (respond signGet zone admitted.identity admitted.call.request s.db).map fun answer =>
    State.add
      { s with
        db := answer.2
        waiting := s.waiting.filter fun other => other.ticket ≠ admitted.ticket }
      [.answered admitted.ticket admitted.call answer.1]

/-- A step of the system: a request arrives or is answered, a conflict is opened by a validator or
by a downstream report, or the decision engine or a program of another worker commits. -/
inductive Step
  | arrive (call : Call)
  | answer (ticket : ℕ)
  | openConflict (records : List Text) (rule : Text) (evidence : List (Text × Text))
      (origin : ConflictOrigin) (stamp entry : Stamp)
  | decision (step : Decision.Step)
  | foreign (program : ForeignProgram)

def step (s : State) : Step → Option State
  | .arrive call => arrive provider call s
  | .answer ticket =>
      (s.waiting.find? fun admitted => admitted.ticket = ticket).bind fun admitted =>
        answer signGet zone admitted s
  | .openConflict records rule evidence origin stamp entry =>
      (commit (openConflict records rule evidence origin stamp entry) s.db.tables).map fun tables =>
        State.add { s with db := withTables tables s.db } [.opened stamp.id rule origin]
  | .decision decided => (Decision.step s.db.tables decided).map fun tables =>
      { s with db := withTables tables s.db }
  | .foreign program => (commit program.run s.db.tables).map fun tables =>
      { s with db := withTables tables s.db }

end Serve

end LandRecords.Api
