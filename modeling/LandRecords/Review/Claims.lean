import LandRecords.Base.RowLocks
import LandRecords.Review.Concurrency

/-! Concurrent claims, skips and submissions of review tasks. A claim selects the open
unassigned tasks, goes through them from the oldest on, skips those that are locked, and
checks the one that it has locked against the `WHERE` again. A skip and a submission lock
nothing before they write. -/
namespace LandRecords.Review.Claims

open Backend Datetime RowLocks Text

inductive Request
  | claim (actor sessionId : Text)
  | skip (taskId actor : Text)
  | submit (taskId actor correctedValue : Text) (verdict : Option Text) (rowId : Text)

/-- Where a transaction is. A claim has the tasks that it has not tried yet, then the one
that it takes. -/
inductive Phase
  | received
  | searching (ahead : List Text)
  | checking (taskId : Text) (ahead : List Text)
  | taken (taskId : Text)
  | sessionRead (taskId : Text) (current : Option ReviewSession) (now : Instant)
  | sessionStarting (taskId : Text) (now : Instant)
  | sessionKept (taskId : Text) (hour : Int)
  | assigned (taskId : Text)
  | nothingLeft
  | skipping
  | skipped
  | submitting (phase : Review.Phase)

structure Locals where
  request : Request
  phase : Phase

inductive Write
  | review (write : Review.Write)
  | endSession (sessionId : Text) (endedAt : Instant)
  | startSession (session : ReviewSession)
  | touchSession (sessionId : Text) (lastActivityAt : Instant)
  | assign (taskId actor : Text) (hour : Int)
  | release (taskId : Text)

inductive Key
  | row (key : RowKey)
  | session (id : Text)
deriving DecidableEq

abbrev taskKey (taskId : Text) : Key := .row (.reviewTask taskId)

def Write.keys : Write → List Key
  | .review write => [.row write.rowKey]
  | .endSession sessionId _ | .touchSession sessionId _ => [.session sessionId]
  | .startSession session => [.session session.id]
  | .assign taskId _ _ | .release taskId => [taskKey taskId]

def Write.apply : Write → Database → Database
  | .review write => write.apply
  | .endSession sessionId endedAt => fun db =>
      withSessions (mapSession sessionId (fun row => { row with endedAt := some endedAt })
        db.reviewSessions) db
  | .startSession session => fun db => withSessions (db.reviewSessions ++ [session]) db
  | .touchSession sessionId lastActivityAt => fun db =>
      withSessions (mapSession sessionId (fun row => { row with lastActivityAt := lastActivityAt })
        db.reviewSessions) db
  | .assign taskId actor hour => mapTask taskId (claimedBy actor hour)
  | .release taskId => mapTask taskId released

def Write.violates (db : Database) : Write → Bool
  | .review write => write.violates db
  | .startSession session => session.id ∈ db.reviewSessions.map ReviewSession.id
  | _ => false

def isUnclaimed (row : ReviewTask) : Bool := row.assignee = none ∧ row.closedAt = none

def unclaimedIds (db : Database) : List Text :=
  (orderBy ReviewTask.openedAt (db.reviewTasks.filter isUnclaimed)).map ReviewTask.id

def available (db : Database) (taskId : Text) : Bool := (db.reviewTask? taskId).any isUnclaimed

/-- `claim_next`, statement by statement, with `touch_session`. -/
def claimStatement (actor sessionId : Text) (now : Instant) (db : Database) :
    Phase → Statement Phase Write Key Unit
  | .received => .next (.searching (unclaimedIds db))
  | .searching (taskId :: ahead) =>
      .tryLock (taskKey taskId) (.checking taskId ahead) (.searching ahead)
  | .searching [] => .next .nothingLeft
  | .checking taskId ahead =>
      if available db taskId then .next (.taken taskId) else .next (.searching ahead)
  | .taken taskId => .next (.sessionRead taskId (openSession db actor) now)
  | .sessionRead taskId current now =>
      match current.filter (isActive now), current with
      | some session, _ =>
          .write (.sessionKept taskId (hoursBetween session.startedAt now))
            (.touchSession session.id now)
      | none, some stale =>
          .write (.sessionStarting taskId now) (.endSession stale.id stale.lastActivityAt)
      | none, none => .next (.sessionStarting taskId now)
  | .sessionStarting taskId now =>
      .write (.sessionKept taskId (hoursBetween now now))
        (.startSession ⟨sessionId, actor, now, now, none⟩)
  | .sessionKept taskId hour => .write (.assigned taskId) (.assign taskId actor hour)
  | .assigned _ | .nothingLeft => .done
  | _ => .fail

/-- `skip`. -/
def skipStatement (taskId actor : Text) (db : Database) : Phase → Statement Phase Write Key Unit
  | .received =>
      match (claimedTask taskId actor db).1 with
      | .returned _ => .next .skipping
      | _ => .fail
  | .skipping => .write .skipped (.release taskId)
  | .skipped => .done
  | _ => .fail

/-- A statement of `submit`. -/
def submitting : ReadCommitted.Statement Review.Phase Review.Write → Statement Phase Write Key Unit
  | .done => .done
  | .fail => .fail
  | .next phase none => .next (.submitting phase)
  | .next phase (some write) => .write (.submitting phase) (.review write)

def requestStatement (now : Instant) (db : Database) (request : Request) :
    Phase → Statement Phase Write Key Unit :=
  match request with
  | .claim actor sessionId => claimStatement actor sessionId now db
  | .skip taskId actor => skipStatement taskId actor db
  | .submit taskId actor correctedValue verdict rowId => fun phase =>
      match phase with
      | .received =>
          submitting (submitStatement taskId actor correctedValue verdict rowId now db .received)
      | .submitting phase =>
          submitting (submitStatement taskId actor correctedValue verdict rowId now db phase)
      | _ => .fail

def Locals.statement (locals : Locals) (now : Instant) (db : Database) :
    Statement Locals Write Key Unit :=
  (requestStatement now db locals.request locals.phase).mapLocals fun phase =>
    { locals with phase := phase }

def claims : System Database Request Locals Write Key Unit Instant where
  init request := ⟨request, .received⟩
  statement := Locals.statement
  apply := Write.apply
  keys := Write.keys
  violates write db := write.violates db

abbrev Commits := Shared Database Locals Unit Instant

abbrev ClaimTxn := Txn Locals Write Key

abbrev ClaimsState := State Database Locals Write Key Unit Instant

abbrev ClaimsStep := RowLocks.Step Request Instant

def Locals.claimed? (locals : Locals) : Option (Text × Text) :=
  match locals.request, locals.phase with
  | .claim actor _, .assigned taskId => some (taskId, actor)
  | _, _ => none

def Locals.skipped? (locals : Locals) : Option (Text × Text) :=
  match locals.request, locals.phase with
  | .skip taskId actor, .skipped => some (taskId, actor)
  | _, _ => none

/-- What a committed transaction makes of the officer who holds the task: the one who has
claimed it last and has not skipped it since. -/
def holderAfter (taskId : Text) (holder : Option Text) (locals : Locals) : Option Text :=
  match locals.claimed?, locals.skipped? with
  | some (claimed, actor), _ => if taskId = claimed then some actor else holder
  | none, some (skipped, actor) =>
      if taskId = skipped ∧ holder = some actor then none else holder
  | none, none => holder

def assigneeOf (db : Database) (taskId : Text) : Option Text :=
  (db.reviewTask? taskId).bind ReviewTask.assignee

def holder (start : Database) (log : List Locals) (taskId : Text) : Option Text :=
  log.foldl (holderAfter taskId) (assigneeOf start taskId)

def HandedOver (start : Database) (log : List Locals) : Prop :=
  ∀ before locals after, log = before ++ locals :: after →
    ∀ taskId actor, locals.claimed? = some (taskId, actor) →
      holder start before taskId = none ∨ holder start before taskId = some actor

def closed (db : Database) (taskId : Text) : Bool :=
  (db.reviewTask? taskId).any fun row => row.closedAt ≠ none

def TookOldest (start : ClaimsState) (steps : List ClaimsStep) (i : Nat) (taskId : Text) : Prop :=
  ∃ front s txn task, front ++ [.execute i] <+: steps ∧ Runs.run (step claims) start front = some s ∧
    s.txn? i = some txn ∧ txn.locals.phase = .received ∧
    task ∈ s.shared.committed.reviewTasks ∧ task.id = taskId ∧ isUnclaimed task = true ∧
    ∀ other ∈ s.shared.committed.reviewTasks, isUnclaimed other = true →
      other.openedAt < task.openedAt →
        ∃ later t, front <+: later ∧ later <+: steps ∧ Runs.run (step claims) start later = some t ∧
          (t.heldElsewhere i (taskKey other.id) = true ∨
            available t.shared.committed other.id = false)

/-- Exclusive and fair claims, throughout a run. -/
structure ClaimsExclusive (start : ClaimsState) (steps : List ClaimsStep) : Prop where
  /-- A claim that commits takes a task that is open, unassigned and not locked by another. -/
  takesUnclaimed : ∀ front s i t txn taskId actor, front ++ [.commit i] <+: steps →
    Runs.run (step claims) start front = some s → step claims s (.commit i) = some t →
      s.txn? i = some txn → txn.locals.claimed? = some (taskId, actor) →
        available s.shared.committed taskId = true ∧ s.heldElsewhere i (taskKey taskId) = false
  handedOver : Runs.Throughout (step claims)
    (fun s => HandedOver start.shared.committed s.shared.log) start steps
  /-- A task that is closed stays closed, and is not claimed by what commits after that. -/
  closedForGood : ∀ front rest s t taskId, front ++ rest <+: steps →
    Runs.run (step claims) start front = some s → Runs.run (step claims) s rest = some t →
      closed s.shared.committed taskId = true → closed t.shared.committed taskId = true ∧
        ∃ later, t.shared.log = s.shared.log ++ later ∧
          ∀ locals ∈ later, ∀ actor, locals.claimed? ≠ some (taskId, actor)
  takesOldest : ∀ front s i txn taskId actor, front <+: steps →
    Runs.run (step claims) start front = some s → s.txn? i = some txn →
      txn.locals.claimed? = some (taskId, actor) → TookOldest start front i taskId

/-- A skip commits while its officer has the task, or nobody has. -/
def SkipsOwn (v : Commits) (txn : ClaimTxn) : Prop :=
  ∀ skipped ∈ txn.locals.skipped?, assigneeOf v.committed skipped.1 = none ∨
    assigneeOf v.committed skipped.1 = some skipped.2

instance (v : Commits) (txn : ClaimTxn) : Decidable (SkipsOwn v txn) :=
  inferInstanceAs (Decidable (∀ skipped ∈ txn.locals.skipped?, _))

end LandRecords.Review.Claims
