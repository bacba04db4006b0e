import LandRecords.Review.Returned

/-! The routes of the review workbench: the permission check, the domain function, and the
status and body of the response. -/
namespace LandRecords.Review

open Backend Audit Datetime Text

inductive Permission
  | reviewClaim | reviewSubmit | reviewConfirm
deriving DecidableEq

def Permission.value : Permission → Text
  | .reviewClaim => "review.claim".toList
  | .reviewSubmit => "review.submit".toList
  | .reviewConfirm => "review.confirm".toList

structure Identity where
  actor : Text
  has : Permission → Bool

inductive RouteRequest
  | list
  | fetchNext (sessionId : Text) (now : Instant)
  | fetchCrop (taskId : Text) (entry : Stamp)
  | submit (taskId correctedValue : Text) (verdict : Option Text) (stamps : SubmitStamps)
  | skip (taskId : Text) (entry : Stamp)
  | confirm (pendingId : Text) (row : Stamp) (confirmedAt : Instant) (entry : Stamp)

def RouteRequest.permission : RouteRequest → Permission
  | .list | .fetchNext _ _ | .fetchCrop _ _ => .reviewClaim
  | .submit _ _ _ _ | .skip _ _ => .reviewSubmit
  | .confirm _ _ _ _ => .reviewConfirm

structure Call where
  identity : Identity
  checkEntry : Stamp
  request : RouteRequest

structure ReviewTaskPublicView where
  id : Text
  extractionId : Text
  reason : Option Text
  assignee : Option Text
  openedAt : Instant
  closedAt : Option Instant
  clusterId : Option Text
  clusterSize : Option Int
  hourIntoSession : Option Int
deriving DecidableEq

def stripReviewTaskInternals (row : ReviewTask) : ReviewTaskPublicView :=
  ⟨row.id, row.extractionId, row.reason, row.assignee, row.openedAt, row.closedAt, row.clusterId,
    row.clusterSize, row.hourIntoSession⟩

/-- The `detail` of a refusal, with the values that its text names. -/
inductive Detail
  | lacksPermission (actor : Text) (permission : Permission)
  | noSuchReviewTask
  | assignedTo (taskId : Text) (assignee : Option Text) (actor : Text)
  | noMatchingExtraction (taskId extractionId : Text)
  | noStoredImage (pageId : Text)
  /-- `str(e)`. -/
  | error (e : Error)
deriving DecidableEq

inductive Body
  | tasks (views : List ReviewTaskPublicView)
  | task (view : Option ReviewTaskPublicView)
  | cropUrl (url : Text)
  | submitted (result : SubmitResult)
  | skipped (taskId : Text)
  | confirmed (pendingId correctionId confirmedBy : Text)
  | detail (detail : Detail)
  | internalServerError
deriving DecidableEq

structure Response where
  status : Nat
  body : Body
deriving DecidableEq

def refusal (status : Nat) (detail : Detail) : Response := ⟨status, .detail detail⟩

def internalServerError : Response := ⟨500, .internalServerError⟩

def inRoute {α : Type} (run : Session α) (answer : α → Database → Response)
    (refuse : Error → Response) (commits : Error → Bool) : Session Response := fun db =>
  match run db with
  | (.returned value, after) => (.returned (answer value after), after)
  | (.raised .integrityError, after) => (.raised .integrityError, after)
  | (.raised e, after) => (.returned (refuse e), if commits e then after else db)
  | (.crashed, after) => (.crashed, after)

def listReviewTasks (db : Database) : List ReviewTaskPublicView :=
  (orderBy ReviewTask.openedAt (db.reviewTasks.filter fun row => row.closedAt = none)).map
    stripReviewTaskInternals

def cropUrlTtlSeconds : Nat := 120

def cropUrl (signed bbox : Text) : Text :=
  if '?' ∈ signed then signed ++ "&bbox=".toList ++ bbox else signed ++ "?bbox=".toList ++ bbox

/-- `fetch_crop` with `crop_url_for`. -/
def fetchCrop (signGet : Text → Nat → Text) (taskId actor : Text) (entry : Stamp) :
    Session Response := do
  match ← Fallible.read fun db => db.reviewTask? taskId with
  | none => return refusal 404 .noSuchReviewTask
  | some task =>
    if task.assignee ≠ some actor then return refusal 403 (.assignedTo taskId task.assignee actor)
    else
      match ← Fallible.read fun db => db.extraction? task.extractionId with
      | none => return refusal 422 (.noMatchingExtraction task.id task.extractionId)
      | some extraction =>
        match ← Fallible.read fun db => (db.page? extraction.pageId).filter fun page =>
            isTruthy page.storageUri with
        | none => return refusal 422 (.noStoredImage extraction.pageId)
        | some page =>
          auditAppend entry {
            actor := actor
            action := "review.crop.delivered".toList
            subject := some extraction.id
            purpose := some "review_crop".toList }
          return ⟨200, .cropUrl
            (cropUrl (signGet (orEmpty page.storageUri) cropUrlTtlSeconds) extraction.bbox)⟩

def refuseTask (e : Error) : Response :=
  match e with
  | .keyError _ _ => refusal 404 (.error e)
  | .reviewTaskNotClaimable _ | .notTheClaimant _ _ _ => refusal 409 (.error e)
  | _ => internalServerError

def refuseConfirmation (e : Error) : Response :=
  match e with
  | .keyError _ _ => refusal 404 (.error e)
  | .pendingCorrectionAlreadyResolved _ _ => refusal 409 (.error e)
  | .sameActorCannotConfirm _ _ _ => refusal 403 (.error e)
  | _ => internalServerError

def commitsRejection : Error → Bool
  | .sameActorCannotConfirm _ _ _ => true
  | _ => false

def route (signGet : Text → Nat → Text) (actor : Text) : RouteRequest → Session Response
  | .list => fun db => (.returned ⟨200, .tasks (listReviewTasks db)⟩, db)
  | .fetchNext sessionId now =>
      inRoute (claimNext actor sessionId now)
        (fun taskId db => ⟨200, .task ((taskId.bind db.reviewTask?).map stripReviewTaskInternals)⟩)
        (fun _ => internalServerError) (fun _ => false)
  | .fetchCrop taskId entry => fetchCrop signGet taskId actor entry
  | .submit taskId correctedValue verdict stamps =>
      inRoute (submit taskId actor correctedValue verdict stamps)
        (fun result _ => ⟨200, .submitted result⟩) refuseTask (fun _ => false)
  | .skip taskId entry =>
      inRoute (skip taskId actor entry) (fun _ _ => ⟨200, .skipped taskId⟩) refuseTask
        (fun _ => false)
  | .confirm pendingId row confirmedAt entry =>
      inRoute (confirmPendingCorrection pendingId actor row confirmedAt entry)
        (fun correction _ => ⟨200, .confirmed pendingId correction.id actor⟩) refuseConfirmation
        commitsRejection

/-- `require_permission` and the route. -/
def serve (signGet : Text → Nat → Text) (call : Call) : Session Response := do
  let permission := call.request.permission
  let allowed := call.identity.has permission
  auditAppend call.checkEntry {
    actor := call.identity.actor
    action := if allowed then "rbac.checked".toList else "rbac.denied".toList
    subject := some permission.value
    shardKey := some Audit.systemShardKey }
  if allowed then route signGet call.identity.actor call.request
  else return refusal 403 (.lacksPermission call.identity.actor permission)

/-- A generated id that is taken is never drawn, so that such a call is not answered. -/
def respond (signGet : Text → Nat → Text) (call : Call) (db : Database) :
    Option (Response × Database) :=
  match serve signGet call db with
  | (.returned response, after) => some (response, after)
  | _ => none

def afterCall (signGet : Text → Nat → Text) (db : Database) (call : Call) : Option Database :=
  (respond signGet call db).map Prod.snd

def responses (signGet : Text → Nat → Text) : Database → List Call → Option (List Response)
  | _, [] => some []
  | db, call :: calls =>
      (respond signGet call db).bind fun answered =>
        (responses signGet answered.2 calls).map fun rest => answered.1 :: rest

def asRouted (twins : List Text) (row : ReviewTask) : ReviewTask :=
  if row.id ∈ twins then { row with sourceStream := .routed } else row

def ofTwin (twins : List Text) (sample : AuditSample) : Bool :=
  sample.reviewTaskId.any fun taskId => taskId ∈ twins

/-- The state in which the twins are routed, without their samples. -/
def routedTwin (twins : List Text) (db : Database) : Database :=
  { db with
    reviewTasks := db.reviewTasks.map (asRouted twins)
    auditSamples := db.auditSamples.filter fun sample => !ofTwin twins sample }

/-- The twins are audit tasks, each with its sample. -/
structure AuditTwins (twins : List Text) (db : Database) : Prop where
  sampleKeys : (db.auditSamples.map AuditSample.id).Nodup
  audit : ∀ row ∈ db.reviewTasks, row.id ∈ twins → row.sourceStream = .audit
  sampled : ∀ taskId ∈ twins,
    (db.auditSamples.filter fun sample => sample.reviewTaskId = some taskId).length = 1

def submittable (db : Database) (taskId actor : Text) : Bool :=
  match (claimedTask taskId actor db).1 with
  | .returned task => (db.extraction? task.extractionId).any fun extraction =>
      (db.page? extraction.pageId).any fun page => isTruthy page.storageUri
  | _ => false

/-- Nobody submits a verdict that is none, for a twin that could be submitted. -/
def VerdictValid (twins : List Text) (db : Database) (call : Call) : Prop :=
  match call.request with
  | .submit taskId _ (some verdict) _ =>
      taskId ∈ twins → call.identity.has .reviewSubmit = true →
        submittable db taskId call.identity.actor = true → OfficerVerdict.ofText? verdict ≠ none
  | _ => True

end LandRecords.Review
