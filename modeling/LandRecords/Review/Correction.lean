import LandRecords.Backend.Database

/-! Corrections: an officer's value is written at once, or held for a second
actor where the field and the distance of the edit ask for one. -/
namespace LandRecords.Review

open Backend Audit Datetime Text

/-- One row of the dynamic program: `left` is the cell before, `above` the row
before from the diagonal cell on. -/
def nextCells (c : Char) : Nat → Text → List Nat → List Nat
  | left, d :: rest, diagonal :: up :: above =>
      let cell := min (min (up + 1) (left + 1)) (diagonal + if c = d then 0 else 1)
      cell :: nextCells c cell rest (up :: above)
  | _, _, _ => []

/-- The rows of the dynamic program after the first `i` characters of `a`. -/
def lastRow (b : Text) : Nat → Text → List Nat → List Nat
  | _, [], previous => previous
  | i, c :: rest, previous => lastRow b (i + 1) rest ((i + 1) :: nextCells c (i + 1) b previous)

/-- Plain Levenshtein distance with two rows. -/
def editDistance (a b : Text) : Nat :=
  if a = b then 0
  else if a.isEmpty then b.length
  else if b.isEmpty then a.length
  else (lastRow b 0 a (List.range (b.length + 1))).getLastD 0

def makerCheckerEditDistanceThreshold : Nat := 4

def makerCheckerFieldClasses : List Text :=
  ["owner_name".toList, "share_fraction".toList, "area".toList, "survey_number".toList]

/-- `text.rsplit("/", 1)[-1]`. -/
def lastSegment (text : Text) : Text := (text.reverse.takeWhile fun c => c ≠ '/').reverse

def sourcePageDigestFor (page : Option Page) : Session Text :=
  match page with
  | none => Fallible.raise .attributeError
  | some page =>
      if isTruthy page.storageUri then return lastSegment (orEmpty page.storageUri)
      else Fallible.raise (.noStorageUri page.id)

/-- `canonical_value or raw_value`. -/
def predictedValue (extraction : Extraction) : Text :=
  if isTruthy extraction.canonicalValue then orEmpty extraction.canonicalValue
  else extraction.rawValue

def needsMakerChecker (extraction : Extraction) (corrected : Text) : Bool :=
  extraction.fieldName ∈ makerCheckerFieldClasses &&
    makerCheckerEditDistanceThreshold < editDistance (predictedValue extraction) corrected

def cropUri (extraction : Extraction) : Text :=
  "/pages/".toList ++ extraction.pageId ++ "/crop?bbox=".toList ++ extraction.bbox

def withCorrection (correction : Correction) (db : Database) : Database :=
  { db with corrections := db.corrections ++ [correction] }

def addCorrection (correction : Correction) : Session Unit :=
  addRow (fun db => correction.id ∈ db.corrections.map Correction.id) (withCorrection correction)

def withPending (pending : PendingCorrection) (db : Database) : Database :=
  { db with pendingCorrections := db.pendingCorrections ++ [pending] }

def addPendingCorrection (pending : PendingCorrection) : Session Unit :=
  addRow (fun db => pending.id ∈ db.pendingCorrections.map PendingCorrection.id)
    (withPending pending)

def submittedCorrection (extraction : Extraction) (corrected actor : Text) (stream : SourceStream)
    (digest : Text) (stamp : Stamp) : Correction where
  id := stamp.id
  extractionId := extraction.id
  cropUri := cropUri extraction
  predicted := predictedValue extraction
  corrected := corrected
  editDistance := editDistance (predictedValue extraction) corrected
  actor := actor
  modelVersion := extraction.modelVersion
  configVersion := extraction.configVersion
  stream := stream
  sourcePageDigest := digest
  createdAt := stamp.time

def heldCorrection (extraction : Extraction) (corrected actor : Text) (stream : SourceStream)
    (digest : Text) (stamp : Stamp) : PendingCorrection where
  id := stamp.id
  extractionId := extraction.id
  cropUri := cropUri extraction
  predicted := predictedValue extraction
  corrected := corrected
  editDistance := editDistance (predictedValue extraction) corrected
  fieldClass := extraction.fieldName
  firstActor := actor
  modelVersion := extraction.modelVersion
  configVersion := extraction.configVersion
  stream := stream
  sourcePageDigest := digest
  openedAt := stamp.time

def submitCorrection (extraction : Extraction) (corrected actor : Text) (stream : SourceStream)
    (row entry : Stamp) : Session (Correction ⊕ PendingCorrection) := do
  let page ← Fallible.read fun db => db.page? extraction.pageId
  let digest ← sourcePageDigestFor page
  if needsMakerChecker extraction corrected then
    let pending := heldCorrection extraction corrected actor stream digest row
    addPendingCorrection pending
    auditAppend entry {
      actor := actor
      action := "correction.pending_maker_checker".toList
      subject := some extraction.id
      purpose := some "maker_checker_hold".toList }
    return .inr pending
  let correction := submittedCorrection extraction corrected actor stream digest row
  addCorrection correction
  auditAppend entry {
    actor := actor
    action := "correction.submitted".toList
    subject := some extraction.id
    purpose := some "review_submit".toList }
  return .inl correction

def confirmedCorrection (pending : PendingCorrection) (actor : Text) (stamp : Stamp) :
    Correction where
  id := stamp.id
  extractionId := pending.extractionId
  cropUri := pending.cropUri
  predicted := pending.predicted
  corrected := pending.corrected
  editDistance := pending.editDistance
  actor := actor
  modelVersion := pending.modelVersion
  configVersion := pending.configVersion
  stream := pending.stream
  sourcePageDigest := pending.sourcePageDigest
  createdAt := stamp.time

def resolvePending (pendingId actor correctionId : Text) (confirmedAt : Instant)
    (rows : List PendingCorrection) : List PendingCorrection :=
  rows.map fun row =>
    if row.id = pendingId then
      { row with
        state := .confirmed
        confirmedBy := some actor
        confirmedAt := some confirmedAt
        resultingCorrectionId := some correctionId }
    else row

def withResolved (pendingId actor correctionId : Text) (confirmedAt : Instant) (db : Database) :
    Database :=
  { db with pendingCorrections :=
      resolvePending pendingId actor correctionId confirmedAt db.pendingCorrections }

def claimantOf (db : Database) (extractionId : Text) : Option Text :=
  ((db.reviewTasks.filter fun task => task.extractionId = extractionId).head?).bind
    ReviewTask.assignee

def confirmPendingCorrection (pendingId actor : Text) (row : Stamp) (confirmedAt : Instant)
    (entry : Stamp) : Session Correction := do
  match ← Fallible.read fun db => db.pendingCorrection? pendingId with
  | none => Fallible.raise (.keyError "pending_correction".toList pendingId)
  | some pending =>
    if pending.state ≠ .pending then
      Fallible.raise (.pendingCorrectionAlreadyResolved pendingId pending.state)
    else
      let claimant ← Fallible.read fun db => claimantOf db pending.extractionId
      if actor = pending.firstActor ∨ claimant = some actor then
        auditAppend entry {
          actor := actor
          action := "correction.confirm_rejected".toList
          subject := some pending.extractionId
          purpose := some "maker_checker_confirm".toList }
        Fallible.raise (.sameActorCannotConfirm actor pending.firstActor claimant)
      else
        let correction := confirmedCorrection pending actor row
        addCorrection correction
        Fallible.write (withResolved pending.id actor correction.id confirmedAt)
        auditAppend entry {
          actor := actor
          action := "correction.confirmed".toList
          subject := some pending.extractionId
          purpose := some "maker_checker_confirm".toList }
        return correction

end LandRecords.Review
