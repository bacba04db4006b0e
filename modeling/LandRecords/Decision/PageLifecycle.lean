import LandRecords.Backend.Database

/-! Where `page.processed` fires: when a field of the page is decided and every
field of the page has a routing outcome. -/
namespace LandRecords.Decision

open Backend Audit Datetime Text

def districtForPage (db : Database) (pageId : Text) : Option Text := do
  let page ← db.page? pageId
  let doc ← db.sourceDocument? page.documentId
  let batch ← db.batch? doc.batchId
  return batch.district

def pageProcessed : Text := "page.processed".toList

def pageShardKey (district : Option Text) : Option Text :=
  if isTruthy district then some (shardKeyFor district none) else none

/-- The arguments that `record_page_processed` appends with. -/
def recordPageProcessed (pageId : Text) (district : Option Text) : AppendArgs where
  actor := "system:decision-engine".toList
  action := pageProcessed
  subject := some pageId
  shardKey := pageShardKey district
  district := district

@[simp] theorem recordPageProcessed_action (pageId : Text) (district : Option Text) :
    (recordPageProcessed pageId district).action = pageProcessed := rfl

@[simp] theorem recordPageProcessed_subject (pageId : Text) (district : Option Text) :
    (recordPageProcessed pageId district).subject = some pageId := rfl

def alreadyProcessed (db : Database) (pageId : Text) (district : Option Text) : Bool :=
  let shardId := match pageShardKey district with
    | some shardKey => shardFor shardKey
    | none => shardFor pageId
  db.audit.rows.any fun entry =>
    entry.shardId = shardId ∧ entry.action = pageProcessed ∧ entry.subject = some pageId

def pageOutcomes (db : Database) (pageId : Text) : List (Option RoutingOutcome) :=
  (db.extractions.filter fun extraction => extraction.pageId = pageId).map Extraction.routingOutcome

def isTerminal (db : Database) (pageId : Text) : Bool :=
  !(pageOutcomes db pageId).isEmpty && (pageOutcomes db pageId).all Option.isSome

def markProcessedIfTerminal (pageId : Text) (entry : Stamp) : Session Bool := do
  let district ← Fallible.read fun db => districtForPage db pageId
  if ← Fallible.read fun db => alreadyProcessed db pageId district then
    return false
  if ← Fallible.read fun db => !isTerminal db pageId then
    return false
  auditAppend entry (recordPageProcessed pageId district)
  return true

end LandRecords.Decision
