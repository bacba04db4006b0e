import LandRecords.Base.ReadCommitted
import LandRecords.Outbox.Message

/-! Triage routing. The work envelope of a page is pinned with its first routing, a lost
race is recovered from by reading the winner, and each lane gets a message with the
envelope. -/
namespace LandRecords.Triage

open Datetime Outbox ReadCommitted Text

abbrev ModelVersions := List (Text × Text)

structure WorkEnvelope where
  envelopeId : Text
  documentId : Text
  pageId : Text
  pinnedAt : Instant
  modelVersions : ModelVersions
  configVersion : Text
deriving DecidableEq

structure ContractEnvelope where
  envelopeId : Text
  documentId : Text
  pageId : Text
  pinnedAt : Text
  modelVersions : ModelVersions
  configVersion : Text
deriving DecidableEq

def WorkEnvelope.toContractDict (zone : Zone) (envelope : WorkEnvelope) : ContractEnvelope where
  envelopeId := envelope.envelopeId
  documentId := envelope.documentId
  pageId := envelope.pageId
  pinnedAt := isoformat zone envelope.pinnedAt
  modelVersions := envelope.modelVersions
  configVersion := envelope.configVersion

/-- The classifiers may leave the type and the role null. -/
structure LanePayload where
  documentId : Text
  pageId : Text
  docType : Option Text
  pageRole : Option Text
deriving DecidableEq

abbrev LaneMessage := OutboxMessage (Envelope ContractEnvelope LanePayload)

structure Routes where
  envelopes : List WorkEnvelope := []
  messages : List LaneMessage := []

def requiredModelKeys : List Text :=
  ["confidence_calibrator", "hwr", "novelty_detector", "printed_ocr", "triage_classifier"].map
    String.toList

inductive IncompleteModelVersions
  | missing (keys : List Text)
  | extra (keys : List Text)

def checkModelVersions (modelVersions : ModelVersions) : Except IncompleteModelVersions Unit :=
  let keys := modelVersions.map Prod.fst
  let missing := requiredModelKeys.filter fun key => key ∉ keys
  let extra := keys.filter fun key => key ∉ requiredModelKeys
  if missing ≠ [] then .error (.missing missing)
  else if extra ≠ [] then .error (.extra extra)
  else .ok ()

def textQueue : Text := "TEXT_QUEUE".toList
def mapQueue : Text := "MAP_QUEUE".toList

def isOneOf (value : Option Text) (names : List String) : Bool :=
  value.any fun text => text ∈ names.map String.toList

def laneFor (docType pageRole : Option Text) : List Text :=
  if isOneOf pageRole ["blank"] then []
  else
    (if isOneOf pageRole ["text", "tabular_register", "endorsement"] then [textQueue] else []) ++
    (if isOneOf pageRole ["map_sheet"] || isOneOf docType ["cadastral_map", "fmb_sketch"] then
      [mapQueue] else [])

/-- The arguments of `route_page`, what the registry is going to answer, and the ids to
be generated. -/
structure Routing where
  documentId : Text
  pageId : Text
  docType : Option Text
  pageRole : Option Text
  configVersion : Option Text
  /-- None if the registry raises. -/
  resolved : Option ModelVersions
  zone : Zone
  envelopeId : Text
  messageId : Text → Text
  outboxId : Text → Text

/-- Where a routing is, with the envelope it is going to send and the lanes that are
left. -/
inductive Phase
  | received
  | unpinned
  | resolved (modelVersions : ModelVersions)
  | lost
  | pinned (envelope : WorkEnvelope) (zone : Zone) (lanes queued : List Text)

structure Locals where
  routing : Routing
  phase : Phase

inductive Write
  | addEnvelope (row : WorkEnvelope)
  | addMessage (row : LaneMessage)

inductive RowKey
  | workEnvelope (id : Text)
  | envelopeOf (pageId : Text)
  | outboxMessage (id : Text)
deriving DecidableEq

def Write.keys : Write → List RowKey
  | .addEnvelope row => [.workEnvelope row.envelopeId, .envelopeOf row.pageId]
  | .addMessage row => [.outboxMessage row.id]

def Write.apply : Write → Routes → Routes
  | .addEnvelope row, db => { db with envelopes := db.envelopes ++ [row] }
  | .addMessage row, db => { db with messages := db.messages ++ [row] }

def Write.violates (db : Routes) : Write → Bool
  | .addEnvelope row => row.envelopeId ∈ db.envelopes.map WorkEnvelope.envelopeId
  | .addMessage row => row.id ∈ db.messages.map OutboxMessage.id

/-- `find_by_page`, which raises if there are several. -/
def findByPage (db : Routes) (pageId : Text) : Option (Option WorkEnvelope) :=
  match db.envelopes.filter fun envelope => envelope.pageId = pageId with
  | [] => some none
  | [envelope] => some (some envelope)
  | _ => none

def newEnvelope (routing : Routing) (modelVersions : ModelVersions) (configVersion : Text)
    (now : Instant) : WorkEnvelope where
  envelopeId := routing.envelopeId
  documentId := routing.documentId
  pageId := routing.pageId
  pinnedAt := now
  modelVersions := modelVersions
  configVersion := configVersion

def laneMessage (routing : Routing) (envelope : WorkEnvelope) (zone : Zone) (lane : Text)
    (now : Instant) : LaneMessage :=
  outboxRow lane
    (emit lane "triage".toList
      ⟨routing.documentId, routing.pageId, routing.docType, routing.pageRole⟩
      (some (envelope.toContractDict zone)) (routing.documentId ++ ':' :: routing.pageId)
      (routing.messageId lane) now)
    (routing.outboxId lane) now

def pinnedWith (routing : Routing) (envelope : WorkEnvelope) (zone : Zone) : Phase :=
  .pinned envelope zone (laneFor routing.docType routing.pageRole) []

/-- `route_page` with `pin`, statement by statement. -/
def routeStatement (routing : Routing) (now : Instant) (db : Routes) :
    Phase → Statement Phase Write
  | .received =>
      match findByPage db routing.pageId with
      | none => .fail
      | some none => .next .unpinned none
      | some (some envelope) => .next (pinnedWith routing envelope routing.zone) none
  | .unpinned =>
      match routing.resolved with
      | none => .fail
      | some modelVersions =>
          match findByPage db routing.pageId with
          | none => .fail
          | some (some existing) => .next (pinnedWith routing existing routing.zone) none
          | some none =>
              match checkModelVersions modelVersions with
              | .error _ => .fail
              | .ok _ => .next (.resolved modelVersions) none
  | .resolved modelVersions =>
      match routing.configVersion with
      -- The column is not nullable, and its violation is caught like that of the key.
      | none => .next .lost none
      | some configVersion =>
          -- The insert waits for a transaction that holds the page, and fails if it commits.
          if routing.pageId ∈ db.envelopes.map WorkEnvelope.pageId then .next .lost none
          else
            let envelope := newEnvelope routing modelVersions configVersion now
            .next (pinnedWith routing envelope utc) (some (.addEnvelope envelope))
  | .lost =>
      match findByPage db routing.pageId with
      | some (some winner) => .next (pinnedWith routing winner routing.zone) none
      | _ => .fail
  | .pinned envelope zone (lane :: lanes) queued =>
      .next (.pinned envelope zone lanes (queued ++ [lane]))
        (some (.addMessage (laneMessage routing envelope zone lane now)))
  | .pinned _ _ [] _ => .done

def Locals.statement (locals : Locals) (now : Instant) (db : Routes) : Statement Locals Write :=
  match routeStatement locals.routing now db locals.phase with
  | .done => .done
  | .fail => .fail
  | .next phase write => .next { locals with phase := phase } write

def routings : System Routes Routing Locals Write Instant where
  init routing := ⟨routing, .received⟩
  statement := Locals.statement
  apply := Write.apply
  clash write held := write.keys.any fun key => key ∈ held.keys
  violates write db := write.violates db

abbrev Commits := Shared Routes Locals Instant

def Carries (envelope : WorkEnvelope) (message : LaneMessage) : Prop :=
  message.envelope.payload.pageId = envelope.pageId ∧
    ∃ zone, message.envelope.workEnvelope = some (envelope.toContractDict zone)

/-- A page has one envelope at most, and a message for a lane carries the one of its
page. -/
structure PinnedOnce (db : Routes) : Prop where
  once : (db.envelopes.map WorkEnvelope.pageId).Nodup
  carries : ∀ message ∈ db.messages, ∃ envelope ∈ db.envelopes, Carries envelope message

end LandRecords.Triage
