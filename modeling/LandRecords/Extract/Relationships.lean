import LandRecords.Base.FloatFormat
import LandRecords.Base.OrderBy
import LandRecords.Base.Payload

/-! Owners, shares and relationships of a page, bound to the survey numbers by their heights
on the page. The heights are computed in a format of floats. -/
namespace LandRecords.Extract

/-- The builtins that are left open: `str` and `float`, the format of the numbers, the decimal
digits of the interpreter's Unicode version, and the ids drawn. -/
structure PageBuiltins extends Conversions ℚ where
  floats : FloatFormat
  decimal : Char → Option ℕ
  uuid4 : ℕ → Text

abbrev Item := Dict ℚ

structure EntityRef where
  extractionId : Value ℚ
  fieldName : Value ℚ
  rawValue : Value ℚ
  canonicalValue : Value ℚ
  bbox : Value ℚ
  confidence : ℚ

structure OwnerRef extends EntityRef where
  relationshipLabel : Value ℚ

structure ShareRef where
  extractionId : Value ℚ
  rawValue : Value ℚ
  canonicalValue : Value ℚ
  shareNumerator : Option ℕ
  shareDenominator : Option ℕ
  bbox : Value ℚ
  confidence : ℚ

inductive EvidenceType where
  | spatialProximity
  | sectionHeader
  | fallback
deriving DecidableEq

structure OwnerParcelShareBinding where
  bindingId : Text
  pageId : Value ℚ
  parcel : Option EntityRef
  owners : List OwnerRef
  share : Option ShareRef
  evidenceType : EvidenceType
  confidence : ℚ
  isAmbiguous : Bool

section Parsing

variable (builtins : PageBuiltins)

/-- `re.match(r"(\d+)/(\d+)", text)`. -/
def matchFraction (text : Text) : Option (Text × Text) :=
  let isDigit := fun c => (builtins.decimal c).isSome
  match text.dropWhile isDigit with
  | '/' :: rest =>
      let groups := (text.takeWhile isDigit, rest.takeWhile isDigit)
      if groups.1 ≠ [] ∧ groups.2 ≠ [] then some groups else none
  | _ => none

/-- `re.search(r"(\d+)/(\d+)", text)`. -/
def searchFraction : Text → Option (Text × Text)
  | [] => none
  | c :: rest => (matchFraction builtins (c :: rest)).or (searchFraction rest)

/-- `int(digits)`, which refuses more than 4300 digits. -/
def intOfDigits (digits : Text) : Option ℕ :=
  if digits.length ≤ 4300 then
    some (digits.foldl (fun n c => 10 * n + (builtins.decimal c).getD 0) 0)
  else none

def parseFraction : Value ℚ → Except Raised (Option (ℕ × ℕ))
  | .text text => .ok do
      let groups ← searchFraction builtins text
      let n ← intOfDigits builtins groups.1
      let d ← intOfDigits builtins groups.2
      if d ≠ 0 then some (n, d) else none
  | value => if value.truthy then .error .typeError else .ok none

/-- `float(value)`, a number of the format. -/
def toFloat (value : Value ℚ) : Except Raised ℚ :=
  return builtins.floats.fl (← value.float builtins.toConversions)

def getYCenter (bbox : Value ℚ) : Except Raised ℚ :=
  if !bbox.truthy then .ok 0
  else match bbox with
    | .dict box => do
        let y ← toFloat builtins (Dict.getD box "y".toList (.number 0))
        let h ← toFloat builtins (Dict.getD box "h".toList (.number 0))
        return builtins.floats.add y (builtins.floats.div h 2)
    | _ => .error .attributeError

def yOf (item : Item) : Except Raised ℚ := getYCenter builtins (item.get "bbox".toList)

def tokenConfidence (item : Item) : Except Raised ℚ :=
  toFloat builtins (item.getD "token_confidence".toList (.number 1))

def toEntityRef (item : Item) : Except Raised EntityRef := do
  return {
    extractionId := ← Dict.item item "id".toList
    fieldName := ← Dict.item item "field_name".toList
    rawValue := ← Dict.item item "raw_value".toList
    canonicalValue := item.get "canonical_value".toList
    bbox := item.get "bbox".toList
    confidence := ← tokenConfidence builtins item }

def toOwnerRef (item : Item) (relationshipLabel : Value ℚ) : Except Raised OwnerRef := do
  return {
    extractionId := ← Dict.item item "id".toList
    fieldName := .text "owner_name".toList
    rawValue := ← Dict.item item "raw_value".toList
    canonicalValue := item.get "canonical_value".toList
    bbox := item.get "bbox".toList
    confidence := ← tokenConfidence builtins item
    relationshipLabel := relationshipLabel }

def toShareRef (item : Item) : Except Raised ShareRef := do
  let rawVal := item.getD "raw_value".toList (.text [])
  let fraction ← parseFraction builtins
    (rawVal.orElse (item.getD "canonical_value".toList (.text [])))
  return {
    extractionId := ← Dict.item item "id".toList
    rawValue := rawVal
    canonicalValue := item.get "canonical_value".toList
    shareNumerator := fraction.map Prod.fst
    shareDenominator := fraction.map Prod.snd
    bbox := item.get "bbox".toList
    confidence := ← tokenConfidence builtins item }

def nearestFrom (oY : ℚ) (bestRel : Value ℚ) (minDist : Option ℚ) :
    List Item → Except Raised (Value ℚ)
  | [] => .ok bestRel
  | r :: rest => do
      let dist := |builtins.floats.sub oY (← yOf builtins r)|
      if minDist.all (fun d => decide (dist < d)) && decide (dist < 50) then
        nearestFrom oY (r.get "raw_value".toList) (some dist) rest
      else nearestFrom oY bestRel minDist rest

def findNearestRelationship (owner : Item) (relationships : List Item) : Except Raised (Value ℚ) :=
  if relationships = [] then .ok .none
  else do nearestFrom builtins (← yOf builtins owner) .none none relationships

end Parsing

def calculateBindingConfidence (floats : FloatFormat) (parcel : Option EntityRef)
    (owners : List OwnerRef) (share : Option ShareRef) : ℚ :=
  let confs := (parcel.map (·.confidence)).toList ++ owners.map (·.confidence) ++
    (share.map (·.confidence)).toList
  if confs = [] then 0 else floats.roundTo 2 (floats.mean confs)

/-! ## Bindings -/

structure Partition where
  parcels : List Item
  owners : List Item
  relationships : List Item
  shares : List Item

def hasField (name : String) (item : Item) : Bool :=
  (item.get "field_name".toList).same (.text name.toList)

def partition (extractions : List Item) : Partition where
  parcels := extractions.filter (hasField "survey_number")
  owners := extractions.filter (hasField "owner_name")
  relationships := extractions.filter (hasField "relationship")
  shares := extractions.filter (hasField "share_fraction")

section Bindings

variable (builtins : PageBuiltins) (pageId : Value ℚ) (page : Partition)

def ownerRefs (relLabel : Value ℚ) : List Item → Except Raised (List OwnerRef)
  | [] => .ok []
  | o :: rest => return (← toOwnerRef builtins o relLabel) :: (← ownerRefs relLabel rest)

/-- `build(items[0]) if items else None`. -/
def first {β : Type} (build : Item → Except Raised β) : List Item → Except Raised (Option β)
  | [] => .ok none
  | item :: _ => return some (← build item)

def buildSingleParcelBindings : Except Raised (List OwnerParcelShareBinding) := do
  let parcelRef ← first (toEntityRef builtins) page.parcels
  let shareRef ← first (toShareRef builtins) page.shares
  let relLabel := (page.relationships.head?.map fun r => r.get "raw_value".toList).getD .none
  let refs ← ownerRefs builtins relLabel page.owners
  return [{
    bindingId := builtins.uuid4 0
    pageId := pageId
    parcel := parcelRef
    owners := refs
    share := shareRef
    evidenceType := if parcelRef.isSome && !refs.isEmpty then .spatialProximity else .fallback
    confidence := calculateBindingConfidence builtins.floats parcelRef refs shareRef
    isAmbiguous := page.parcels.isEmpty || page.owners.isEmpty }]

def ownersAt (test : ℚ → Bool) : List Item → Except Raised (List OwnerRef)
  | [] => .ok []
  | o :: rest => do
      if test (← yOf builtins o) then
        let relLabel ← findNearestRelationship builtins o page.relationships
        return (← toOwnerRef builtins o relLabel) :: (← ownersAt test rest)
      else ownersAt test rest

def shareAt (test : ℚ → Bool) : List Item → Except Raised (Option ShareRef)
  | [] => .ok none
  | s :: rest => do
      if test (← yOf builtins s) then return some (← toShareRef builtins s)
      else shareAt test rest

/-- `p_y - 20.0`. -/
def bandStart (floats : FloatFormat) (pY : ℚ) : ℚ := floats.sub pY 20

/-- A parcel's part of the page: `[p_y - 20, p_next_y)`, up to infinity for the last parcel. -/
structure Band where
  pY : ℚ
  pNextY : Option ℚ

def Band.holds (floats : FloatFormat) (band : Band) (y : ℚ) : Bool :=
  decide (bandStart floats band.pY ≤ y) &&
    match band.pNextY with
    | some next => decide (y < next)
    | none => floats.belowInf y

def parcelBinding (several : Bool) (draw : ℕ) (item : Item) (band : Band) :
    Except Raised OwnerParcelShareBinding := do
  let holds := band.holds builtins.floats
  let associatedOwners ← ownersAt builtins page holds page.owners
  let associatedShare ← shareAt builtins holds page.shares
  let parcelRef ← toEntityRef builtins item
  let conf := calculateBindingConfidence builtins.floats (some parcelRef) associatedOwners
    associatedShare
  let isAmbiguous := associatedOwners.isEmpty ||
    (several && decide (2 < associatedOwners.length) && associatedShare.isNone)
  return {
    bindingId := builtins.uuid4 draw
    pageId := pageId
    parcel := some parcelRef
    owners := associatedOwners
    share := associatedShare
    evidenceType := if isAmbiguous then .fallback else .sectionHeader
    confidence := if isAmbiguous then builtins.floats.roundTo 2 (builtins.floats.fl
      (conf * builtins.floats.fl (7 / 10))) else conf
    isAmbiguous := isAmbiguous }

def placed : List Item → Except Raised (List (ℚ × Item))
  | [] => .ok []
  | item :: rest => return (← yOf builtins item, item) :: (← placed rest)

def parcelBindings (several : Bool) (draw : ℕ) :
    List (ℚ × Item) → Except Raised (List OwnerParcelShareBinding)
  | [] => .ok []
  | parcel :: rest => do
      let band : Band := { pY := parcel.1, pNextY := rest.head?.map Prod.fst }
      let binding ← parcelBinding builtins pageId page several draw parcel.2 band
      return binding :: (← parcelBindings several (draw + 1) rest)

def buildMultiParcelBindings : Except Raised (List OwnerParcelShareBinding) := do
  let sortedParcels := orderBy Prod.fst (← placed builtins page.parcels)
  let bindings ← parcelBindings builtins pageId page (decide (1 < sortedParcels.length)) 0
    sortedParcels
  let firstPY := (sortedParcels.head?.map Prod.fst).getD 0
  let unassignedOwners ← ownersAt builtins page
    (fun y => decide (y < bandStart builtins.floats firstPY)) page.owners
  if unassignedOwners.isEmpty then return bindings
  return bindings ++ [{
    bindingId := builtins.uuid4 bindings.length
    pageId := pageId
    parcel := none
    owners := unassignedOwners
    share := none
    evidenceType := .fallback
    confidence := 1 / 2
    isAmbiguous := true }]

end Bindings

def extractRelationships (builtins : PageBuiltins) (pageId : Option Text) :
    List Item → Except Raised (List OwnerParcelShareBinding)
  | [] => .ok []
  | extraction :: rest =>
      let targetPageId :=
        match pageId with
        | some (c :: text) => .text (c :: text)
        | _ => extraction.get "page_id".toList
      let page := partition (extraction :: rest)
      if page.parcels.length ≤ 1 ∧ page.owners.length ≤ 1 then
        buildSingleParcelBindings builtins targetPageId page
      else buildMultiParcelBindings builtins targetPageId page

end LandRecords.Extract
