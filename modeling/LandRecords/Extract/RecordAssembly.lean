import LandRecords.Base.OrderBy
import LandRecords.Base.Payload
import LandRecords.Base.Rounding

/-! Assembly of one record from the extractions of several pages: the pages in order, the
gaps between them, and each field merged from all its readings. -/
namespace LandRecords.Extract

/-- The builtins that are left open: `str` and `float`, `int` of a text, and the ids drawn. -/
structure Builtins extends Conversions ℚ where
  int : Text → Except Raised ℤ
  uuid4 : ℕ → Text

abbrev Reading := Dict ℚ

inductive Extractions where
  | flat (items : List Reading)
  | grouped (pages : List (List Reading))

structure AssembledField where
  fieldName : Value ℚ
  canonicalValue : Value ℚ
  sourceExtractions : List Reading
  isConflicting : Bool
  conflictingValues : List (Value ℚ)

structure AssemblyContract where
  id : Text
  recordId : Text
  extractionIds : List (Value ℚ)
  strategy : Text
  rationale : Text
  actor : Text

structure AssembledRecordResult where
  assemblyContract : AssemblyContract
  assembledFields : List AssembledField
  pageOrder : List (Value ℚ)
  missingPages : List ℤ
  hasConflicts : Bool

/-- `text or default`. -/
def orElse (text : Option Text) (default : Text) : Text :=
  match text with
  | some (c :: rest) => c :: rest
  | _ => default

/-- `hash(value)`. -/
def hashed : Value ℚ → Except Raised Unit
  | .list _ | .dict _ => .error .typeError
  | _ => .ok ()

/-! ## Pages -/

def defaultPage : Value ℚ := .text "default_page".toList

def pageOf (item : Reading) : Value ℚ := item.getD "page_id".toList defaultPage

/-- `by_page.setdefault(p_id, []).append(item)`. -/
def appendToPage (pageId : Value ℚ) (item : Reading) :
    List (Value ℚ × List Reading) → List (Value ℚ × List Reading)
  | [] => [(pageId, [item])]
  | page :: rest =>
      if page.1.same pageId then (page.1, page.2 ++ [item]) :: rest
      else page :: appendToPage pageId item rest

def groupByPage (byPage : List (Value ℚ × List Reading)) :
    List Reading → Except Raised (List (Value ℚ × List Reading))
  | [] => .ok byPage
  | item :: rest => do
      hashed (pageOf item)
      groupByPage (appendToPage (pageOf item) item byPage) rest

/-- `by_page.get(p_id, [])`. -/
def readingsOf (byPage : List (Value ℚ × List Reading)) (pageId : Value ℚ) :
    Except Raised (List Reading) := do
  hashed pageId
  return ((byPage.find? fun page => page.1.same pageId).map Prod.snd).getD []

abbrev PageGroup := Dict ℚ × List Reading

def numbered (idx : ℕ) (pageId : Value ℚ) : Dict ℚ :=
  [("index".toList, .number (idx + 1)), ("page_id".toList, pageId)]

/-- `page_exts[0].get("page_id") if page_exts else f"page_{idx+1}"`. -/
def groupPageId (idx : ℕ) : List Reading → Value ℚ
  | [] => .text ("page_".toList ++ (toString (idx + 1)).toList)
  | first :: _ => first.get "page_id".toList

def groupedPages (pagesMetadata : List (Dict ℚ)) : ℕ → List (List Reading) → List PageGroup
  | _, [] => []
  | idx, pageExts :: rest =>
      ((pagesMetadata[idx]?).getD (numbered idx (groupPageId idx pageExts)), pageExts) ::
        groupedPages pagesMetadata (idx + 1) rest

def numberedPages : ℕ → List (Value ℚ × List Reading) → List PageGroup
  | _, [] => []
  | idx, page :: rest => (numbered idx page.1, page.2) :: numberedPages (idx + 1) rest

/-- `meta.get("page_id") or meta.get("id") or default`. -/
def metaPageId (page : Dict ℚ) (default : Value ℚ) : Value ℚ :=
  (page.get "page_id".toList).orElse ((page.get "id".toList).orElse default)

def metadataPages (byPage : List (Value ℚ × List Reading)) :
    List (Dict ℚ) → Except Raised (List PageGroup)
  | [] => .ok []
  | page :: rest => do
      let exts ← readingsOf byPage (metaPageId page defaultPage)
      return (page, exts) :: (← metadataPages byPage rest)

/-- The page groups before they are sorted. Without metadata, `pagesMetadata` is empty. -/
def pageGroups (extractions : Extractions) (pagesMetadata : List (Dict ℚ)) :
    Except Raised (List PageGroup) :=
  match extractions with
  | .grouped (page :: rest) => .ok (groupedPages pagesMetadata 0 (page :: rest))
  | .grouped [] => metadataPages [] pagesMetadata
  | .flat items => do
      let byPage ← groupByPage [] items
      if pagesMetadata ≠ [] then metadataPages byPage pagesMetadata
      else return numberedPages 0 byPage

section Assembly

variable (builtins : Builtins)

/-- `int(value)`. -/
def toInt : Value ℚ → Except Raised ℤ
  | .number n => .ok (if 0 ≤ n then ⌊n⌋ else ⌈n⌉)
  | .text t => builtins.int t
  | _ => .error .typeError

def sortKey (page : Dict ℚ) : Except Raised ℤ :=
  toInt builtins ((page.get "index".toList).orElse
    ((page.get "index_position".toList).orElse (.number 0)))

def keyed : List PageGroup → Except Raised (List (ℤ × PageGroup))
  | [] => .ok []
  | group :: rest => return (← sortKey builtins group.1, group) :: (← keyed rest)

def sortedGroups (extractions : Extractions) (pagesMetadata : List (Dict ℚ)) :
    Except Raised (List PageGroup) := do
  let groups ← keyed builtins (← pageGroups extractions pagesMetadata)
  return (orderBy Prod.fst groups).map Prod.snd

/-! ## Order and gaps -/

/-- `range(start, stop)`. A whole number stands for an `int`; Python raises where it is a `float`. -/
def range (start stop : ℚ) : Except Raised (List ℤ) :=
  if start.den = 1 ∧ stop.den = 1 then
    .ok ((List.range (stop.num - start.num).toNat).map fun i : ℕ => start.num + i)
  else .error .typeError

def gapBetween (prevIndex idx : Value ℚ) : Except Raised (List ℤ) :=
  match prevIndex, idx with
  | .none, _ | _, .none => .ok []
  | .number prev, .number n => if n > prev + 1 then range (prev + 1) n else .ok []
  | _, _ => .error .typeError

structure PageScan where
  isContinuation : Bool := false
  isCarriedForward : Bool := false
  missingPageIndices : List ℤ := []
  pageOrder : List (Value ℚ) := []
  prevIndex : Value ℚ := .none

def hasRole (page : Dict ℚ) (roles : List String) : Bool :=
  roles.any fun role => (Value.text role.toList).same (page.get "page_role".toList)

def unknownPage : Value ℚ := .text "unknown_page".toList

def scanPage (scan : PageScan) (page : Dict ℚ) : Except Raised PageScan := do
  let idx := page.get "index".toList
  let gap ← gapBetween scan.prevIndex idx
  return {
    isContinuation := scan.isContinuation || ((page.get "is_continuation".toList).truthy ||
      hasRole page ["continuation", "endorsement"])
    isCarriedForward := scan.isCarriedForward || ((page.get "is_carried_forward".toList).truthy ||
      hasRole page ["carried_forward"])
    missingPageIndices := scan.missingPageIndices ++ gap
    pageOrder := scan.pageOrder ++ [metaPageId page unknownPage]
    prevIndex := match idx with | .none => scan.prevIndex | _ => idx }

def scanPages (scan : PageScan) : List (Dict ℚ) → Except Raised PageScan
  | [] => .ok scan
  | page :: rest => do scanPages (← scanPage scan page) rest

def detectedStrategy (strategy : Option Text) (scan : PageScan) (numPages : ℕ) :
    Except Raised Text :=
  let detected := orElse strategy
    (if scan.isCarriedForward then "carried_forward".toList
    else if scan.isContinuation ∨ numPages > 1 then "continuation".toList
    else "single_page".toList)
  if detected ∈ ["single_page".toList, "continuation".toList, "carried_forward".toList] then
    .ok detected
  else .error (.valueError
    ("Invalid assembly strategy: ".toList ++ builtins.repr (.text detected)))

def headerLines (scan : PageScan) (strategy : Text) (numPages : ℕ) : List Text :=
  ("Assembled ".toList ++ (toString numPages).toList ++ "-page record group (strategy='".toList ++
      strategy ++ "').".toList) ::
    if scan.missingPageIndices = [] then []
    else ["[MISSING_PAGE_GAP] Detected missing page(s) in sequence: ".toList ++
      builtins.repr (.list (scan.missingPageIndices.map fun i => .number i)) ++ ".".toList]

/-! ## Merging -/

structure Merge where
  allExtractionIds : List (Value ℚ) := []
  assembledFields : List AssembledField := []
  hasConflicts : Bool := false
  rationaleLines : List Text

/-- `value in values`. -/
def listed (values : List (Value ℚ)) (value : Value ℚ) : Bool := values.any value.same

def canonVal (ext : Reading) : Value ℚ :=
  (ext.get "canonical_value".toList).orElse (ext.get "raw_value".toList)

def fieldNameOf (ext : Reading) : Value ℚ := ext.get "field_name".toList

def addId (ids : List (Value ℚ)) (ext : Reading) : List (Value ℚ) :=
  let extId := ext.get "id".toList
  if extId.truthy && !listed ids extId then ids ++ [extId] else ids

/-- `assembled_fields.get(fn)`. -/
def field? (fields : List AssembledField) (fieldName : Value ℚ) : Option AssembledField :=
  fields.find? fun field => field.fieldName.same fieldName

def newField (fieldName : Value ℚ) (ext : Reading) : AssembledField where
  fieldName := fieldName
  canonicalValue := canonVal ext
  sourceExtractions := [ext]
  isConflicting := false
  conflictingValues := if (canonVal ext).truthy then [canonVal ext] else []

def isNew (field : AssembledField) (ext : Reading) : Bool :=
  (canonVal ext).truthy && !listed field.conflictingValues (canonVal ext)

def addReading (field : AssembledField) (ext : Reading) : AssembledField :=
  { field with
    sourceExtractions := field.sourceExtractions ++ [ext]
    isConflicting := field.isConflicting || isNew field ext
    conflictingValues :=
      if isNew field ext then field.conflictingValues ++ [canonVal ext]
      else field.conflictingValues }

def updateField (fieldName : Value ℚ) (ext : Reading) (fields : List AssembledField) :
    List AssembledField :=
  fields.map fun field => if field.fieldName.same fieldName then addReading field ext else field

def mergeLine (page : Dict ℚ) (field : AssembledField) (ext : Reading) : Text :=
  let name := field.fieldName.str builtins.toConversions
  if isNew field ext then
    "[CONFLICT] Field '".toList ++ name ++ "' has conflicting values across pages: ".toList ++
      builtins.repr (.list (addReading field ext).conflictingValues) ++
      ". Preserving all source readings with page provenance.".toList
  else
    "[DUPLICATE] Merged duplicate field '".toList ++ name ++ "' value '".toList ++
      (canonVal ext).str builtins.toConversions ++ "' from page ".toList ++
      (metaPageId page unknownPage).str builtins.toConversions ++ " (index ".toList ++
      (page.getD "index".toList (.number 1)).str builtins.toConversions ++ ").".toList

def mergeReading (merge : Merge) (page : Dict ℚ) (ext : Reading) : Except Raised Merge := do
  let merge := { merge with allExtractionIds := addId merge.allExtractionIds ext }
  let fieldName := fieldNameOf ext
  if !fieldName.truthy then return merge
  hashed fieldName
  match field? merge.assembledFields fieldName with
  | none =>
      return { merge with
        assembledFields := merge.assembledFields ++ [newField fieldName ext] }
  | some field =>
      return { merge with
        assembledFields := updateField fieldName ext merge.assembledFields
        hasConflicts := merge.hasConflicts || isNew field ext
        rationaleLines := merge.rationaleLines ++ [mergeLine builtins page field ext] }

def visits (groups : List PageGroup) : List (Dict ℚ × Reading) :=
  groups.flatMap fun group => group.2.map fun ext => (group.1, ext)

def mergeReadings (merge : Merge) : List (Dict ℚ × Reading) → Except Raised Merge
  | [] => .ok merge
  | visit :: rest => do mergeReadings (← mergeReading builtins merge visit.1 visit.2) rest

def assembleMultiPageRecord (extractions : Extractions) (recordId strategy rationaleOverride :
    Option Text) (actor : Text) (pagesMetadata : List (Dict ℚ)) :
    Except Raised AssembledRecordResult := do
  let groups ← sortedGroups builtins extractions pagesMetadata
  let scan ← scanPages {} (groups.map Prod.fst)
  let strategy ← detectedStrategy builtins strategy scan groups.length
  let merge ← mergeReadings builtins
    { rationaleLines := headerLines builtins scan strategy groups.length } (visits groups)
  return {
    assemblyContract := {
      id := builtins.uuid4 1
      recordId := orElse recordId (builtins.uuid4 0)
      extractionIds := merge.allExtractionIds
      strategy := strategy
      rationale := orElse rationaleOverride (Text.join " ".toList merge.rationaleLines)
      actor := actor }
    assembledFields := merge.assembledFields
    pageOrder := scan.pageOrder
    missingPages := scan.missingPageIndices
    hasConflicts := merge.hasConflicts }

end Assembly

end LandRecords.Extract
