import LandRecords.Extract.PageSequence
import LandRecords.Extract.RepeatedReadings
import LandRecords.Ocr.RegionIsolation

/-! What leaves the text lane: everything that was read on the page, as it was read, under the
envelope of the message. Only unreadable strokes make the lane fail. -/
namespace LandRecords.Extract

open Datetime Ocr Outbox
open Raised (Ensures)

/-! ## One page as a record -/

section Assembly

variable {builtins : Builtins} {pageId : Text} {items : List Item} {item : Item} {page : Dict ℚ}
variable {merge : Merge} {ids : List (Value ℚ)}

theorem hashed_text (text : Text) : hashed (.text text) = .ok () := rfl

theorem groupByPage_one (before : List Item) (hpage : ∀ item ∈ items, pageOf item = .text pageId) :
    groupByPage [(.text pageId, before)] items = .ok [(.text pageId, before ++ items)] := by
  induction items generalizing before with
  | nil => rw [List.append_nil, groupByPage]
  | cons item rest ih =>
    have hsame : (Value.text pageId : Value ℚ).same (.text pageId) = true := by
      rw [Value.same, beq_self_eq_true]
    have hgrouped := ih (before ++ [item]) fun later hlater =>
      hpage later (List.mem_cons_of_mem item hlater)
    rw [groupByPage, hpage item List.mem_cons_self, hashed_text, Raised.ok_bind, appendToPage,
      if_pos hsame, hgrouped, List.append_assoc, List.singleton_append]

theorem sortKey_first (pageId : Value ℚ) : sortKey builtins (numbered 0 pageId) = .ok 1 := by
  have hget : (numbered 0 pageId).get "index".toList = .number ((1 : ℤ) : ℚ) := by
    have hfirst : (numbered 0 pageId).get "index".toList = .number ((0 : ℕ) + 1) := rfl
    rw [hfirst]
    norm_num
  have hindexed : Indexed (numbered 0 pageId) := ⟨1, hget⟩
  have hone : pageIndex (numbered 0 pageId) = 1 := by
    rw [pageIndex, hget]
    norm_num
  rw [sortKey_of_ne_zero hindexed, hone]
  omega

theorem hasRole_numbered (roles : List String) :
    hasRole (numbered 0 (.text pageId)) roles = false := by
  have hnone : (numbered 0 (.text pageId)).get "page_role".toList = .none := rfl
  rw [hasRole, hnone, List.any_eq_false]
  intro role _
  have hother : (Value.text role.toList : Value ℚ).same .none = false := by
    simp [Value.same]
  rw [hother]
  exact Bool.false_ne_true

theorem sortedGroups_one (hpage : ∀ item ∈ items, pageOf item = .text pageId) :
    sortedGroups builtins (.flat items) [] =
      .ok (if items = [] then [] else [(numbered 0 (.text pageId), items)]) := by
  cases items with
  | nil => rfl
  | cons item rest =>
    have hgrouped := groupByPage_one [item] fun later hlater =>
      hpage later (List.mem_cons_of_mem item hlater)
    have hfirst : groupByPage [] (item :: rest) = .ok [(.text pageId, item :: rest)] := by
      rw [groupByPage, hpage item List.mem_cons_self]
      exact hgrouped
    rw [sortedGroups, pageGroups, hfirst, Raised.ok_bind, if_neg (not_not.mpr rfl),
      Raised.pure_eq, Raised.ok_bind, numberedPages, numberedPages, keyed, sortKey_first]
    rfl

theorem Written.ensures_mergeReading (h : Written item) :
    Ensures (mergeReading builtins merge page item) fun later =>
      later.allExtractionIds = addId merge.allExtractionIds item := by
  obtain ⟨id, extraction, rfl⟩ := h
  have hname : fieldNameOf (extractionItem id extraction) = .text extraction.fieldName := rfl
  unfold mergeReading
  dsimp only
  rw [hname]
  split
  · exact .ok rfl
  · rw [hashed_text, Raised.ok_bind]
    split
    · exact .ok rfl
    · exact .ok rfl

theorem addId_fresh (hid : (item.get "id".toList).truthy = true)
    (hfresh : listed ids (item.get "id".toList) = false) :
    addId ids item = ids ++ [item.get "id".toList] := by
  rw [addId, hid, hfresh]
  rfl

theorem ensures_mergeReadings {steps : List (Dict ℚ × Item)}
    (hwritten : ∀ step ∈ steps, Written step.2)
    (htruthy : ∀ step ∈ steps, (step.2.get "id".toList).truthy = true)
    (hfresh : ∀ step ∈ steps, listed merge.allExtractionIds (step.2.get "id".toList) = false)
    (hdistinct : steps.Pairwise fun a b =>
      (b.2.get "id".toList).same (a.2.get "id".toList) = false) :
    Ensures (mergeReadings builtins merge steps) fun later =>
      later.allExtractionIds =
        merge.allExtractionIds ++ steps.map fun step => step.2.get "id".toList := by
  induction steps generalizing merge with
  | nil => exact .ok (List.append_nil _).symm
  | cons step rest ih =>
    obtain ⟨hapart, hrest⟩ := List.pairwise_cons.mp hdistinct
    rw [mergeReadings]
    apply (hwritten step List.mem_cons_self).ensures_mergeReading.bind
    intro next hnext
    rw [addId_fresh (htruthy step List.mem_cons_self) (hfresh step List.mem_cons_self)] at hnext
    have hlater := @ih next (fun s hs => hwritten s (List.mem_cons_of_mem _ hs))
      (fun s hs => htruthy s (List.mem_cons_of_mem _ hs)) (fun s hs => by
        rw [hnext, listed, List.any_append, Bool.or_eq_false_iff]
        refine ⟨hfresh s (List.mem_cons_of_mem _ hs), ?_⟩
        rw [List.any_cons, List.any_nil, Bool.or_false]
        exact hapart s hs) hrest
    apply hlater.imp
    intro later hids
    rw [hids, hnext, List.map_cons, List.append_assoc, List.singleton_append]

theorem ensures_assemble_page {recordId : Option Text} {rationale actor : Text}
    (hwritten : ∀ item ∈ items, Written item)
    (hpage : ∀ item ∈ items, pageOf item = .text pageId)
    (htruthy : ∀ item ∈ items, (item.get "id".toList).truthy = true)
    (hdistinct : items.Pairwise fun a b =>
      (b.get "id".toList).same (a.get "id".toList) = false) :
    Ensures (assembleMultiPageRecord builtins (.flat items) recordId none (some rationale) actor [])
      fun result =>
        result.assemblyContract.extractionIds = items.map (fun item => item.get "id".toList) ∧
          result.assemblyContract.strategy = "single_page".toList := by
  have hids (lines : List Text) : Ensures (mergeReadings builtins { rationaleLines := lines }
      (items.map fun item => (numbered 0 (.text pageId), item))) fun later =>
        later.allExtractionIds = [] ++ (items.map fun item => (numbered 0 (.text pageId), item)).map
          fun step => step.2.get "id".toList :=
    ensures_mergeReadings (List.forall_mem_map.mpr hwritten) (List.forall_mem_map.mpr htruthy)
      (List.forall_mem_map.mpr fun _ _ => rfl) (List.pairwise_map.mpr hdistinct)
  unfold assembleMultiPageRecord
  rw [sortedGroups_one hpage, Raised.ok_bind]
  by_cases hnone : items = []
  · subst hnone
    exact ⟨_, rfl, rfl, rfl⟩
  · rw [if_neg hnone]
    have hvisits : visits [(numbered 0 (.text pageId), items)] =
        items.map fun item => (numbered 0 (.text pageId), item) := List.append_nil _
    rw [hvisits]
    have hscan : Ensures (scanPages {} [numbered 0 (.text pageId)]) fun scan =>
        scan.isCarriedForward = false ∧ scan.isContinuation = false :=
      ⟨_, rfl, hasRole_numbered _, hasRole_numbered _⟩
    apply hscan.bind
    intro scan hroles
    have hstrategy : detectedStrategy builtins none scan 1 = .ok "single_page".toList := by
      rw [detectedStrategy, hroles.1, hroles.2]
      rfl
    rw [List.length_singleton, hstrategy, Raised.ok_bind]
    apply (hids _).bind
    intro merge hmerge
    apply Ensures.ok
    rw [hmerge, List.nil_append, List.map_map]
    exact ⟨rfl, rfl⟩

end Assembly

/-! ## The extractions of a page -/

section Items

variable {builtins : LaneBuiltins} {message : LaneMessage} {ids : ℕ → Text} {item : Item}
variable {extractions : List Ocr.Extraction} {extraction : Ocr.Extraction}

theorem page_ne_nil (payload : PagePayload) : payload.page ≠ [] := by
  unfold PagePayload.page Ocr.orElse
  split
  · split
    · decide
    · assumption
  · assumption

theorem extractToken_eq_some {tables : WordTables} {result : OCRResult} {page : Text}
    {docType : Option Text} {token : OCRToken} (hpage : page ≠ [])
    (h : extractToken tables result page docType token = some extraction) :
    extraction.entryStatus = "unknown".toList ∧ extraction.pageId = page := by
  unfold extractToken at h
  split at h
  · cases h
  · cases h
    exact ⟨rfl, if_neg hpage⟩

theorem readPage_fresh (h : extraction ∈ readPage builtins message) :
    extraction.entryStatus = "unknown".toList ∧ extraction.pageId = message.imaged.page := by
  unfold readPage processPageTextWithRelationships at h
  split at h
  · cases h
  · dsimp only at h
    split at h
    · cases h
    · split at h
      · cases h
      · obtain ⟨result, _, hresult⟩ := List.mem_flatMap.mp h
        split at hresult
        · cases hresult
        · obtain ⟨token, _, htoken⟩ := List.mem_filterMap.mp hresult
          exact extractToken_eq_some (page_ne_nil _) htoken

theorem mem_extractionItems (h : item ∈ extractionItems ids extractions) :
    ∃ n, ∃ extraction ∈ extractions, item = extractionItem (ids n) extraction := by
  induction extractions generalizing ids with
  | nil => cases h
  | cons extraction rest ih =>
    rcases List.mem_cons.mp h with hitem | hitem
    · exact ⟨0, extraction, List.mem_cons_self, hitem⟩
    · obtain ⟨n, later, hlater, hitem⟩ := ih hitem
      exact ⟨n + 1, later, List.mem_cons_of_mem _ hlater, hitem⟩

theorem extractionItem_mem (h : extraction ∈ extractions) :
    ∃ n, extractionItem (ids n) extraction ∈ extractionItems ids extractions := by
  induction extractions generalizing ids with
  | nil => cases h
  | cons first rest ih =>
    rcases List.mem_cons.mp h with rfl | hlater
    · exact ⟨0, List.mem_cons_self⟩
    · obtain ⟨n, hmem⟩ := @ih (fun n => ids (n + 1)) hlater
      exact ⟨n + 1, List.mem_cons_of_mem _ hmem⟩

theorem extractionItems_distinct (hids : Function.Injective ids) :
    (extractionItems ids extractions).Pairwise fun a b =>
      (b.get "id".toList).same (a.get "id".toList) = false := by
  induction extractions generalizing ids with
  | nil => exact .nil
  | cons extraction rest ih =>
    apply List.Pairwise.cons
    · intro item hitem
      obtain ⟨n, later, _, rfl⟩ := mem_extractionItems hitem
      rw [get_id, get_id, Value.same, beq_eq_false_iff_ne]
      intro hsame
      exact absurd (hids hsame) n.succ_ne_zero
    · exact ih fun m n hmn => Nat.succ.inj (hids hmn)

/-! ## Strokes -/

section Strokes

variable {conversions : Conversions ℚ} {pageStrokes : List PageStroke} {id : Text}

theorem readBox_boxDict (b : BoundingBox) :
    readBox conversions (boxDict b) = .ok ⟨b.x, b.y, b.w, b.h⟩ := rfl

theorem exists_struck (h : extraction.bbox = none ∨
    ∃ strokes, readStrokes conversions pageStrokes = .ok strokes) :
    ∃ struck, detectStrikethrough conversions
      (Dict.get (extractionItem id extraction) "bbox".toList) pageStrokes = .ok struck := by
  rw [get_bbox]
  unfold detectStrikethrough classifyEntryCancellation
  cases hbox : extraction.bbox with
  | none => exact ⟨_, rfl⟩
  | some b =>
    rw [hbox] at h
    obtain ⟨strokes, hstrokes⟩ := h.resolve_left (Option.some_ne_none b)
    rw [Option.map_some, Option.getD_some]
    split
    · exact ⟨_, rfl⟩
    · rw [readBox_boxDict, Raised.ok_bind, hstrokes]
      exact ⟨_, rfl⟩

theorem detectStrikethrough_unreadable {raised : Raised} (hbox : extraction.bbox.isSome = true)
    (h : readStrokes conversions pageStrokes = .error raised) :
    detectStrikethrough conversions (Dict.get (extractionItem id extraction) "bbox".toList)
      pageStrokes = .error raised := by
  obtain ⟨b, hbox⟩ := Option.isSome_iff_exists.mp hbox
  have hstrokes : pageStrokes ≠ [] := by
    intro hnone
    rw [hnone] at h
    cases h
  rw [get_bbox, hbox, Option.map_some, Option.getD_some]
  unfold detectStrikethrough classifyEntryCancellation
  rw [if_neg, readBox_boxDict, Raised.ok_bind, h]
  · rfl
  · intro hskip
    exact hskip.elim (fun htruthy => nomatch htruthy) hstrokes

end Strokes

theorem statusOf_unknown {pageStrokes : List PageStroke} {id : Text} {struck : Bool}
    (hstatus : extraction.entryStatus = "unknown".toList)
    (h : detectStrikethrough builtins.toConversions
      (Dict.get (extractionItem id extraction) "bbox".toList) pageStrokes = .ok struck) :
    statusOf builtins pageStrokes (extractionItem id extraction) =
      .ok (extractionItem id extraction) := by
  have hkept : unknownStatus (extractionItem id extraction) = extractionItem id extraction := by
    unfold extractionItem
    rw [hstatus]
    rfl
  unfold statusOf
  rw [h, Raised.ok_bind]
  dsimp only
  rw [hkept, ite_self, hkept, ite_self]
  rfl

end Items

/-! ## The lane -/

section Lane

variable (builtins : LaneBuiltins) (message : LaneMessage)

def readItems : List Item := extractionItems builtins.extractionIds (readPage builtins message)

def Unreadable (raised : Raised) : Prop :=
  readStrokes builtins.toConversions message.pageStrokes = .error raised ∧
    ∃ extraction ∈ readPage builtins message, extraction.bbox.isSome = true

structure Published (bindings : List OwnerParcelShareBinding)
    (textLane : Envelope (Dict ℚ) (List Item)) (assembly : Envelope (Dict ℚ) AssemblyPayload) :
    Prop where
  read : textLane.payload = readItems builtins message
  assembled : assembly.payload.extractions = textLane.payload
  recorded : assembly.payload.recordAssembly.extractionIds =
    textLane.payload.map fun item => item.get "id".toList
  strategy : assembly.payload.recordAssembly.strategy = "single_page".toList
  page : ∀ item ∈ textLane.payload, pageOf item = .text message.imaged.page
  unknown : ∀ item ∈ textLane.payload,
    item.get "entry_status".toList = .text "unknown".toList
  bound : ∀ binding ∈ bindings, binding.Repeats (partition textLane.payload)
  pinned : textLane.workEnvelope = some message.workEnvelope ∧
    assembly.workEnvelope = some message.workEnvelope
  traced : textLane.traceId = message.trace ∧ assembly.traceId = message.trace

/-- The result of a message: an error of its strokes, or all that was read. -/
def Handled : LaneResult → Prop
  | .error raised => Unreadable builtins message raised
  | .success extractionsCount relationshipsCount bindings textLane assembly =>
      (∀ raised, ¬ Unreadable builtins message raised) ∧
        Published builtins message bindings textLane assembly ∧
        extractionsCount = textLane.payload.length ∧ relationshipsCount = bindings.length

variable {builtins message}

theorem mem_readItems {item : Item} (h : item ∈ readItems builtins message) :
    ∃ n, ∃ extraction ∈ readPage builtins message,
      item = extractionItem (builtins.extractionIds n) extraction :=
  mem_extractionItems h

theorem written_readItems : ∀ item ∈ readItems builtins message, Written item := by
  intro item hitem
  obtain ⟨n, extraction, _, rfl⟩ := mem_readItems hitem
  exact ⟨_, _, rfl⟩

theorem pageOf_readItems :
    ∀ item ∈ readItems builtins message, pageOf item = .text message.imaged.page := by
  intro item hitem
  obtain ⟨n, extraction, hmem, rfl⟩ := mem_readItems hitem
  have hpage : pageOf (extractionItem (builtins.extractionIds n) extraction) =
    .text extraction.pageId := rfl
  rw [hpage, (readPage_fresh hmem).2]

theorem status_readItems : ∀ item ∈ readItems builtins message,
    item.get "entry_status".toList = .text "unknown".toList := by
  intro item hitem
  obtain ⟨n, extraction, hmem, rfl⟩ := mem_readItems hitem
  have hstatus : Dict.get (extractionItem (builtins.extractionIds n) extraction)
    "entry_status".toList = .text extraction.entryStatus := rfl
  rw [hstatus, (readPage_fresh hmem).1]

theorem statuses_kept (h : ∀ raised, ¬ Unreadable builtins message raised) :
    (readItems builtins message).mapM (statusOf builtins message.pageStrokes) =
      .ok (readItems builtins message) := by
  apply Raised.mapM_eq_ok.mpr
  apply List.forall₂_same.mpr
  intro item hitem
  obtain ⟨n, extraction, hmem, rfl⟩ := mem_readItems hitem
  have hread : extraction.bbox = none ∨
      ∃ strokes, readStrokes builtins.toConversions message.pageStrokes = .ok strokes := by
    cases hbox : extraction.bbox with
    | none => exact .inl rfl
    | some b =>
      right
      cases hstrokes : readStrokes builtins.toConversions message.pageStrokes with
      | ok strokes => exact ⟨strokes, rfl⟩
      | error raised => exact absurd ⟨hstrokes, extraction, hmem, by rw [hbox]; rfl⟩ (h raised)
  obtain ⟨struck, hstruck⟩ := exists_struck hread
  exact statusOf_unknown (readPage_fresh hmem).1 hstruck

/-- The first box against unreadable strokes ends the lane. -/
theorem statuses_unreadable {raised : Raised} (h : Unreadable builtins message raised) :
    (readItems builtins message).mapM (statusOf builtins message.pageStrokes) = .error raised := by
  have hboxed : ∀ n, ∀ extraction : Ocr.Extraction, extraction.bbox.isSome = true →
      statusOf builtins message.pageStrokes
        (extractionItem (builtins.extractionIds n) extraction) = .error raised := by
    intro n extraction hbox
    rw [statusOf, detectStrikethrough_unreadable hbox h.1]
    rfl
  apply Raised.mapM_eq_error
  · intro item hitem
    obtain ⟨n, extraction, hmem, rfl⟩ := mem_readItems hitem
    cases hbox : extraction.bbox with
    | none =>
      obtain ⟨struck, hstruck⟩ := exists_struck (.inl hbox)
      exact .inl ⟨_, statusOf_unknown (readPage_fresh hmem).1 hstruck⟩
    | some b => exact .inr (hboxed n extraction (by rw [hbox]; rfl))
  · obtain ⟨extraction, hmem, hbox⟩ := h.2
    obtain ⟨n, hitem⟩ := extractionItem_mem hmem
    exact ⟨_, hitem, hboxed n extraction hbox⟩

theorem ensures_relationships (builtins : LaneBuiltins) (message : LaneMessage) :
    Ensures (extractRelationships builtins.page (some message.imaged.page)
      (readItems builtins message)) fun bindings =>
        ∀ binding ∈ bindings, binding.Repeats (partition (readItems builtins message)) :=
  ensures_extractRelationships written_readItems _

theorem processPageText_eq : processPageText builtins message = .ok (readItems builtins message) := by
  obtain ⟨bindings, hbindings, _⟩ := ensures_relationships builtins message
  rw [readItems] at hbindings
  unfold processPageText
  dsimp only
  rw [hbindings]
  rfl

theorem ensures_assemble (hids : Function.Injective builtins.extractionIds)
    (hdrawn : ∀ n, builtins.extractionIds n ≠ []) (rationale actor : Text) :
    Ensures (assembleMultiPageRecord builtins.record (.flat (readItems builtins message)) none none
      (some rationale) actor []) fun result =>
        result.assemblyContract.extractionIds =
            (readItems builtins message).map (fun item => item.get "id".toList) ∧
          result.assemblyContract.strategy = "single_page".toList := by
  apply ensures_assemble_page written_readItems pageOf_readItems
  · intro item hitem
    obtain ⟨n, extraction, _, rfl⟩ := mem_readItems hitem
    rw [get_id, Value.truthy, Bool.not_eq_true', List.isEmpty_eq_false_iff]
    exact hdrawn n
  · exact extractionItems_distinct hids

end Lane

/-- A message whose strokes can be read, or with no box to hold them against, is published with
all that was read on its page, each item once in the record. -/
theorem handled_handle (builtins : LaneBuiltins) (hids : Function.Injective builtins.extractionIds)
    (hdrawn : ∀ n, builtins.extractionIds n ≠ []) (message : LaneMessage) (stamps : LaneStamps) :
    Handled builtins message (handle builtins message stamps) := by
  obtain ⟨bindings, hbindings, hrepeats⟩ := ensures_relationships builtins message
  unfold handle textLane
  dsimp only
  rw [processPageText_eq, Raised.ok_bind, hbindings, Raised.ok_bind]
  by_cases hunreadable : ∃ raised, Unreadable builtins message raised
  · obtain ⟨raised, hunreadable⟩ := hunreadable
    rw [statuses_unreadable hunreadable]
    exact hunreadable
  · have hreadable := not_exists.mp hunreadable
    obtain ⟨assembled, hassembled, hlisted, hstrategy⟩ := ensures_assemble hids hdrawn
      ("Assembled extractions for page ".toList ++ message.imaged.page) "system".toList
    rw [statuses_kept hreadable, Raised.ok_bind, hassembled]
    exact ⟨hreadable, ⟨rfl, rfl, hlisted, hstrategy, pageOf_readItems, status_readItems, hrepeats,
      ⟨rfl, rfl⟩, ⟨rfl, rfl⟩⟩, rfl, rfl⟩

def sampleLane : LaneBuiltins where
  repr _ := "value".toList
  parse text := .error (.valueError text)
  floats := .binary64
  tables := asciiWords
  decimal c := if c.isDigit then some (c.toNat - '0'.toNat) else none
  int text := .error (.valueError text)
  service := none
  extractionIds draw := List.replicate (draw + 1) 'e'
  bindingIds draw := List.replicate (draw + 1) 'b'
  assemblyIds draw := List.replicate (draw + 1) 'a'

def strokedPage (stroke : PageStroke) : LaneMessage where
  payload := { pageId := some "p1".toList, docType := some "ror".toList }
  pageStrokes := [stroke]
  workEnvelope := [("config_version".toList, .text "v3".toList)]

def sampleStamps : LaneStamps := ⟨"m1".toList, newYear 0, "m2".toList, newYear 1⟩

theorem handled_strokedPage :
    Handled sampleLane (strokedPage .other)
      (handle sampleLane (strokedPage .other) sampleStamps) := by
  have hlength (n : ℕ) : (sampleLane.extractionIds n).length = n + 1 := List.length_replicate
  apply handled_handle sampleLane
  · intro m n hmn
    have hsame := congrArg List.length hmn
    rw [hlength, hlength] at hsame
    omega
  · intro n hnone
    have hzero := hlength n
    rw [hnone, List.length_nil] at hzero
    omega

end LandRecords.Extract
