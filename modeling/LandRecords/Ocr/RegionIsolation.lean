import LandRecords.Ocr.FieldExtractor
import Mathlib

/-! Isolation of the regions of a page. Every engine is given the image of the whole page, so a
region is read in isolation only where nothing else is on the page. -/
namespace LandRecords.Ocr

/-! ## Boxes -/

/-- The points of a box, its far edges not included. -/
def BoundingBox.points (b : BoundingBox) : Set (ℚ × ℚ) :=
  Set.Ico (b.low .x) (b.high .x) ×ˢ Set.Ico (b.low .y) (b.high .y)

def BoundingBox.Within (b region : BoundingBox) : Prop :=
  ∀ axis, region.low axis ≤ b.low axis ∧ b.low axis < region.high axis ∧
    b.high axis ≤ region.high axis

def LiesIn (token : OCRToken) (region : BoundingBox) : Prop :=
  ∃ b, token.bbox = some b ∧ b.Within region

theorem BoundingBox.Within.corner_mem {b region : BoundingBox} (h : b.Within region) :
    (b.x, b.y) ∈ region.points :=
  ⟨⟨(h .x).1, (h .x).2.1⟩, (h .y).1, (h .y).2.1⟩

theorem LiesIn.not_disjoint {token : OCRToken} {region other : BoundingBox}
    (hregion : LiesIn token region) (hother : LiesIn token other) :
    ¬Disjoint region.points other.points := by
  obtain ⟨b, hb, hwithin⟩ := hregion
  obtain ⟨b', hb', hwithin'⟩ := hother
  cases hb.symm.trans hb'
  exact Set.not_disjoint_iff.mpr ⟨_, hwithin.corner_mem, hwithin'.corner_mem⟩

/-! ## What the regions of a page are given -/

/-- The printed engine of a page reads its printed regions and its tables. -/
def LogicalRegion.isPrinted (region : LogicalRegion) : Bool :=
  region.route = .printedText || region.route = .ruledTable

def pageReading (engine : OCREngine) (payload : PagePayload) (configVersion : Text) :
    Except OCRError OCRResult :=
  engine.processImage payload.image payload.page configVersion

def placeholderResult (pageId configVersion : Text) : OCRResult where
  pageId := pageId
  tokens := [HWRAdapter.unsupportedToken (some pageBox)]
  fullText := unsupportedText
  engineId := "hwr".toList
  modelVersion := "hwr-placeholder-v1".toList
  configVersion := configVersion

theorem routePage_pageId (lower : Text → Text) (payload : PagePayload) :
    (routePage lower payload).pageId = payload.page := by
  unfold routePage
  dsimp only
  split
  · rfl
  · split
    · rfl
    · split
      · rfl
      · split <;> rfl

section Dispatch

variable {service : Option OCREngine} {engine : OCREngine} {payload : PagePayload}
  {configVersion : Text} {region : LogicalRegion}

theorem dispatchRegion_eq :
    dispatchRegion service (pageEngines engine) payload.image payload.page configVersion region =
      if region.isPrinted then pageReading engine payload configVersion
      else if region.route = .handwrittenText then
        .ok (placeholderResult payload.page configVersion)
      else .ok (mapResult payload.page configVersion) := by
  unfold dispatchRegion LogicalRegion.isPrinted
  cases region.route <;> rfl

theorem dispatchRegion_printed (h : region.isPrinted = true) :
    dispatchRegion service (pageEngines engine) payload.image payload.page configVersion region =
      pageReading engine payload configVersion := by
  rw [dispatchRegion_eq, if_pos h]

theorem dispatchRegion_other (h : region.isPrinted = false) :
    ∃ result, dispatchRegion service (pageEngines engine) payload.image payload.page configVersion
        region = .ok result ∧
      (region.route = .handwrittenText ∧ result = placeholderResult payload.page configVersion ∨
        region.route ≠ .handwrittenText ∧ result = mapResult payload.page configVersion) := by
  rw [dispatchRegion_eq, if_neg (by simp [h])]
  by_cases hroute : region.route = .handwrittenText
  · rw [if_pos hroute]
    exact ⟨_, rfl, .inl ⟨hroute, rfl⟩⟩
  · rw [if_neg hroute]
    exact ⟨_, rfl, .inr ⟨hroute, rfl⟩⟩

end Dispatch

/-! ## Isolation -/

section Isolation

variable (tables : WordTables) (service : Option OCREngine) (payload : PagePayload)
  (configVersion : Option Text) (engine : OCREngine)

def pageDispatch : Except OCRError (List OCRResult) :=
  dispatchAndExtract service (pageEngines engine) payload (routePage tables.lower payload)
    (orElse configVersion "v1".toList)

def regionResults (results : List OCRResult) : List (LogicalRegion × OCRResult) :=
  (routePage tables.lower payload).regions.zip results

structure Isolated : Prop where
  /-- A token that is reported for a region lies in it. -/
  inRegion : ∀ results, pageDispatch tables service payload configVersion engine = .ok results →
    ∀ part ∈ regionResults tables payload results, ∀ token ∈ part.2.tokens,
      LiesIn token part.1.bbox
  /-- The printed engine reports no token that lies in a map or in handwriting. -/
  unread : ∀ results, pageDispatch tables service payload configVersion engine = .ok results →
    ∀ part ∈ regionResults tables payload results, part.1.isPrinted = true →
      ∀ token ∈ part.2.tokens, ∀ region ∈ (routePage tables.lower payload).regions,
        region.isPrinted = false → ¬LiesIn token region.bbox
  /-- A printed token is extracted as often as the engine finds it on the page, at most. -/
  once : ∀ reading, pageReading engine payload (orElse configVersion "v1".toList) = .ok reading →
    ∀ {ρ : Type} (related : List Extraction → Text → List ρ) (extraction : Extraction),
      extraction.engine ≠ "hwr".toList →
      (processPageTextWithRelationships tables related service payload configVersion
          (some engine)).1.count extraction ≤
        (extractFieldsForDoctype tables reading payload.page payload.docType).count extraction

/-- A page that is read in isolation as it is: handwriting is the whole page, and what is found on
the page is nothing, or is all in the one region that is read by the printed engine. -/
def ReadApart (regions : List LogicalRegion) (reading : Except OCRError OCRResult) : Prop :=
  (∀ region ∈ regions, region.route = .handwrittenText → pageBox.Within region.bbox) ∧
    ∀ result, reading = .ok result → result.tokens = [] ∨
      (regions.filter LogicalRegion.isPrinted).length ≤ 1 ∧
        ∀ region ∈ regions, region.isPrinted = true → ∀ token ∈ result.tokens,
          LiesIn token region.bbox

variable {tables service payload configVersion engine} {results : List OCRResult}

theorem pageDispatch_eq_ok :
    pageDispatch tables service payload configVersion engine = .ok results ↔
      List.Forall₂ (fun region result => dispatchRegion service (pageEngines engine) payload.image
        payload.page (orElse configVersion "v1".toList) region = .ok result)
        (routePage tables.lower payload).regions results := by
  rw [pageDispatch, dispatchAndExtract, routePage_pageId, Raised.mapM_eq_ok]

theorem dispatchRegion_of_mem
    (h : pageDispatch tables service payload configVersion engine = .ok results)
    {part : LogicalRegion × OCRResult} (hpart : part ∈ regionResults tables payload results) :
    part.1 ∈ (routePage tables.lower payload).regions ∧
      dispatchRegion service (pageEngines engine) payload.image payload.page
        (orElse configVersion "v1".toList) part.1 = .ok part.2 :=
  ⟨(List.of_mem_zip hpart).1, (List.forall₂_iff_zip.mp (pageDispatch_eq_ok.mp h)).2 hpart⟩

theorem exists_result_of_mem
    (h : pageDispatch tables service payload configVersion engine = .ok results)
    {region : LogicalRegion} (hregion : region ∈ (routePage tables.lower payload).regions) :
    ∃ result, (region, result) ∈ regionResults tables payload results := by
  have hlength := (List.forall₂_iff_zip.mp (pageDispatch_eq_ok.mp h)).1
  have hfst := List.map_fst_zip hlength.le
  rw [← hfst, List.mem_map] at hregion
  obtain ⟨part, hpart, rfl⟩ := hregion
  exact ⟨part.2, hpart⟩

theorem exists_pageDispatch
    (h : (∃ reading, pageReading engine payload (orElse configVersion "v1".toList) = .ok reading) ∨
      ∀ region ∈ (routePage tables.lower payload).regions, region.isPrinted = false) :
    ∃ results, pageDispatch tables service payload configVersion engine = .ok results := by
  rw [pageDispatch, dispatchAndExtract, routePage_pageId]
  apply Raised.exists_mapM_eq_ok
  intro region hregion
  cases hprinted : region.isPrinted with
  | true =>
    rw [dispatchRegion_printed hprinted]
    cases h with
    | inl hreading => exact hreading
    | inr hnone => exact absurd (hnone region hregion) (by simp [hprinted])
  | false =>
    obtain ⟨result, hresult, -⟩ := @dispatchRegion_other service engine payload
      (orElse configVersion "v1".toList) region hprinted
    exact ⟨result, hresult⟩

/-! ### Extractions -/

theorem processPage_count_le {ρ : Type} {related : List Extraction → Text → List ρ}
    {extraction : Extraction} {bound : ℕ}
    (h : ∀ results, pageDispatch tables service payload configVersion engine = .ok results →
      (results.flatMap fun result => extractFieldsForDoctype tables result payload.page
        payload.docType).count extraction ≤ bound) :
    (processPageTextWithRelationships tables related service payload configVersion
      (some engine)).1.count extraction ≤ bound := by
  have hblank : (fun result : OCRResult => if result.tokens = [] then []
      else extractFieldsForDoctype tables result payload.page payload.docType) =
        fun result => extractFieldsForDoctype tables result payload.page payload.docType := by
    funext result
    split
    · rw [extractFieldsForDoctype, ‹result.tokens = []›, List.filterMap_nil]
    · rfl
  unfold processPageTextWithRelationships
  split
  · exact Nat.zero_le _
  · rw [Option.getD_some, hblank]
    dsimp only
    cases hdispatch : dispatchAndExtract service (pageEngines engine) payload
        (routePage tables.lower payload) (orElse configVersion "v1".toList) with
    | error e => exact Nat.zero_le _
    | ok results =>
      dsimp only
      split
      · exact Nat.zero_le _
      · exact h results hdispatch

theorem extractToken_engine {result : OCRResult} {pageId : Text} {docType : Option Text}
    {token : OCRToken} {extraction : Extraction}
    (h : extractToken tables result pageId docType token = some extraction) :
    extraction.engine = result.engineId := by
  rw [extractToken] at h
  split at h
  · cases h
  · cases h
    rfl

theorem count_of_engine_ne {result : OCRResult} {pageId : Text} {docType : Option Text}
    {extraction : Extraction} (h : extraction.engine ≠ result.engineId) :
    (extractFieldsForDoctype tables result pageId docType).count extraction = 0 := by
  rw [List.count_eq_zero]
  intro hmem
  obtain ⟨token, -, hextracted⟩ := List.mem_filterMap.mp hmem
  exact h (extractToken_engine hextracted)

theorem count_dispatchRegion_le {reading result : OCRResult} {region : LogicalRegion}
    {extraction : Extraction} (hengine : extraction.engine ≠ "hwr".toList)
    (hreading : pageReading engine payload (orElse configVersion "v1".toList) = .ok reading)
    (hresult : dispatchRegion service (pageEngines engine) payload.image payload.page
      (orElse configVersion "v1".toList) region = .ok result) :
    (extractFieldsForDoctype tables result payload.page payload.docType).count extraction ≤
      if region.isPrinted then (extractFieldsForDoctype tables reading payload.page
        payload.docType).count extraction else 0 := by
  cases hprinted : region.isPrinted with
  | true =>
    rw [dispatchRegion_printed hprinted, hreading] at hresult
    cases hresult
    rfl
  | false =>
    obtain ⟨_, hsame, hother⟩ := @dispatchRegion_other service engine payload
      (orElse configVersion "v1".toList) region hprinted
    cases hsame.symm.trans hresult
    cases hother with
    | inl hplaceholder =>
      rw [hplaceholder.2, count_of_engine_ne hengine]
      exact Nat.zero_le _
    | inr hmap =>
      rw [hmap.2]
      exact Nat.zero_le _

theorem count_results_le {reading : OCRResult} {extraction : Extraction}
    {regions : List LogicalRegion} (hengine : extraction.engine ≠ "hwr".toList)
    (hreading : pageReading engine payload (orElse configVersion "v1".toList) = .ok reading)
    (hresults : List.Forall₂ (fun region result => dispatchRegion service (pageEngines engine)
      payload.image payload.page (orElse configVersion "v1".toList) region = .ok result)
      regions results) :
    (results.flatMap fun result => extractFieldsForDoctype tables result payload.page
      payload.docType).count extraction ≤
      (regions.filter LogicalRegion.isPrinted).length *
        (extractFieldsForDoctype tables reading payload.page payload.docType).count extraction := by
  induction hresults with
  | nil => exact Nat.zero_le _
  | @cons region result regions results hresult _ ih =>
    have hstep := @count_dispatchRegion_le tables _ _ _ _ _ _ _ _ hengine hreading hresult
    rw [List.flatMap_cons, List.count_append, List.filter_cons]
    by_cases hprinted : region.isPrinted = true
    · rw [if_pos hprinted] at hstep
      rw [if_pos hprinted, List.length_cons, Nat.succ_mul]
      omega
    · rw [if_neg hprinted] at hstep
      rw [if_neg hprinted]
      omega

/-! ### When the regions are isolated -/

theorem printed_length_le_one {regions : List LogicalRegion} {token : OCRToken}
    (hdisjoint : regions.Pairwise fun a b => Disjoint a.bbox.points b.bbox.points)
    (htoken : ∀ region ∈ regions, region.isPrinted = true → LiesIn token region.bbox) :
    (regions.filter LogicalRegion.isPrinted).length ≤ 1 := by
  have hprinted := hdisjoint.filter LogicalRegion.isPrinted
  have hlies : ∀ region ∈ regions.filter LogicalRegion.isPrinted, LiesIn token region.bbox := by
    intro region hregion
    rw [List.mem_filter] at hregion
    exact htoken region hregion.1 hregion.2
  match hfilter : regions.filter LogicalRegion.isPrinted with
  | [] => exact Nat.zero_le _
  | [_] => exact le_rfl
  | first :: second :: rest =>
    rw [hfilter] at hprinted hlies
    have hapart := (List.pairwise_cons.mp hprinted).1 second List.mem_cons_self
    exact absurd hapart ((hlies first List.mem_cons_self).not_disjoint
      (hlies second (List.mem_cons_of_mem _ List.mem_cons_self)))

theorem Isolated.readApart (h : Isolated tables service payload configVersion engine)
    (hdisjoint : (routePage tables.lower payload).regions.Pairwise
      fun a b => Disjoint a.bbox.points b.bbox.points)
    (hreturns : ∃ results,
      pageDispatch tables service payload configVersion engine = .ok results) :
    ReadApart (routePage tables.lower payload).regions
      (pageReading engine payload (orElse configVersion "v1".toList)) := by
  obtain ⟨results, hresults⟩ := hreturns
  have hregions (region : LogicalRegion)
      (hregion : region ∈ (routePage tables.lower payload).regions) :
      ∃ result, dispatchRegion service (pageEngines engine) payload.image payload.page
        (orElse configVersion "v1".toList) region = .ok result ∧
          ∀ token ∈ result.tokens, LiesIn token region.bbox := by
    obtain ⟨result, hpart⟩ := exists_result_of_mem hresults hregion
    exact ⟨result, (dispatchRegion_of_mem hresults hpart).2, h.inRegion results hresults _ hpart⟩
  constructor
  · intro region hregion hroute
    obtain ⟨result, hresult, hlies⟩ := hregions region hregion
    have hprinted : region.isPrinted = false := by simp [LogicalRegion.isPrinted, hroute]
    rw [dispatchRegion_eq, if_neg (by simp [hprinted]), if_pos hroute] at hresult
    cases hresult
    obtain ⟨b, hb, hwithin⟩ := hlies _ List.mem_cons_self
    cases hb
    exact hwithin
  · intro reading hreading
    have hlies (region : LogicalRegion)
        (hregion : region ∈ (routePage tables.lower payload).regions)
        (hprinted : region.isPrinted = true) : ∀ token ∈ reading.tokens,
          LiesIn token region.bbox := by
      obtain ⟨result, hresult, hlies⟩ := hregions region hregion
      rw [dispatchRegion_printed hprinted, hreading] at hresult
      cases hresult
      exact hlies
    cases htokens : reading.tokens with
    | nil => exact .inl rfl
    | cons token tokens =>
      rw [htokens] at hlies
      refine .inr ⟨?_, hlies⟩
      apply printed_length_le_one hdisjoint
      intro region hregion hprinted
      exact hlies region hregion hprinted token List.mem_cons_self

theorem ReadApart.liesIn (h : ReadApart (routePage tables.lower payload).regions
      (pageReading engine payload (orElse configVersion "v1".toList)))
    (hresults : pageDispatch tables service payload configVersion engine = .ok results)
    {part : LogicalRegion × OCRResult} (hpart : part ∈ regionResults tables payload results)
    {token : OCRToken} (htoken : token ∈ part.2.tokens) : LiesIn token part.1.bbox := by
  obtain ⟨hregion, hresult⟩ := dispatchRegion_of_mem hresults hpart
  cases hprinted : part.1.isPrinted with
  | true =>
    rw [dispatchRegion_printed hprinted] at hresult
    cases h.2 _ hresult with
    | inl hnone =>
      rw [hnone] at htoken
      cases htoken
    | inr hlies => exact hlies.2 _ hregion hprinted token htoken
  | false =>
    obtain ⟨_, hsame, hother⟩ := @dispatchRegion_other service engine payload
      (orElse configVersion "v1".toList) part.1 hprinted
    cases hsame.symm.trans hresult
    cases hother with
    | inl hplaceholder =>
      rw [hplaceholder.2] at htoken
      cases List.mem_singleton.mp htoken
      exact ⟨pageBox, rfl, h.1 _ hregion hplaceholder.1⟩
    | inr hmap =>
      rw [hmap.2] at htoken
      cases htoken

theorem ReadApart.count_le {reading : OCRResult} {extraction : Extraction}
    (h : ReadApart (routePage tables.lower payload).regions
      (pageReading engine payload (orElse configVersion "v1".toList)))
    (hengine : extraction.engine ≠ "hwr".toList)
    (hreading : pageReading engine payload (orElse configVersion "v1".toList) = .ok reading)
    (hresults : pageDispatch tables service payload configVersion engine = .ok results) :
    (results.flatMap fun result => extractFieldsForDoctype tables result payload.page
      payload.docType).count extraction ≤
        (extractFieldsForDoctype tables reading payload.page payload.docType).count extraction := by
  have hcount := @count_results_le tables service payload configVersion engine results reading
    extraction _ hengine hreading (pageDispatch_eq_ok.mp hresults)
  cases h.2 reading hreading with
  | inl hnone =>
    rw [extractFieldsForDoctype, hnone, List.filterMap_nil, List.count_nil, Nat.mul_zero] at hcount
    exact hcount.trans (Nat.zero_le _)
  | inr hone => exact hcount.trans ((Nat.mul_le_mul_right _ hone.1).trans_eq (Nat.one_mul _))

/-- The regions are isolated exactly where the engine fails on the page or the page is one that
can be read as a whole. -/
theorem regions_isolated_iff (tables : WordTables) (service : Option OCREngine)
    (payload : PagePayload) (configVersion : Option Text) (engine : OCREngine)
    (hdisjoint : (routePage tables.lower payload).regions.Pairwise
      fun a b => Disjoint a.bbox.points b.bbox.points) :
    Isolated tables service payload configVersion engine ↔
      ((∃ error, pageReading engine payload (orElse configVersion "v1".toList) = .error error) ∧
        ∃ region ∈ (routePage tables.lower payload).regions, region.isPrinted = true) ∨
      ReadApart (routePage tables.lower payload).regions
        (pageReading engine payload (orElse configVersion "v1".toList)) := by
  constructor
  · intro h
    by_cases hnone : ∀ region ∈ (routePage tables.lower payload).regions, region.isPrinted = false
    · exact .inr (h.readApart hdisjoint (exists_pageDispatch (.inr hnone)))
    · cases hreading : pageReading engine payload (orElse configVersion "v1".toList) with
      | ok reading =>
        rw [← hreading]
        exact .inr (h.readApart hdisjoint (exists_pageDispatch (.inl ⟨reading, hreading⟩)))
      | error error =>
        push Not at hnone
        exact .inl ⟨⟨error, rfl⟩, by simpa using hnone⟩
  · rintro (⟨⟨error, hfails⟩, region, hregion, hprinted⟩ | h)
    · -- the exception of the engine ends the dispatch
      have hraises (results : List OCRResult) :
          pageDispatch tables service payload configVersion engine ≠ .ok results := by
        intro hresults
        obtain ⟨result, hpart⟩ := exists_result_of_mem hresults hregion
        have hresult := (dispatchRegion_of_mem hresults hpart).2
        rw [dispatchRegion_printed hprinted, hfails] at hresult
        cases hresult
      constructor
      · exact fun results hresults => absurd hresults (hraises results)
      · exact fun results hresults => absurd hresults (hraises results)
      · intro reading hreading
        cases hfails.symm.trans hreading
    · constructor
      · exact fun results hresults part hpart token htoken => h.liesIn hresults hpart htoken
      · intro results hresults part hpart hprinted token htoken region hregion hother hlies
        have hapart := hdisjoint.forall (dispatchRegion_of_mem hresults hpart).1 hregion
          (by rintro rfl; simp [hprinted] at hother)
        exact (h.liesIn hresults hpart htoken).not_disjoint hlies hapart
      · intro reading hreading ρ related extraction hengine
        exact processPage_count_le fun results hresults => h.count_le hengine hreading hresults

end Isolation

/-! ### A page with two regions -/

def asciiWords : WordTables where
  isDecimal := isDigit
  lower := Text.lower
  isWord := fun c => c.isAlphanum || c == '_'

def surveyToken : OCRToken := ⟨"12/34".toList, 9 / 10, some ⟨10, 10, 50, 20⟩, []⟩

def surveyReader : OCREngine where
  processImage _ pageId config := .ok
    { pageId := pageId
      tokens := [surveyToken]
      fullText := surveyToken.text
      engineId := "printed_ocr".toList
      modelVersion := "v1".toList
      configVersion := config }

def twoRegions (lowerType : String) : PagePayload where
  pageId := some "p1".toList
  layoutRegions := some
    [{ id := some "r1".toList, type := some "printed_text".toList,
       bbox := some ⟨some 0, some 0, some 500, some 100⟩ },
      { id := some "r2".toList, type := some lowerType.toList,
        bbox := some ⟨some 0, some 100, some 500, some 100⟩ }]
  imageBytes := some [1]

def upperRegion : LogicalRegion := ⟨"r1".toList, .printedText, ⟨0, 0, 500, 100⟩, 1, []⟩

def lowerRegion (route : LogicalRoute) : LogicalRegion :=
  ⟨"r2".toList, route, ⟨0, 100, 500, 100⟩, 1, []⟩

theorem twoRegions_regions {lowerType : String} {route : LogicalRoute}
    (h : LayoutRegion.logicalRoute Text.lower
      { id := some "r2".toList, type := some lowerType.toList,
        bbox := some ⟨some 0, some 100, some 500, some 100⟩ } = route) :
    (routePage asciiWords.lower (twoRegions lowerType)).regions =
      [upperRegion, lowerRegion route] := by
  have hprinted : LayoutRegion.logicalRoute Text.lower
      { id := some "r1".toList, type := some "printed_text".toList,
        bbox := some ⟨some 0, some 0, some 500, some 100⟩ } = .printedText := by
    decide +kernel
  have hexplicit : (twoRegions lowerType).explicitRegions ≠ [] := by
    simp [twoRegions, PagePayload.explicitRegions, orElse]
  rw [routePage, if_pos hexplicit]
  simp [twoRegions, PagePayload.explicitRegions, orElse, asciiWords, LayoutRegion.toLogical,
    upperRegion, lowerRegion, RawBox.toBox]
  exact ⟨hprinted, h⟩

theorem upper_disjoint_lower (route : LogicalRoute) :
    [upperRegion, lowerRegion route].Pairwise
      fun a b => Disjoint a.bbox.points b.bbox.points := by
  have happart : (upperRegion.bbox.high .y) ≤ (lowerRegion route).bbox.low .y := by
    norm_num [upperRegion, lowerRegion, BoundingBox.high, BoundingBox.low, BoundingBox.size]
  have hdisjoint : Disjoint upperRegion.bbox.points (lowerRegion route).bbox.points :=
    Set.disjoint_left.mpr fun _ hupper hlower =>
      absurd (hupper.2.2.trans_le happart) (not_lt.mpr hlower.2.1)
  simpa using hdisjoint

theorem surveyToken_liesIn : LiesIn surveyToken upperRegion.bbox := by
  refine ⟨⟨10, 10, 50, 20⟩, rfl, fun axis => ?_⟩
  cases axis <;>
    norm_num [upperRegion, BoundingBox.high, BoundingBox.low, BoundingBox.size]

theorem regions_isolated_mapBelow :
    Isolated asciiWords none (twoRegions "map") none surveyReader := by
  have hregions : (routePage asciiWords.lower (twoRegions "map")).regions =
      [upperRegion, lowerRegion .nonTextMap] :=
    twoRegions_regions (by decide +kernel)
  apply (regions_isolated_iff _ _ _ _ _ ?_).mpr
  · right
    rw [hregions]
    constructor
    · simp [upperRegion, lowerRegion]
    · intro result hresult
      have htokens : result.tokens = [surveyToken] := by
        rw [← Except.ok.inj hresult]
      rw [htokens]
      right
      constructor
      · decide
      · intro region hregion hprinted token htoken
        rw [List.mem_singleton.mp htoken]
        rcases List.mem_pair.mp hregion with rfl | rfl
        · exact surveyToken_liesIn
        · cases hprinted
  · rw [hregions]
    exact upper_disjoint_lower .nonTextMap

/-- A table below the printed region is given the survey number as well. -/
theorem regions_tableBelow_notIsolated :
    ¬Isolated asciiWords none (twoRegions "table") none surveyReader := by
  intro h
  have hregions : (routePage asciiWords.lower (twoRegions "table")).regions =
      [upperRegion, lowerRegion .ruledTable] :=
    twoRegions_regions (by decide +kernel)
  obtain ⟨results, hresults⟩ : ∃ results,
      pageDispatch asciiWords none (twoRegions "table") none surveyReader = .ok results :=
    exists_pageDispatch (.inl ⟨_, rfl⟩)
  obtain ⟨result, hpart⟩ := exists_result_of_mem hresults
    (hregions ▸ List.mem_cons_of_mem _ List.mem_cons_self)
  have hread := (dispatchRegion_of_mem hresults hpart).2
  rw [dispatchRegion_printed rfl] at hread
  have htokens : (lowerRegion .ruledTable, result).2.tokens = [surveyToken] := by
    rw [← Except.ok.inj hread]
  obtain ⟨b, hb, hwithin⟩ := h.inRegion results hresults _ hpart surveyToken
    (by rw [htokens]; exact List.mem_cons_self)
  have hbelow := (hwithin .y).1
  cases hb
  norm_num [lowerRegion, BoundingBox.low] at hbelow

end LandRecords.Ocr
