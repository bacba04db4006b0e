import LandRecords.Extract.AssembledFields

/-! Which readings of the input a record keeps. A flat list of readings is grouped by page, and
with metadata only the groups of the pages it names are merged. -/
namespace LandRecords.Extract

variable {byPage pages : List (Value ℚ × List Reading)} {items : List Reading}
  {item ext : Reading} {key pageId : Value ℚ}

/-! ## Grouping by page -/

def held (byPage : List (Value ℚ × List Reading)) (pageId : Value ℚ) : List Reading :=
  ((byPage.find? fun page => page.1.same pageId).map Prod.snd).getD []

theorem held_appendToPage (hkey : hashed key = .ok ()) (hpage : hashed pageId = .ok ()) :
    held (appendToPage key item byPage) pageId =
      if key.same pageId then held byPage pageId ++ [item] else held byPage pageId := by
  induction byPage with
  | nil => by_cases hsame : key.same pageId = true <;> simp [appendToPage, held, hsame]
  | cons page rest ih =>
    by_cases hat : page.1.same key = true
    · obtain rfl := (same_hashed hkey).mp hat
      by_cases hsame : page.1.same pageId = true
      · simp [appendToPage, held, hat, hsame]
      · simp [appendToPage, held, hat, hsame]
    · rw [appendToPage, if_neg hat]
      by_cases hsame : page.1.same pageId = true
      · have hne : ¬ key.same pageId = true := by
          intro hsameKey
          rw [(same_hashed hpage).mp hsameKey] at hat
          exact hat hsame
        simp [held, hsame, hne]
      · simpa [held, hsame] using ih

theorem groupByPage_held (hpage : hashed pageId = .ok ()) (h : groupByPage byPage items = .ok pages) :
    (∀ item ∈ items, hashed (pageOf item) = .ok ()) ∧
      ∀ ext, ext ∈ held pages pageId ↔ ext ∈ held byPage pageId ∨ ext ∈ items ∧ pageOf ext = pageId := by
  induction items generalizing byPage with
  | nil =>
    cases h
    simp
  | cons item items ih =>
    obtain ⟨_, hkey, h⟩ := Raised.bind_eq_ok.mp h
    obtain ⟨hrest, hmem⟩ := ih h
    refine ⟨List.forall_mem_cons.mpr ⟨hkey, hrest⟩, fun ext => ?_⟩
    rw [hmem, held_appendToPage hkey hpage]
    by_cases hsame : pageOf item = pageId
    · rw [if_pos ((same_hashed hpage).mpr hsame), List.mem_append, List.mem_singleton, List.mem_cons, or_assoc]
      refine or_congr_right ⟨?_, ?_⟩
      · rintro (rfl | hlater)
        · exact ⟨.inl rfl, hsame⟩
        · exact ⟨.inr hlater.1, hlater.2⟩
      · rintro ⟨rfl | hlater, hpageOf⟩
        · exact .inl rfl
        · exact .inr ⟨hlater, hpageOf⟩
    · rw [if_neg fun h => hsame ((same_hashed hpage).mp h), List.mem_cons]
      refine or_congr_right (and_congr_left fun hpageOf => ?_)
      refine (or_iff_right ?_).symm
      rintro rfl
      exact hsame hpageOf

def readingsByPage (byPage : List (Value ℚ × List Reading)) : List Reading :=
  byPage.flatMap Prod.snd

theorem mem_appendToPage : ext ∈ readingsByPage (appendToPage key item byPage) ↔
    ext ∈ readingsByPage byPage ∨ ext = item := by
  induction byPage with
  | nil => simp [appendToPage, readingsByPage]
  | cons page rest ih =>
    simp only [readingsByPage] at ih
    rw [appendToPage]
    split
    · simp only [readingsByPage, List.flatMap_cons, List.mem_append, List.mem_singleton]
      exact or_right_comm
    · simp only [readingsByPage, List.flatMap_cons, List.mem_append, ih]
      exact or_assoc.symm

theorem mem_groupByPage (h : groupByPage byPage items = .ok pages) :
    ext ∈ readingsByPage pages ↔ ext ∈ readingsByPage byPage ∨ ext ∈ items := by
  induction items generalizing byPage with
  | nil =>
    cases h
    simp
  | cons item items ih =>
    obtain ⟨_, -, h⟩ := Raised.bind_eq_ok.mp h
    rw [ih h, mem_appendToPage, List.mem_cons, or_assoc]

/-! ## The groups of pages -/

theorem mem_numberedPages (idx : ℕ) :
    ext ∈ readingsIn (numberedPages idx byPage) ↔ ext ∈ readingsByPage byPage := by
  induction byPage generalizing idx with
  | nil => rfl
  | cons page rest ih =>
    simp only [readingsIn, readingsByPage] at ih
    simp [numberedPages, readingsIn, readingsByPage, ih]

theorem readingsIn_groupedPages (pagesMetadata : List (Dict ℚ)) (idx : ℕ)
    (given : List (List Reading)) : readingsIn (groupedPages pagesMetadata idx given) = given.flatten := by
  induction given generalizing idx with
  | nil => rfl
  | cons pageExts rest ih =>
    simp only [readingsIn] at ih
    simp [groupedPages, readingsIn, ih]

theorem metadataPages_eq {pagesMetadata : List (Dict ℚ)} {groups : List PageGroup}
    (h : metadataPages byPage pagesMetadata = .ok groups) :
    (∀ page ∈ pagesMetadata, hashed (metaPageId page defaultPage) = .ok ()) ∧
      groups = pagesMetadata.map fun page => (page, held byPage (metaPageId page defaultPage)) := by
  induction pagesMetadata generalizing groups with
  | nil =>
    cases h
    simp
  | cons page rest ih =>
    obtain ⟨exts, hexts, h⟩ := Raised.bind_eq_ok.mp h
    obtain ⟨later, hlater, h⟩ := Raised.bind_eq_ok.mp h
    cases h
    obtain ⟨_, hkey, hexts⟩ := Raised.bind_eq_ok.mp hexts
    cases hexts
    obtain ⟨hkeys, rfl⟩ := ih hlater
    exact ⟨List.forall_mem_cons.mpr ⟨hkey, hkeys⟩, rfl⟩

def Extractions.given : Extractions → List Reading
  | .flat items => items
  | .grouped pages => pages.flatten

def Kept (pagesMetadata : List (Dict ℚ)) (ext : Reading) : Extractions → Prop
  | .grouped _ => True
  | .flat _ => pagesMetadata = [] ∨ ∃ page ∈ pagesMetadata, metaPageId page defaultPage = pageOf ext

theorem mem_pageGroups {extractions : Extractions} {pagesMetadata : List (Dict ℚ)}
    {groups : List PageGroup} (h : pageGroups extractions pagesMetadata = .ok groups) :
    ext ∈ readingsIn groups ↔ ext ∈ extractions.given ∧ Kept pagesMetadata ext extractions := by
  cases extractions with
  | grouped given =>
    cases given with
    | cons page rest =>
      cases h
      rw [readingsIn_groupedPages]
      simp [Extractions.given, Kept]
    | nil =>
      obtain ⟨-, rfl⟩ := metadataPages_eq h
      simp [readingsIn, held, Extractions.given]
  | flat items =>
    obtain ⟨byPage, hbyPage, h⟩ := Raised.bind_eq_ok.mp h
    split at h
    · rename_i hmetadata
      obtain ⟨hkeys, rfl⟩ := metadataPages_eq h
      simp only [readingsIn, List.mem_flatMap, List.mem_map, Extractions.given, Kept,
        or_iff_right hmetadata]
      constructor
      · rintro ⟨_, ⟨page, hpage, rfl⟩, hext⟩
        obtain ⟨-, hheld⟩ := groupByPage_held (hkeys page hpage) hbyPage
        obtain ⟨hgiven, hpageOf⟩ := ((hheld ext).mp hext).resolve_left List.not_mem_nil
        exact ⟨hgiven, page, hpage, hpageOf.symm⟩
      · rintro ⟨hgiven, page, hpage, hpageOf⟩
        obtain ⟨-, hheld⟩ := groupByPage_held (hkeys page hpage) hbyPage
        exact ⟨_, ⟨page, hpage, rfl⟩, (hheld ext).mpr (.inr ⟨hgiven, hpageOf.symm⟩)⟩
    · rename_i hmetadata
      cases h
      rw [mem_numberedPages, mem_groupByPage hbyPage]
      simp [readingsByPage, Extractions.given, Kept, not_not.mp hmetadata]

variable {builtins : Builtins} {extractions : Extractions} {pagesMetadata : List (Dict ℚ)}

theorem mem_sortedGroups {sorted : List PageGroup}
    (hsorted : sortedGroups builtins extractions pagesMetadata = .ok sorted) :
    ext ∈ readingsIn sorted ↔ ext ∈ extractions.given ∧ Kept pagesMetadata ext extractions := by
  obtain ⟨keys, hgroups, -, rfl⟩ := sortedGroups_eq_ok hsorted
  have hperm := ((orderBy_perm Prod.fst keys).map Prod.snd).flatMap_right Prod.snd
  rw [← mem_pageGroups hgroups]
  exact hperm.mem_iff

/-! ## What is lost -/

theorem truthy_same {v w : Value ℚ} (h : v.same w = true) : v.truthy = w.truthy := by
  cases v with
  | none => cases w <;> simp_all [Value.same]
  | number n =>
    cases w with
    | number m =>
      simp only [Value.same, Numeric.eq, decide_eq_true_eq] at h
      rw [h]
    | _ => simp [Value.same] at h
  | text t => cases w <;> simp_all [Value.same]
  | list items =>
    cases w with
    | list others =>
      have hlength := (Value.sameItems_iff.mp (by simpa [Value.same] using h)).length_eq
      cases items <;> cases others <;> simp_all [Value.truthy]
    | _ => simp [Value.same] at h
  | dict entries =>
    cases w with
    | dict others =>
      have hlength : entries.length = others.length := by
        simp only [Value.same, Bool.and_eq_true] at h
        simpa using h.1
      cases entries <;> cases others <;> simp_all [Value.truthy]
    | _ => simp [Value.same] at h

/-- A value is listed once if and only if it is not empty and equal to one of the others. -/
theorem ListsDistinct.once_iff {values others : List (Value ℚ)} (h : ListsDistinct values others)
    (hproper : ∀ v ∈ others, v.Proper) {v : Value ℚ} (hv : v.Proper) :
    (values.filter v.same).length = 1 ↔
      v.truthy = true ∧ ∃ w ∈ others, v.same w = true := by
  constructor
  · intro honce
    obtain ⟨w, hw⟩ := List.exists_mem_of_length_pos (honce ▸ Nat.one_pos)
    obtain ⟨hlisted, hsame⟩ := List.mem_filter.mp hw
    obtain ⟨hother, htruthy⟩ := h.among w hlisted
    exact ⟨(truthy_same hsame).trans htruthy, w, hother, hsame⟩
  · rintro ⟨htruthy, w, hw, hsame⟩
    have hback := Value.same_symm hv (hproper w hw) hsame
    have hfilter : values.filter v.same = values.filter w.same := by
      refine List.filter_congr fun u hu => Bool.eq_iff_iff.mpr ?_
      have huProper := hproper u (h.among u hu).1
      exact ⟨Value.same_trans (hproper w hw) hv huProper hback,
        Value.same_trans hv (hproper w hw) huProper hsame⟩
    rw [hfilter]
    exact h.listedOnce hproper hw ((truthy_same hsame).symm.trans htruthy)

theorem mergeReadings_hashed {steps : List (Dict ℚ × Reading)} {merge merge' : Merge}
    (h : mergeReadings builtins merge steps = .ok merge') :
    ∀ ext ∈ steps.map Prod.snd, (fieldNameOf ext).truthy = true →
      hashed (fieldNameOf ext) = .ok () := by
  induction steps generalizing merge with
  | nil => simp
  | cons visit steps ih =>
    obtain ⟨next, hstep, h⟩ := Raised.bind_eq_ok.mp h
    refine List.forall_mem_cons.mpr ⟨fun htruthy => ?_, ih h⟩
    unfold mergeReading at hstep
    dsimp only at hstep
    rw [htruthy] at hstep
    obtain ⟨_, hkey, -⟩ := Raised.bind_eq_ok.mp hstep
    exact hkey

/-- Each id of the input is listed once, and each reading of the input that has a field name is
a source of that field. -/
structure LosesNothing (given : List Reading) (result : AssembledRecordResult) : Prop where
  ids : ∀ ext ∈ given, ext.get "id".toList ≠ .none →
    (result.assemblyContract.extractionIds.filter (ext.get "id".toList).same).length = 1
  sources : ∀ ext ∈ given, (fieldNameOf ext).truthy = true → hashed (fieldNameOf ext) = .ok () ∧
    ∃ field, field? result.assembledFields (fieldNameOf ext) = some field ∧
      ext ∈ field.sourceExtractions

/-- Each id of the input is not empty and is the id of a merged reading, and each reading that
has a field name is merged. -/
structure AllKept (pagesMetadata : List (Dict ℚ)) (extractions : Extractions) : Prop where
  ids : ∀ ext ∈ extractions.given, ext.get "id".toList ≠ .none →
    (ext.get "id".toList).truthy = true ∧ ∃ other ∈ extractions.given,
      Kept pagesMetadata other extractions ∧ (ext.get "id".toList).same (other.get "id".toList) = true
  named : ∀ ext ∈ extractions.given, (fieldNameOf ext).truthy = true →
    Kept pagesMetadata ext extractions

theorem assemble_hashed {recordId strategy rationaleOverride : Option Text} {actor : Text}
    {sorted : List PageGroup} {result : AssembledRecordResult}
    (hsorted : sortedGroups builtins extractions pagesMetadata = .ok sorted)
    (hresult : assembleMultiPageRecord builtins extractions recordId strategy rationaleOverride
      actor pagesMetadata = .ok result) :
    ∀ ext ∈ readingsIn sorted, (fieldNameOf ext).truthy = true →
      hashed (fieldNameOf ext) = .ok () := by
  unfold assembleMultiPageRecord at hresult
  rw [hsorted, Raised.ok_bind] at hresult
  obtain ⟨scan, -, hresult⟩ := Raised.bind_eq_ok.mp hresult
  obtain ⟨strategy, -, hresult⟩ := Raised.bind_eq_ok.mp hresult
  obtain ⟨merge, hmerge, -⟩ := Raised.bind_eq_ok.mp hresult
  rw [← visits_readings]
  exact mergeReadings_hashed hmerge

theorem assemble_sorted {recordId strategy rationaleOverride : Option Text} {actor : Text}
    {result : AssembledRecordResult}
    (hresult : assembleMultiPageRecord builtins extractions recordId strategy rationaleOverride
      actor pagesMetadata = .ok result) :
    ∃ sorted, sortedGroups builtins extractions pagesMetadata = .ok sorted := by
  obtain ⟨sorted, hsorted, -⟩ := Raised.bind_eq_ok.mp hresult
  exact ⟨sorted, hsorted⟩

theorem Merged.mem_sources {readings : List Reading} {merge : Merge} (h : Merged readings merge)
    (hproper : ∀ reading ∈ readings, (Value.dict reading).Proper) (hext : (fieldNameOf ext).truthy = true)
    (hname : hashed (fieldNameOf ext) = .ok ()) :
    (∃ field, field? merge.assembledFields (fieldNameOf ext) = some field ∧
      ext ∈ field.sourceExtractions) ↔ ext ∈ readings := by
  have hnamed : named (fieldNameOf ext) ext = true := by
    rw [named, hext, (same_hashed hname).mpr rfl, Bool.true_and]
  constructor
  · rintro ⟨field, hfield, hsource⟩
    rw [(h.field hproper hname hfield).2.sources] at hsource
    exact List.mem_of_mem_filter hsource
  · intro hmem
    cases hfield : field? merge.assembledFields (fieldNameOf ext) with
    | none =>
      have hread := List.mem_filter.mpr ⟨hmem, hnamed⟩
      rw [h.unread hname hfield] at hread
      cases hread
    | some field =>
      refine ⟨field, rfl, ?_⟩
      rw [(h.field hproper hname hfield).2.sources]
      exact List.mem_filter.mpr ⟨hmem, hnamed⟩

/-- A record loses nothing of its input if and only if all of it is merged. -/
theorem losesNothing_iff_allKept (builtins : Builtins)
    {recordId strategy rationaleOverride : Option Text} {actor : Text}
    {result : AssembledRecordResult}
    (hproper : ∀ ext ∈ extractions.given, (Value.dict ext).Proper)
    (hresult : assembleMultiPageRecord builtins extractions recordId strategy rationaleOverride
      actor pagesMetadata = .ok result) :
    LosesNothing extractions.given result ↔ AllKept pagesMetadata extractions := by
  obtain ⟨sorted, hsorted⟩ := assemble_sorted hresult
  have hreadings : ∀ ext, ext ∈ readingsIn sorted ↔
      ext ∈ extractions.given ∧ Kept pagesMetadata ext extractions := fun _ => mem_sortedGroups hsorted
  have hproperRead : ∀ ext ∈ readingsIn sorted, (Value.dict ext).Proper :=
    fun ext hmem => hproper ext ((hreadings ext).mp hmem).1
  obtain ⟨merge, hmerged, hids, hfields, -⟩ := assemble_merged hsorted hresult hproperRead
  have hproperIds : ∀ v ∈ (readingsIn sorted).map fun ext => ext.get "id".toList, v.Proper := by
    intro v hv
    obtain ⟨ext, hmem, rfl⟩ := List.mem_map.mp hv
    exact proper_get (hproperRead ext hmem) _
  have honce : ∀ ext ∈ extractions.given,
      ((result.assemblyContract.extractionIds.filter (ext.get "id".toList).same).length = 1 ↔
        (ext.get "id".toList).truthy = true ∧ ∃ other ∈ extractions.given,
          Kept pagesMetadata other extractions ∧
          (ext.get "id".toList).same (other.get "id".toList) = true) := by
    intro ext hmem
    rw [hids, hmerged.ids.once_iff hproperIds (proper_get (hproper ext hmem) _)]
    simp only [List.mem_map, exists_exists_and_eq_and]
    simp only [hreadings, and_assoc]
  constructor
  · rintro ⟨hidsOnce, hsources⟩
    refine ⟨fun ext hmem hgiven => (honce ext hmem).mp (hidsOnce ext hmem hgiven), ?_⟩
    intro ext hmem htruthy
    obtain ⟨hname, hsource⟩ := hsources ext hmem htruthy
    rw [hfields, hmerged.mem_sources hproperRead htruthy hname] at hsource
    exact ((hreadings ext).mp hsource).2
  · rintro ⟨hidsKept, hnamedKept⟩
    refine ⟨fun ext hmem hgiven => (honce ext hmem).mpr (hidsKept ext hmem hgiven), ?_⟩
    intro ext hmem htruthy
    have hread := (hreadings ext).mpr ⟨hmem, hnamedKept ext hmem htruthy⟩
    have hname := assemble_hashed hsorted hresult ext hread htruthy
    exact ⟨hname, by rwa [hfields, hmerged.mem_sources hproperRead htruthy hname]⟩

def secondPageReading : Reading :=
  ("page_id".toList, .text "p2".toList) :: sampleReading "e1" "owner_name" "Asha"

def firstPageOnly : List (Dict ℚ) := [[("page_id".toList, .text "p1".toList)]]

theorem losesNothing_ownerReadings : ∃ result, assembledFlat ownerReadings = .ok result ∧
    LosesNothing ownerReadings result := by
  have hproper : ∀ ext ∈ (Extractions.flat ownerReadings).given, (Value.dict ext).Proper := by
    intro ext hmem
    obtain rfl | rfl := (by simpa [Extractions.given, ownerReadings] using hmem)
    · exact sampleReading_proper ..
    · exact sampleReading_proper ..
  have hreturned : (assembledFlat ownerReadings).map (fun _ => ()) = .ok () := by decide +kernel
  obtain ⟨result, hresult, -⟩ := Raised.map_eq_ok.mp hreturned
  have hids : ∀ ext ∈ ownerReadings, (ext.get "id".toList).truthy = true ∧
      (ext.get "id".toList).same (ext.get "id".toList) = true := by decide +kernel
  have hkept : AllKept [] (.flat ownerReadings) :=
    { ids := fun ext hmem _ => ⟨(hids ext hmem).1, ext, hmem, .inl rfl, (hids ext hmem).2⟩
      named := fun _ _ _ => .inl rfl }
  exact ⟨result, hresult, (losesNothing_iff_allKept sampleBuiltins hproper hresult).mpr hkept⟩

/-- A reading of a page that the metadata does not name is in no field, and its id is not listed. -/
theorem secondPage_lost :
    (assembleMultiPageRecord sampleBuiltins (.flat [secondPageReading]) none none none
      "system".toList firstPageOnly).map (fun result =>
        (result.assemblyContract.extractionIds.length, result.assembledFields.length)) =
      .ok (0, 0) := by
  decide +kernel

end LandRecords.Extract
