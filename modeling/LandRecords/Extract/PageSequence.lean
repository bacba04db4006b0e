import LandRecords.Extract.RecordAssembly

/-! The order of the pages and the gaps between them. The pages are sorted by one reading of
the page number and scanned by another; only a page with the number zero tells them apart. -/
namespace LandRecords.Extract

variable {builtins : Builtins}

/-- The page carries a whole number as its index. -/
def Indexed (page : Dict ℚ) : Prop := ∃ i : ℤ, page.get "index".toList = .number i

def pageIndex (page : Dict ℚ) : ℤ :=
  match page.get "index".toList with
  | .number n => n.num
  | _ => 0

theorem Indexed.get {page : Dict ℚ} (h : Indexed page) :
    page.get "index".toList = .number (pageIndex page) := by
  obtain ⟨i, hi⟩ := h
  rw [pageIndex, hi]
  exact congrArg Value.number (by simp)

/-- The pages stand in the order of their indexes, and what is missing between the smallest
and the largest is listed in increasing order. -/
structure InSequence (pages : List (Dict ℚ)) (result : AssembledRecordResult) : Prop where
  order : result.pageOrder = pages.map fun page => metaPageId page unknownPage
  increasing : pages.Pairwise fun a b => pageIndex a < pageIndex b
  missingIncreasing : result.missingPages.Pairwise (· < ·)
  missing : ∀ m, m ∈ result.missingPages ↔
    (∃ low ∈ pages, pageIndex low < m) ∧ (∃ high ∈ pages, m < pageIndex high) ∧
      ∀ page ∈ pages, pageIndex page ≠ m

/-! ## The scan -/

def between (low high : ℤ) : List ℤ :=
  (List.range (high - (low + 1)).toNat).map fun i : ℕ => low + 1 + i

theorem mem_between {low high m : ℤ} : m ∈ between low high ↔ low < m ∧ m < high := by
  simp only [between, List.mem_map, List.mem_range]
  constructor
  · rintro ⟨i, hi, rfl⟩
    omega
  · intro h
    exact ⟨(m - (low + 1)).toNat, by omega, by omega⟩

theorem between_increasing (low high : ℤ) : (between low high).Pairwise (· < ·) := by
  refine List.pairwise_map.mpr (List.pairwise_lt_range.imp ?_)
  intro i j hij
  omega

theorem gapBetween_eq (low high : ℤ) :
    gapBetween (.number low) (.number high) = .ok (between low high) := by
  have hcast : ((low : ℚ) + 1) = ((low + 1 : ℤ) : ℚ) := by push_cast; ring
  simp only [gapBetween, hcast]
  split
  · simp only [range, Rat.den_intCast, Rat.num_intCast, and_self, if_true]
    rfl
  · rename_i hle
    have hle : high ≤ low + 1 := by exact_mod_cast not_lt.mp hle
    have hnone : (high - (low + 1)).toNat = 0 := by omega
    simp [between, hnone]

def gapsAfter : ℤ → List ℤ → List ℤ
  | _, [] => []
  | prev, n :: rest => between prev n ++ gapsAfter n rest

def gapsOf : List ℤ → List ℤ
  | [] => []
  | first :: rest => gapsAfter first rest

theorem mem_gapsAfter {prev : ℤ} {ns : List ℤ} (h : (prev :: ns).Pairwise (· < ·)) {m : ℤ} :
    m ∈ gapsAfter prev ns ↔ prev < m ∧ (∃ high ∈ ns, m < high) ∧ m ∉ ns := by
  induction ns generalizing prev with
  | nil => simp [gapsAfter]
  | cons n ns ih =>
    rw [List.pairwise_cons] at h
    have hprev : prev < n := h.1 n List.mem_cons_self
    have hlater := (List.pairwise_cons.mp h.2).1
    rw [gapsAfter, List.mem_append, mem_between, ih h.2, List.mem_cons, not_or,
      List.exists_mem_cons_iff]
    constructor
    · rintro (hgap | ⟨hlow, hhigh, hnot⟩)
      · refine ⟨hgap.1, .inl hgap.2, by omega, fun hmem => ?_⟩
        have := hlater m hmem
        omega
      · exact ⟨by omega, .inr hhigh, by omega, hnot⟩
    · rintro ⟨hlow, hhigh, hne, hnot⟩
      rcases lt_or_ge m n with hlt | hge
      · exact .inl ⟨hlow, hlt⟩
      · exact .inr ⟨by omega, hhigh.resolve_left (by omega), hnot⟩

theorem gapsAfter_increasing {prev : ℤ} {ns : List ℤ} (h : (prev :: ns).Pairwise (· < ·)) :
    (gapsAfter prev ns).Pairwise (· < ·) := by
  induction ns generalizing prev with
  | nil => exact .nil
  | cons n ns ih =>
    rw [List.pairwise_cons] at h
    refine List.pairwise_append.mpr ⟨between_increasing prev n, ih h.2, fun a ha b hb => ?_⟩
    exact (mem_between.mp ha).2.trans ((mem_gapsAfter h.2).mp hb).1

theorem scanPages_after {scan final : PageScan} {pages : List (Dict ℚ)} {prev : ℤ}
    (hpages : ∀ page ∈ pages, Indexed page) (hprev : scan.prevIndex = .number prev)
    (h : scanPages scan pages = .ok final) :
    final.pageOrder = scan.pageOrder ++ pages.map (fun page => metaPageId page unknownPage) ∧
      final.missingPageIndices = scan.missingPageIndices ++ gapsAfter prev (pages.map pageIndex) := by
  induction pages generalizing scan prev with
  | nil =>
    cases h
    simp [gapsAfter]
  | cons page pages ih =>
    rw [List.forall_mem_cons] at hpages
    have hindex := hpages.1.get
    simp only [scanPages, scanPage, hindex, hprev, gapBetween_eq, Raised.ok_bind,
      Raised.pure_eq] at h
    obtain ⟨horder, hmissing⟩ := ih hpages.2 rfl h
    refine ⟨?_, ?_⟩
    · rw [horder]
      simp
    · rw [hmissing]
      simp [gapsAfter]

theorem scanPages_eq {final : PageScan} {pages : List (Dict ℚ)}
    (hpages : ∀ page ∈ pages, Indexed page) (h : scanPages {} pages = .ok final) :
    final.pageOrder = pages.map (fun page => metaPageId page unknownPage) ∧
      final.missingPageIndices = gapsOf (pages.map pageIndex) := by
  cases pages with
  | nil =>
    cases h
    exact ⟨rfl, rfl⟩
  | cons page pages =>
    rw [List.forall_mem_cons] at hpages
    have hindex := hpages.1.get
    simp only [scanPages, scanPage, hindex, gapBetween, Raised.ok_bind, Raised.pure_eq] at h
    obtain ⟨horder, hmissing⟩ := scanPages_after hpages.2 rfl h
    exact ⟨by simp [horder], by simp [hmissing, gapsOf]⟩

/-- The scan of pages in increasing order finds exactly the gaps. -/
theorem mem_gapsOf {pages : List (Dict ℚ)} (h : pages.Pairwise fun a b => pageIndex a < pageIndex b)
    (m : ℤ) : m ∈ gapsOf (pages.map pageIndex) ↔ (∃ low ∈ pages, pageIndex low < m) ∧
      (∃ high ∈ pages, m < pageIndex high) ∧ ∀ page ∈ pages, pageIndex page ≠ m := by
  cases pages with
  | nil => simp [gapsOf]
  | cons first pages =>
    have hfirst := (List.pairwise_cons.mp h).1
    rw [List.map_cons, gapsOf, mem_gapsAfter (List.pairwise_map.mpr h), List.exists_mem_cons_iff,
      List.exists_mem_cons_iff, List.forall_mem_cons]
    simp only [List.mem_map, not_exists, not_and]
    constructor
    · rintro ⟨hlow, ⟨_, ⟨high, hhigh, rfl⟩, hlt⟩, hnot⟩
      exact ⟨.inl hlow, .inr ⟨high, hhigh, hlt⟩, hlow.ne, hnot⟩
    · rintro ⟨hlow, hhigh, hne, hnot⟩
      have hfirstLow : pageIndex first < m := by
        rcases hlow with hlow | ⟨low, hmem, hlt⟩
        · exact hlow
        · exact (hfirst low hmem).trans hlt
      obtain ⟨high, hmem, hlt⟩ := hhigh.resolve_left (by omega)
      exact ⟨hfirstLow, ⟨_, ⟨high, hmem, rfl⟩, hlt⟩, hnot⟩

/-! ## The order -/

theorem sortKey_of_ne_zero {page : Dict ℚ} (h : Indexed page) (hne : pageIndex page ≠ 0) :
    sortKey builtins page = .ok (pageIndex page) := by
  have htruthy : (Value.number ((pageIndex page : ℤ) : ℚ)).truthy = true := by
    simpa [Value.truthy, Numeric.eq, Numeric.zero] using hne
  rw [sortKey, h.get, Value.orElse, if_pos htruthy, toInt]
  simp

theorem keyed_eq_ok {groups : List PageGroup} {keys : List (ℤ × PageGroup)}
    (h : keyed builtins groups = .ok keys) :
    keys.map Prod.snd = groups ∧ ∀ entry ∈ keys, sortKey builtins entry.2.1 = .ok entry.1 := by
  induction groups generalizing keys with
  | nil =>
    cases h
    simp
  | cons group groups ih =>
    obtain ⟨key, hkey, h⟩ := Raised.bind_eq_ok.mp h
    obtain ⟨rest, hrest, h⟩ := Raised.bind_eq_ok.mp h
    cases h
    obtain ⟨hmap, hkeys⟩ := ih hrest
    exact ⟨by rw [List.map_cons, hmap], List.forall_mem_cons.mpr ⟨hkey, hkeys⟩⟩

/-- A page with the index zero is sorted by its position, or by zero if it has none. That key
stands where zero does: among the pages before it from the negative indexes on and below the
positive ones, among the pages after it above the negative ones and up to the positive ones. -/
def ZeroPlaced (builtins : Builtins) (pages : List (Dict ℚ)) : Prop :=
  pages.Pairwise fun a b => ∀ key,
    (pageIndex a = 0 → sortKey builtins a = .ok key → (key ≤ pageIndex b ↔ 0 < pageIndex b)) ∧
    (pageIndex b = 0 → sortKey builtins b = .ok key → (pageIndex a ≤ key ↔ pageIndex a < 0))

theorem compared_alike_iff {a b : Dict ℚ} {k l : ℤ} (ha : Indexed a) (hb : Indexed b)
    (hka : sortKey builtins a = .ok k) (hkb : sortKey builtins b = .ok l)
    (hne : pageIndex a ≠ pageIndex b) :
    (k ≤ l ↔ pageIndex a ≤ pageIndex b) ↔ ∀ key,
      (pageIndex a = 0 → sortKey builtins a = .ok key → (key ≤ pageIndex b ↔ 0 < pageIndex b)) ∧
      (pageIndex b = 0 → sortKey builtins b = .ok key → (pageIndex a ≤ key ↔ pageIndex a < 0)) := by
  by_cases hza : pageIndex a = 0
  · have hzb : pageIndex b ≠ 0 := fun hzb => hne (hza.trans hzb.symm)
    obtain rfl : pageIndex b = l := Except.ok.inj ((sortKey_of_ne_zero hb hzb).symm.trans hkb)
    simp only [hza, hka, Except.ok.injEq, hzb, false_imp_iff, and_true, true_imp_iff,
      forall_eq']
    rw [le_iff_lt_or_eq (a := (0 : ℤ)), or_iff_left hzb.symm]
  · obtain rfl : pageIndex a = k := Except.ok.inj ((sortKey_of_ne_zero ha hza).symm.trans hka)
    by_cases hzb : pageIndex b = 0
    · simp only [hza, hkb, Except.ok.injEq, hzb, false_imp_iff, true_and, true_imp_iff,
        forall_eq']
      rw [le_iff_lt_or_eq (b := (0 : ℤ)), or_iff_left hza]
    · obtain rfl : pageIndex b = l := Except.ok.inj ((sortKey_of_ne_zero hb hzb).symm.trans hkb)
      simp [hza, hzb]

theorem sortedGroups_eq_ok {extractions : Extractions} {pagesMetadata : List (Dict ℚ)}
    {sorted : List PageGroup} (h : sortedGroups builtins extractions pagesMetadata = .ok sorted) :
    ∃ keys, pageGroups extractions pagesMetadata = .ok (keys.map Prod.snd) ∧
      (∀ entry ∈ keys, sortKey builtins entry.2.1 = .ok entry.1) ∧
      sorted = (orderBy Prod.fst keys).map Prod.snd := by
  obtain ⟨groups, hgroups, h⟩ := Raised.bind_eq_ok.mp h
  obtain ⟨keys, hkeyed, h⟩ := Raised.bind_eq_ok.mp h
  cases h
  obtain ⟨rfl, hkeys⟩ := keyed_eq_ok hkeyed
  exact ⟨keys, hgroups, hkeys, rfl⟩

/-- The sort by key is the sort by index if and only if a page with the index zero is placed
as such. -/
theorem sorted_increasing_iff {extractions : Extractions} {pagesMetadata : List (Dict ℚ)}
    {groups sorted : List PageGroup} (hgroups : pageGroups extractions pagesMetadata = .ok groups)
    (hindexed : ∀ group ∈ groups, Indexed group.1)
    (hdistinct : (groups.map fun group => pageIndex group.1).Nodup)
    (hsorted : sortedGroups builtins extractions pagesMetadata = .ok sorted) :
    (sorted.Perm groups) ∧
      ((sorted.map Prod.fst).Pairwise (fun a b => pageIndex a < pageIndex b) ↔
        ZeroPlaced builtins (groups.map Prod.fst)) := by
  obtain ⟨keys, hkeyed, hkeys, rfl⟩ := sortedGroups_eq_ok hsorted
  obtain rfl := Except.ok.inj (hgroups.symm.trans hkeyed)
  have hdistinctKeys : (keys.map fun entry => pageIndex entry.2.1).Nodup := by
    simpa [List.map_map, Function.comp_def] using hdistinct
  refine ⟨(orderBy_perm Prod.fst keys).map Prod.snd, ?_⟩
  have hindexedKeys : ∀ entry ∈ keys, Indexed entry.2.1 :=
    fun entry hmem => hindexed entry.2 (List.mem_map_of_mem hmem)
  have hne := List.pairwise_map.mp hdistinctKeys
  rw [ZeroPlaced, List.map_map, List.map_map, List.pairwise_map, List.pairwise_map]
  refine (orderBy_increasing_iff hdistinctKeys).trans ?_
  constructor
  · intro h
    refine (hne.and h).imp_of_mem fun ha hb hpair => ?_
    exact (compared_alike_iff (hindexedKeys _ ha) (hindexedKeys _ hb) (hkeys _ ha) (hkeys _ hb)
      hpair.1).mp hpair.2
  · intro h
    refine (hne.and h).imp_of_mem fun ha hb hpair => ?_
    exact (compared_alike_iff (hindexedKeys _ ha) (hindexedKeys _ hb) (hkeys _ ha) (hkeys _ hb)
      hpair.1).mpr hpair.2

theorem assemble_scanned {extractions : Extractions}
    {recordId strategy rationaleOverride : Option Text} {actor : Text}
    {pagesMetadata : List (Dict ℚ)} {sorted : List PageGroup} {result : AssembledRecordResult}
    (hsorted : sortedGroups builtins extractions pagesMetadata = .ok sorted)
    (hresult : assembleMultiPageRecord builtins extractions recordId strategy rationaleOverride
      actor pagesMetadata = .ok result) :
    ∃ scan, scanPages {} (sorted.map Prod.fst) = .ok scan ∧ result.pageOrder = scan.pageOrder ∧
      result.missingPages = scan.missingPageIndices := by
  unfold assembleMultiPageRecord at hresult
  rw [hsorted, Raised.ok_bind] at hresult
  obtain ⟨scan, hscan, hresult⟩ := Raised.bind_eq_ok.mp hresult
  obtain ⟨strategy, -, hresult⟩ := Raised.bind_eq_ok.mp hresult
  obtain ⟨merge, -, hresult⟩ := Raised.bind_eq_ok.mp hresult
  cases hresult
  exact ⟨scan, hscan, rfl, rfl⟩

/-- The sort loses no page. Its pages are listed in the order of their indexes, with exactly the
gaps between them, if and only if a page with the index zero is placed as such. -/
theorem inSequence_iff_zeroPlaced (builtins : Builtins) {extractions : Extractions}
    {recordId strategy rationaleOverride : Option Text} {actor : Text}
    {pagesMetadata : List (Dict ℚ)} {groups sorted : List PageGroup} {result : AssembledRecordResult}
    (hgroups : pageGroups extractions pagesMetadata = .ok groups)
    (hindexed : ∀ group ∈ groups, Indexed group.1)
    (hdistinct : (groups.map fun group => pageIndex group.1).Nodup)
    (hsorted : sortedGroups builtins extractions pagesMetadata = .ok sorted)
    (hresult : assembleMultiPageRecord builtins extractions recordId strategy rationaleOverride
      actor pagesMetadata = .ok result) :
    (sorted.map Prod.fst).Perm (groups.map Prod.fst) ∧
      (InSequence (sorted.map Prod.fst) result ↔ ZeroPlaced builtins (groups.map Prod.fst)) := by
  obtain ⟨hperm, hincreasing⟩ := sorted_increasing_iff hgroups hindexed hdistinct hsorted
  obtain ⟨scan, hscan, horder, hmissing⟩ := assemble_scanned hsorted hresult
  have hpages : ∀ page ∈ sorted.map Prod.fst, Indexed page := by
    intro page hmem
    obtain ⟨group, hgroup, rfl⟩ := List.mem_map.mp hmem
    exact hindexed group (hperm.mem_iff.mp hgroup)
  obtain ⟨hscanOrder, hscanMissing⟩ := scanPages_eq hpages hscan
  rw [← hincreasing]
  refine ⟨hperm.map Prod.fst, InSequence.increasing, fun h => ⟨horder.trans hscanOrder, h, ?_, fun m => ?_⟩⟩
  · rw [hmissing, hscanMissing]
    cases hsame : sorted.map Prod.fst with
    | nil => exact .nil
    | cons first rest =>
      rw [hsame] at h
      exact gapsAfter_increasing (List.pairwise_map.mpr h)
  · rw [hmissing, hscanMissing, mem_gapsOf h]

def sampleBuiltins : Builtins where
  repr _ := "value".toList
  parse text := .error (.valueError text)
  int text := .error (.valueError text)
  uuid4 _ := "id".toList

def samplePage (id : String) (index indexPosition : ℤ) : Dict ℚ :=
  [("page_id".toList, .text id.toList), ("index".toList, .number index),
    ("index_position".toList, .number indexPosition)]

def storedPages : List (Dict ℚ) := [samplePage "a" 0 12, samplePage "b" 1 13, samplePage "c" 3 15]

def unplacedPages : List (Dict ℚ) := [samplePage "a" 0 0, samplePage "b" 1 0, samplePage "c" 3 0]

def assembled (pagesMetadata : List (Dict ℚ)) : Except Raised AssembledRecordResult :=
  assembleMultiPageRecord sampleBuiltins (.flat []) none none none "system".toList pagesMetadata

theorem zeroPlaced_unplacedPages : ZeroPlaced sampleBuiltins unplacedPages := by
  have hkey : sortKey sampleBuiltins (samplePage "a" 0 0) = .ok 0 := by decide +kernel
  have hlater : ∀ page ∈ [samplePage "b" 1 0, samplePage "c" 3 0], 0 < pageIndex page := by
    decide +kernel
  have hfirst : ∀ page ∈ [samplePage "b" 1 0, samplePage "c" 3 0], ∀ key,
      (pageIndex (samplePage "a" 0 0) = 0 → sortKey sampleBuiltins (samplePage "a" 0 0) = .ok key →
        (key ≤ pageIndex page ↔ 0 < pageIndex page)) ∧
      (pageIndex page = 0 → sortKey sampleBuiltins page = .ok key →
        (pageIndex (samplePage "a" 0 0) ≤ key ↔ pageIndex (samplePage "a" 0 0) < 0)) := by
    intro page hpage key
    have hpositive := hlater page hpage
    refine ⟨fun _ h => ?_, fun hzero => by omega⟩
    obtain rfl : 0 = key := Except.ok.inj (hkey.symm.trans h)
    exact iff_of_true hpositive.le hpositive
  refine .cons hfirst (.cons (fun page hpage key => ?_) (List.pairwise_singleton _ _))
  have hpositive := hlater page (List.mem_cons_of_mem _ hpage)
  exact ⟨fun hzero => absurd hzero (by decide +kernel), fun hzero => by omega⟩

theorem inSequence_unplacedPages : ∃ result, assembled unplacedPages = .ok result ∧
    InSequence unplacedPages result := by
  have hindexed : ∀ group ∈ unplacedPages.map fun page => (page, ([] : List Reading)),
      Indexed group.1 := by
    simp only [unplacedPages, List.map_cons, List.map_nil, List.forall_mem_cons,
      List.not_mem_nil, false_imp_iff, implies_true, and_true]
    exact ⟨⟨0, rfl⟩, ⟨1, rfl⟩, ⟨3, rfl⟩⟩
  have hreturned : (assembled unplacedPages).map (fun _ => ()) = .ok () := by decide +kernel
  obtain ⟨result, hresult, -⟩ := Raised.map_eq_ok.mp hreturned
  have hgroups : pageGroups (.flat []) unplacedPages =
      .ok (unplacedPages.map fun page => (page, [])) := rfl
  exact ⟨result, hresult, (inSequence_iff_zeroPlaced sampleBuiltins hgroups hindexed
    (by decide +kernel) rfl hresult).2.mpr zeroPlaced_unplacedPages⟩

/-- The first page of a stored document is listed last. -/
theorem storedPages_misplaced :
    (assembled storedPages).map (fun result => (result.pageOrder.map (Value.str
      sampleBuiltins.toConversions), result.missingPages)) =
      .ok (["b".toList, "c".toList, "a".toList], [2]) := by
  decide +kernel

end LandRecords.Extract
