import LandRecords.Extract.ParcelBands

/-! What the bindings of a page hold: of each band the owners in it and its first share, and the
owners above the first parcel. -/
namespace LandRecords.Extract

/-! ## Lists that correspond one by one -/

section Aligned

variable {α β : Type} {R : α → β → Prop} {xs : List α} {ys : List β}

theorem exists_iff_of_forall₂ {P : α → Prop} {Q : β → Prop} (h : List.Forall₂ R xs ys)
    (hiff : ∀ {x y}, R x y → (P x ↔ Q y)) : (∃ x ∈ xs, P x) ↔ ∃ y ∈ ys, Q y := by
  induction h with
  | nil => simp
  | cons hxy _ ih => rw [List.exists_mem_cons_iff, List.exists_mem_cons_iff, hiff hxy, ih]

theorem forall_iff_of_forall₂ {P : α → Prop} {Q : β → Prop} (h : List.Forall₂ R xs ys)
    (hiff : ∀ {x y}, R x y → (P x ↔ Q y)) : (∀ x ∈ xs, P x) ↔ ∀ y ∈ ys, Q y := by
  induction h with
  | nil => simp
  | cons hxy _ ih => rw [List.forall_mem_cons, List.forall_mem_cons, hiff hxy, ih]

theorem pairwise_iff_of_forall₂ {S : α → α → Prop} {T : β → β → Prop} (h : List.Forall₂ R xs ys)
    (hiff : ∀ {x y x' y'}, R x y → R x' y' → (S x x' ↔ T y y')) :
    xs.Pairwise S ↔ ys.Pairwise T := by
  induction h with
  | nil => simp
  | cons hxy hrest ih =>
    rw [List.pairwise_cons, List.pairwise_cons, ih,
      forall_iff_of_forall₂ hrest fun hxy' => hiff hxy hxy']

end Aligned

/-! ## Bindings of the bands -/

def idOf (item : Item) : Value ℚ := item.get "id".toList

def height (builtins : PageBuiltins) (item : Item) : ℚ := (yOf builtins item).toOption.getD 0

variable {builtins : PageBuiltins} {page : Partition} {item : Item} {items : List Item}
  {test : ℚ → Bool}

theorem height_eq {y : ℚ} (h : yOf builtins item = .ok y) : height builtins item = y := by
  rw [height, h]
  rfl

theorem toFloat_isFloat {value : Value ℚ} {x : ℚ} (h : toFloat builtins value = .ok x) :
    builtins.floats.IsFloat x := by
  obtain ⟨n, -, h⟩ := Raised.bind_eq_ok.mp h
  cases h
  exact FloatFormat.isFloat_fl

theorem getYCenter_isFloat {bbox : Value ℚ} {y : ℚ} (h : getYCenter builtins bbox = .ok y) :
    builtins.floats.IsFloat y := by
  unfold getYCenter at h
  split at h
  · cases h
    exact FloatFormat.isFloat_zero
  · split at h
    · obtain ⟨top, htop, h⟩ := Raised.bind_eq_ok.mp h
      obtain ⟨size, hsize, h⟩ := Raised.bind_eq_ok.mp h
      cases h
      exact FloatFormat.isFloat_add (toFloat_isFloat htop)
        (FloatFormat.isFloat_div (toFloat_isFloat hsize))
    · cases h

theorem height_isFloat : builtins.floats.IsFloat (height builtins item) := by
  unfold height
  cases hy : yOf builtins item with
  | error => exact FloatFormat.isFloat_zero
  | ok y => exact getYCenter_isFloat hy

theorem get_of_item {key : Text} {v : Value ℚ} (h : Dict.item item key = .ok v) :
    item.get key = v := by
  unfold Dict.item at h
  unfold Dict.get Dict.getD
  split at h
  · rename_i hlookup
    cases h
    rw [hlookup]
    rfl
  · cases h

theorem toOwnerRef_id {relLabel : Value ℚ} {ref : OwnerRef}
    (h : toOwnerRef builtins item relLabel = .ok ref) : ref.extractionId = idOf item := by
  obtain ⟨extractionId, hid, h⟩ := Raised.bind_eq_ok.mp h
  obtain ⟨rawValue, -, h⟩ := Raised.bind_eq_ok.mp h
  obtain ⟨confidence, -, h⟩ := Raised.bind_eq_ok.mp h
  cases h
  exact (get_of_item hid).symm

theorem toShareRef_id {ref : ShareRef} (h : toShareRef builtins item = .ok ref) :
    ref.extractionId = idOf item := by
  obtain ⟨fraction, -, h⟩ := Raised.bind_eq_ok.mp h
  obtain ⟨extractionId, hid, h⟩ := Raised.bind_eq_ok.mp h
  obtain ⟨confidence, -, h⟩ := Raised.bind_eq_ok.mp h
  cases h
  exact (get_of_item hid).symm

theorem ownerRefs_ids {relLabel : Value ℚ} {refs : List OwnerRef}
    (h : ownerRefs builtins relLabel items = .ok refs) :
    refs.map (·.extractionId) = items.map idOf := by
  induction items generalizing refs with
  | nil =>
    cases h
    rfl
  | cons o rest ih =>
    obtain ⟨ref, href, h⟩ := Raised.bind_eq_ok.mp h
    obtain ⟨later, hlater, h⟩ := Raised.bind_eq_ok.mp h
    cases h
    rw [List.map_cons, List.map_cons, toOwnerRef_id href, ih hlater]

theorem ownersAt_ids {refs : List OwnerRef} (h : ownersAt builtins page test items = .ok refs) :
    refs.map (·.extractionId) = (items.filter fun o => test (height builtins o)).map idOf := by
  induction items generalizing refs with
  | nil =>
    cases h
    rfl
  | cons o rest ih =>
    obtain ⟨y, hy, h⟩ := Raised.bind_eq_ok.mp h
    rw [List.filter_cons, height_eq hy]
    split at h
    · rename_i hin
      obtain ⟨relLabel, -, h⟩ := Raised.bind_eq_ok.mp h
      obtain ⟨ref, href, h⟩ := Raised.bind_eq_ok.mp h
      obtain ⟨later, hlater, h⟩ := Raised.bind_eq_ok.mp h
      cases h
      rw [if_pos hin, List.map_cons, List.map_cons, toOwnerRef_id href, ih hlater]
    · rename_i hout
      rw [if_neg hout]
      exact ih h

theorem shareAt_id {share : Option ShareRef} (h : shareAt builtins test items = .ok share) :
    share.map (·.extractionId) = (items.find? fun s => test (height builtins s)).map idOf := by
  induction items generalizing share with
  | nil =>
    cases h
    rfl
  | cons s rest ih =>
    obtain ⟨y, hy, h⟩ := Raised.bind_eq_ok.mp h
    rw [List.find?_cons, height_eq hy]
    split at h
    · rename_i hin
      obtain ⟨ref, href, h⟩ := Raised.bind_eq_ok.mp h
      cases h
      rw [hin]
      exact congrArg some (toShareRef_id href)
    · rename_i hout
      rw [Bool.eq_false_iff.mpr hout]
      exact ih h

theorem placed_eq {pairs : List (ℚ × Item)} (h : placed builtins items = .ok pairs) :
    pairs = items.map fun item => (height builtins item, item) := by
  induction items generalizing pairs with
  | nil =>
    cases h
    rfl
  | cons item rest ih =>
    obtain ⟨y, hy, h⟩ := Raised.bind_eq_ok.mp h
    obtain ⟨later, hlater, h⟩ := Raised.bind_eq_ok.mp h
    cases h
    rw [List.map_cons, height_eq hy, ih hlater]

structure HoldsBand (builtins : PageBuiltins) (page : Partition) (band : Band)
    (binding : OwnerParcelShareBinding) : Prop where
  owners : binding.owners.map (·.extractionId) =
    (page.owners.filter fun o => band.holds builtins.floats (height builtins o)).map idOf
  share : binding.share.map (·.extractionId) =
    (shareIn builtins.floats (height builtins) page.shares band).map idOf

theorem parcelBinding_holds {pageId : Value ℚ} {several : Bool} {draw : ℕ} {band : Band}
    {binding : OwnerParcelShareBinding}
    (h : parcelBinding builtins pageId page several draw item band = .ok binding) :
    HoldsBand builtins page band binding := by
  obtain ⟨associatedOwners, howners, h⟩ := Raised.bind_eq_ok.mp h
  obtain ⟨associatedShare, hshare, h⟩ := Raised.bind_eq_ok.mp h
  obtain ⟨parcelRef, -, h⟩ := Raised.bind_eq_ok.mp h
  cases h
  exact ⟨ownersAt_ids howners, shareAt_id hshare⟩

theorem parcelBindings_hold {pageId : Value ℚ} {several : Bool} {draw : ℕ}
    {parcels : List (ℚ × Item)} {bindings : List OwnerParcelShareBinding}
    (h : parcelBindings builtins pageId page several draw parcels = .ok bindings) :
    List.Forall₂ (HoldsBand builtins page) (bands (parcels.map Prod.fst)) bindings := by
  induction parcels generalizing draw bindings with
  | nil =>
    cases h
    exact .nil
  | cons parcel rest ih =>
    obtain ⟨binding, hbinding, h⟩ := Raised.bind_eq_ok.mp h
    obtain ⟨later, hlater, h⟩ := Raised.bind_eq_ok.mp h
    cases h
    rw [← List.head?_map] at hbinding
    exact .cons (parcelBinding_holds hbinding) (ih hlater)

def parcelHeights (builtins : PageBuiltins) (page : Partition) : List ℚ :=
  orderBy id (page.parcels.map (height builtins))

theorem parcelHeights_sorted : (parcelHeights builtins page).Pairwise (· ≤ ·) :=
  orderBy_sorted id _

theorem parcelHeights_isFloat : ∀ pY ∈ parcelHeights builtins page, builtins.floats.IsFloat pY := by
  intro pY hpY
  obtain ⟨item, -, rfl⟩ := List.mem_map.mp ((mem_orderBy id).mp hpY)
  exact height_isFloat

theorem parcelHeights_eq_nil : parcelHeights builtins page = [] ↔ page.parcels = [] := by
  rw [← List.length_eq_zero_iff, parcelHeights, (orderBy_perm id _).length_eq, List.length_map,
    List.length_eq_zero_iff]

theorem sortedParcels_heights {pairs : List (ℚ × Item)}
    (h : placed builtins page.parcels = .ok pairs) :
    (orderBy Prod.fst pairs).map Prod.fst = parcelHeights builtins page := by
  have hmap : (orderBy Prod.fst pairs).map Prod.fst = orderBy id (pairs.map Prod.fst) :=
    List.map_insertionSort _ _ Prod.fst pairs fun _ _ _ _ => Iff.rfl
  rw [hmap, placed_eq h, List.map_map]
  rfl

def firstStart (builtins : PageBuiltins) (page : Partition) : ℚ :=
  bandStart builtins.floats ((parcelHeights builtins page).head?.getD 0)

theorem multi_bindings {pageId : Value ℚ} {bindings : List OwnerParcelShareBinding}
    (h : buildMultiParcelBindings builtins pageId page = .ok bindings) :
    ∃ ofParcels unassigned, bindings = ofParcels ++ unassigned ∧
      List.Forall₂ (HoldsBand builtins page) (bands (parcelHeights builtins page)) ofParcels ∧
      ((unassigned = [] ∧ (page.owners.filter fun o => height builtins o <
          firstStart builtins page) = []) ∨
        ∃ binding, unassigned = [binding] ∧ binding.share = none ∧
          binding.owners.map (·.extractionId) = (page.owners.filter fun o => height builtins o <
            firstStart builtins page).map idOf) := by
  obtain ⟨pairs, hpairs, h⟩ := Raised.bind_eq_ok.mp h
  obtain ⟨ofParcels, hofParcels, h⟩ := Raised.bind_eq_ok.mp h
  obtain ⟨unassignedOwners, hunassigned, h⟩ := Raised.bind_eq_ok.mp h
  have hheights := sortedParcels_heights hpairs
  have hholds := parcelBindings_hold hofParcels
  have hids := ownersAt_ids hunassigned
  rw [hheights] at hholds
  rw [← List.head?_map, hheights] at hids
  split at h
  · rename_i hempty
    cases h
    rw [List.isEmpty_iff.mp hempty] at hids
    exact ⟨bindings, [], (List.append_nil _).symm, hholds, .inl ⟨rfl, List.map_eq_nil_iff.mp hids.symm⟩⟩
  · cases h
    exact ⟨ofParcels, _, rfl, hholds, .inr ⟨_, rfl, rfl, hids⟩⟩

/-! ## Owners -/

abbrev Binding := OwnerParcelShareBinding

def inOwners (item : Item) (binding : Binding) : Prop :=
  idOf item ∈ binding.owners.map (·.extractionId)

def EveryOwnerBound (extractions : List Item) (bindings : List Binding) : Prop :=
  ∀ item ∈ extractions, hasField "owner_name" item = true → ∃ b ∈ bindings, inOwners item b

/-- At most one survey number and one owner, or a survey number and no owner at an infinite
height, or every owner more than twenty above the edge of the page. -/
def OwnersReached (builtins : PageBuiltins) (page : Partition) : Prop :=
  (page.parcels.length ≤ 1 ∧ page.owners.length ≤ 1) ∨
    (page.parcels ≠ [] ∧ ∀ o ∈ page.owners, builtins.floats.belowInf (height builtins o)) ∨
    ∀ o ∈ page.owners, height builtins o < -20

variable {extractions : List Item} {bindings : List Binding}

theorem id_mem_filter {p : Item → Bool} (hids : (items.map idOf).Nodup) (hmem : item ∈ items) :
    idOf item ∈ (items.filter p).map idOf ↔ p item = true := by
  constructor
  · intro h
    obtain ⟨other, hother, hsame⟩ := List.mem_map.mp h
    obtain ⟨hotherMem, hp⟩ := List.mem_filter.mp hother
    exact List.inj_on_of_nodup_map hids hotherMem hmem hsame ▸ hp
  · intro hp
    exact List.mem_map_of_mem (List.mem_filter.mpr ⟨hmem, hp⟩)

theorem owners_ids (hids : (extractions.map idOf).Nodup) :
    ((partition extractions).owners.map idOf).Nodup :=
  hids.sublist (List.filter_sublist.map idOf)

theorem forall_owner {P : Item → Prop} :
    (∀ item ∈ extractions, hasField "owner_name" item = true → P item) ↔
      ∀ o ∈ (partition extractions).owners, P o := by
  simp [partition]

theorem inOwners_band {band : Band} {binding : Binding} (hids : (page.owners.map idOf).Nodup)
    (hmem : item ∈ page.owners) (h : HoldsBand builtins page band binding) :
    inOwners item binding ↔ band.holds builtins.floats (height builtins item) = true := by
  rw [inOwners, h.owners, id_mem_filter hids hmem]

theorem bandStart_zero (floats : FloatFormat) : bandStart floats 0 = -20 := by
  have hfinite : floats.isInf 0 = false := FloatFormat.not_isInf_small (by norm_num)
  have hround : floats.fl (-20) = -20 := by
    simpa using floats.fl_int (-20) (by norm_num)
  rw [bandStart, FloatFormat.sub_eq (by norm_num) (by norm_num), hfinite, if_neg Bool.false_ne_true,
    zero_sub, hround]

theorem belowInf_of_above {floats : FloatFormat} {y : ℚ} (h : y < -20) :
    floats.belowInf y = true := by
  refine FloatFormat.IsFloat.belowInf_of_lt ?_ h
  have hfloat : floats.IsFloat (-20 : ℤ) := FloatFormat.isFloat_int (by norm_num)
  simpa using hfloat

theorem multi_owners {pageId : Value ℚ}
    (h : buildMultiParcelBindings builtins pageId page = .ok bindings)
    (hids : (page.owners.map idOf).Nodup) (hmem : item ∈ page.owners) :
    (∃ b ∈ bindings, inOwners item b) ↔
      (page.parcels ≠ [] ∧ builtins.floats.belowInf (height builtins item)) ∨
        height builtins item < -20 := by
  obtain ⟨ofParcels, unassigned, rfl, hholds, hunassigned⟩ := multi_bindings h
  have hlast : (∃ b ∈ unassigned, inOwners item b) ↔
      height builtins item < firstStart builtins page := by
    rcases hunassigned with ⟨rfl, hnone⟩ | ⟨binding, rfl, -, howners⟩
    · simpa using List.filter_eq_nil_iff.mp hnone item hmem
    · simp only [List.mem_singleton, exists_eq_left]
      rw [inOwners, howners, id_mem_filter hids hmem, decide_eq_true_iff]
  have hfirst := exists_iff_of_forall₂
    (P := fun band => band.holds builtins.floats (height builtins item) = true)
    hholds fun hband => (inOwners_band hids hmem hband).symm
  simp only [List.mem_append, or_and_right, exists_or, hlast, ← hfirst, firstStart]
  have hfloats : ∀ pY ∈ parcelHeights builtins page, builtins.floats.IsFloat pY :=
    parcelHeights_isFloat
  cases hheights : parcelHeights builtins page with
  | nil =>
    have hnone := parcelHeights_eq_nil.mp hheights
    simp [bands, hnone, bandStart_zero]
  | cons pY rest =>
    have hsome : page.parcels ≠ [] := by
      intro hnone
      rw [parcelHeights_eq_nil.mpr hnone] at hheights
      cases hheights
    rw [hheights] at hfloats
    obtain ⟨hpY, hrest⟩ := List.forall_mem_cons.mp hfloats
    have hbelow : (∃ band ∈ bands (pY :: rest),
        band.holds builtins.floats (height builtins item) = true) ∨
          height builtins item < bandStart builtins.floats pY ↔
            builtins.floats.belowInf (height builtins item) = true := by
      constructor
      · rintro (⟨band, hband, hin⟩ | hlt)
        · exact ((Band.holds_iff (bands_next hfloats hband)).mp hin).2.1
        · exact hpY.belowInf_of_lt (hlt.trans_le (bandStart_le hpY))
      · intro hfinite
        rcases lt_or_ge (height builtins item) (bandStart builtins.floats pY) with hlt | hge
        · exact .inr hlt
        · exact .inl (exists_band hrest hge hfinite)
    rw [List.head?_cons, Option.getD_some, hbelow]
    constructor
    · exact fun hfinite => .inl ⟨hsome, hfinite⟩
    · exact fun h => h.elim And.right belowInf_of_above

theorem single_owners {pageId : Value ℚ}
    (h : buildSingleParcelBindings builtins pageId page = .ok bindings) :
    ∃ binding, bindings = [binding] ∧
      binding.owners.map (·.extractionId) = page.owners.map idOf := by
  obtain ⟨parcelRef, -, h⟩ := Raised.bind_eq_ok.mp h
  obtain ⟨shareRef, -, h⟩ := Raised.bind_eq_ok.mp h
  obtain ⟨refs, hrefs, h⟩ := Raised.bind_eq_ok.mp h
  cases h
  exact ⟨_, rfl, ownerRefs_ids hrefs⟩

/-- Every owner of a page is bound if and only if the owners are reached. -/
theorem everyOwnerBound_iff_reached (builtins : PageBuiltins) {pageId : Option Text}
    (hids : (extractions.map idOf).Nodup)
    (hresult : extractRelationships builtins pageId extractions = .ok bindings) :
    EveryOwnerBound extractions bindings ↔ OwnersReached builtins (partition extractions) := by
  unfold EveryOwnerBound OwnersReached
  rw [forall_owner]
  cases extractions with
  | nil =>
    cases hresult
    simp [partition]
  | cons extraction rest =>
    unfold extractRelationships at hresult
    dsimp only at hresult
    split at hresult
    · rename_i hsingle
      obtain ⟨binding, rfl, howners⟩ := single_owners hresult
      refine iff_of_true (fun o hmem => ⟨binding, List.mem_singleton_self _, ?_⟩) (.inl hsingle)
      rw [inOwners, howners]
      exact List.mem_map_of_mem hmem
    · rename_i hseveral
      have howners : ∀ o ∈ (partition (extraction :: rest)).owners, ((∃ b ∈ bindings, inOwners o b) ↔
          ((partition (extraction :: rest)).parcels ≠ [] ∧
            builtins.floats.belowInf (height builtins o)) ∨ height builtins o < -20) :=
        fun o hmem => multi_owners hresult (owners_ids hids) hmem
      rw [forall₂_congr howners, or_iff_right hseveral]
      by_cases hparcels : (partition (extraction :: rest)).parcels = []
      · simp only [hparcels, ne_eq, not_true_eq_false, false_and, false_or]
      · simp only [hparcels, ne_eq, not_false_eq_true, true_and]
        constructor
        · exact fun hall => .inl fun o hmem => (hall o hmem).elim id belowInf_of_above
        · rintro (hall | hall) o hmem
          · exact .inl (hall o hmem)
          · exact .inr (hall o hmem)

def samplePageBuiltins : PageBuiltins where
  repr _ := "value".toList
  parse text := .error (.valueError text)
  floats := .binary64
  decimal c := if c.isDigit then some (c.toNat - '0'.toNat) else none
  uuid4 draw := (toString draw).toList

def sampleExtraction (id fieldName rawValue : String) (y : ℚ) : Item :=
  [("id".toList, .text id.toList), ("field_name".toList, .text fieldName.toList),
    ("raw_value".toList, .text rawValue.toList),
    ("bbox".toList, .dict [("y".toList, .number y), ("h".toList, .number 20)])]

def partedPage : List Item :=
  [sampleExtraction "p1" "survey_number" "Khasra 101" 10,
    sampleExtraction "o1" "owner_name" "Sita Ram" 30,
    sampleExtraction "s1" "share_fraction" "1/2" 30,
    sampleExtraction "p2" "survey_number" "Khasra 102" 100,
    sampleExtraction "o2" "owner_name" "Geeta Devi" 130]

def ownersOnly : List Item :=
  [sampleExtraction "o1" "owner_name" "Sita Ram" 30,
    sampleExtraction "o2" "owner_name" "Geeta Devi" 60]

def bound (extractions : List Item) : Except Raised (List Binding) :=
  extractRelationships samplePageBuiltins none extractions

theorem nodup_partedPage : (partedPage.map idOf).Nodup := by
  simp [partedPage, sampleExtraction, idOf, Dict.get, Dict.getD, List.lookup]

theorem returned_partedPage : ∃ bindings, bound partedPage = .ok bindings := by
  have hreturned : (bound partedPage).map (fun _ => ()) = .ok () := by decide +kernel
  obtain ⟨bindings, hresult, -⟩ := Raised.map_eq_ok.mp hreturned
  exact ⟨bindings, hresult⟩

theorem everyOwnerBound_partedPage : ∃ bindings, bound partedPage = .ok bindings ∧
    EveryOwnerBound partedPage bindings := by
  obtain ⟨bindings, hresult⟩ := returned_partedPage
  refine ⟨bindings, hresult, ?_⟩
  refine (everyOwnerBound_iff_reached samplePageBuiltins nodup_partedPage hresult).mpr ?_
  exact .inr (.inl (by decide +kernel))

/-- Without a survey number on the page, two owners are in no binding. -/
theorem ownersOnly_unbound : (bound ownersOnly).map List.length = .ok 0 ∧
    ownersOnly.all (hasField "owner_name") = true := by
  decide +kernel

/-! ## One parcel for each owner and share -/

def inShare (item : Item) (binding : Binding) : Prop :=
  binding.share.map (·.extractionId) = some (idOf item)

/-- Each owner and each share of a page is in at most one binding. -/
structure GivenOnce (extractions : List Item) (bindings : List Binding) : Prop where
  owners : ∀ item ∈ extractions, hasField "owner_name" item = true →
    bindings.Pairwise fun a b => ¬ (inOwners item a ∧ inOwners item b)
  shares : ∀ item ∈ extractions, hasField "share_fraction" item = true →
    bindings.Pairwise fun a b => ¬ (inShare item a ∧ inShare item b)

/-- No owner stands within twenty above a parcel other than the first, nor does a share that is
the first one of the two bands there. -/
structure Apart (builtins : PageBuiltins) (page : Partition) : Prop where
  owners : ∀ o ∈ page.owners, ∀ pY ∈ (parcelHeights builtins page).tail,
    ¬ (bandStart builtins.floats pY ≤ height builtins o ∧ height builtins o < pY)
  shares : ∀ s ∈ page.shares,
    ¬ SharedFirst builtins.floats (height builtins) page.shares (parcelHeights builtins page) s

theorem forall_share {P : Item → Prop} :
    (∀ item ∈ extractions, hasField "share_fraction" item = true → P item) ↔
      ∀ s ∈ (partition extractions).shares, P s := by
  simp [partition]

theorem shares_ids (hids : (extractions.map idOf).Nodup) :
    ((partition extractions).shares.map idOf).Nodup :=
  hids.sublist (List.filter_sublist.map idOf)

theorem inShare_band {band : Band} {binding : Binding} (hids : (page.shares.map idOf).Nodup)
    (hmem : item ∈ page.shares) (h : HoldsBand builtins page band binding) :
    inShare item binding ↔
      shareIn builtins.floats (height builtins) page.shares band = some item := by
  rw [inShare, h.share, Option.map_eq_some_iff]
  constructor
  · rintro ⟨s, hs, hsame⟩
    rwa [← List.inj_on_of_nodup_map hids (List.mem_of_find?_eq_some hs) hmem hsame]
  · intro hs
    exact ⟨item, hs, rfl⟩

theorem multi_owner_once {pageId : Value ℚ}
    (h : buildMultiParcelBindings builtins pageId page = .ok bindings)
    (hids : (page.owners.map idOf).Nodup) (hmem : item ∈ page.owners) :
    (bindings.Pairwise fun a b => ¬ (inOwners item a ∧ inOwners item b)) ↔
      ∀ pY ∈ (parcelHeights builtins page).tail,
        ¬ (bandStart builtins.floats pY ≤ height builtins item ∧ height builtins item < pY) := by
  obtain ⟨ofParcels, unassigned, rfl, hholds, hunassigned⟩ := multi_bindings h
  have hbands := pairwise_iff_of_forall₂
    (S := fun a b => ¬ (a.holds builtins.floats (height builtins item) = true ∧
      b.holds builtins.floats (height builtins item) = true))
    (T := fun a b => ¬ (inOwners item a ∧ inOwners item b)) hholds fun ha hb => by
      rw [inOwners_band hids hmem ha, inOwners_band hids hmem hb]
  rw [← bands_disjoint_iff parcelHeights_isFloat parcelHeights_sorted, hbands,
    List.pairwise_append]
  refine ⟨fun hall => hall.1, fun hparcels => ⟨hparcels, ?_, fun a ha b hb ⟨hina, hinb⟩ => ?_⟩⟩
  · rcases hunassigned with ⟨rfl, -⟩ | ⟨binding, rfl, -⟩
    · exact .nil
    · exact List.pairwise_singleton _ _
  · -- an owner above the first parcel is in no band
    rcases hunassigned with ⟨rfl, -⟩ | ⟨binding, rfl, -, howners⟩
    · cases hb
    · obtain rfl := List.mem_singleton.mp hb
      rw [inOwners, howners, id_mem_filter hids hmem, decide_eq_true_iff] at hinb
      obtain ⟨band, hband, hin⟩ := (exists_iff_of_forall₂ hholds fun hholds =>
        (inOwners_band hids hmem hholds).symm).mpr ⟨a, ha, hina⟩
      have hnext := bands_next parcelHeights_isFloat hband
      have hstart := ((Band.holds_iff hnext).mp hin).1
      have hpY := pY_mem hband
      obtain ⟨first, hfirst⟩ := Option.isSome_iff_exists.mp
        (List.isSome_head?.mpr (List.ne_nil_of_mem hpY))
      have hle := head_le_of_mem parcelHeights_sorted hfirst hpY
      rw [firstStart, hfirst, Option.getD_some] at hinb
      have hfloat := parcelHeights_isFloat first (List.mem_of_mem_head? hfirst)
      exact absurd (hinb.trans_le (bandStart_mono hfloat hle)) hstart.not_gt

theorem multi_share_once {pageId : Value ℚ}
    (h : buildMultiParcelBindings builtins pageId page = .ok bindings)
    (hids : (page.shares.map idOf).Nodup) (hmem : item ∈ page.shares) :
    (bindings.Pairwise fun a b => ¬ (inShare item a ∧ inShare item b)) ↔
      ¬ SharedFirst builtins.floats (height builtins) page.shares (parcelHeights builtins page)
        item := by
  obtain ⟨ofParcels, unassigned, rfl, hholds, hunassigned⟩ := multi_bindings h
  have hbands := pairwise_iff_of_forall₂
    (S := fun a b => ¬ (shareIn builtins.floats (height builtins) page.shares a = some item ∧
      shareIn builtins.floats (height builtins) page.shares b = some item))
    (T := fun a b => ¬ (inShare item a ∧ inShare item b)) hholds fun ha hb => by
      rw [inShare_band hids hmem ha, inShare_band hids hmem hb]
  rw [← shareIn_once_iff parcelHeights_isFloat parcelHeights_sorted, hbands,
    List.pairwise_append]
  refine ⟨fun hall => hall.1, fun hparcels => ⟨hparcels, ?_, fun a ha b hb ⟨hina, hinb⟩ => ?_⟩⟩
  · rcases hunassigned with ⟨rfl, -⟩ | ⟨binding, rfl, -⟩
    · exact .nil
    · exact List.pairwise_singleton _ _
  · rcases hunassigned with ⟨rfl, -⟩ | ⟨binding, rfl, hshare, -⟩
    · cases hb
    · obtain rfl := List.mem_singleton.mp hb
      rw [inShare, hshare] at hinb
      cases hinb

theorem apart_of_few (hfew : page.parcels.length ≤ 1) : Apart builtins page := by
  have hlength : (parcelHeights builtins page).length ≤ 1 := by
    rwa [parcelHeights, (orderBy_perm id _).length_eq, List.length_map]
  refine ⟨fun o _ pY hpY => ?_, ?_⟩
  · have hpos := List.length_pos_of_mem hpY
    rw [List.length_tail] at hpos
    omega
  · rintro s - ⟨before, pY, next, rest, hheights, -⟩
    rw [hheights, List.length_append, List.length_cons, List.length_cons] at hlength
    omega

/-- Each owner and each share of a page is in at most one binding if and only if none stands
where two bands overlap. -/
theorem givenOnce_iff_apart (builtins : PageBuiltins) {pageId : Option Text}
    (hids : (extractions.map idOf).Nodup)
    (hresult : extractRelationships builtins pageId extractions = .ok bindings) :
    GivenOnce extractions bindings ↔ Apart builtins (partition extractions) := by
  cases extractions with
  | nil =>
    cases hresult
    exact iff_of_true ⟨fun _ h => (nomatch h), fun _ h => (nomatch h)⟩ (apart_of_few (by simp [partition]))
  | cons extraction rest =>
    unfold extractRelationships at hresult
    dsimp only at hresult
    split at hresult
    · rename_i hsingle
      obtain ⟨binding, rfl, -⟩ := single_owners hresult
      refine iff_of_true ⟨fun _ _ _ => ?_, fun _ _ _ => ?_⟩ (apart_of_few hsingle.1)
      · exact List.pairwise_singleton _ _
      · exact List.pairwise_singleton _ _
    · have howners : ∀ o ∈ (partition (extraction :: rest)).owners,
          ((bindings.Pairwise fun a b => ¬ (inOwners o a ∧ inOwners o b)) ↔
            ∀ pY ∈ (parcelHeights builtins (partition (extraction :: rest))).tail,
              ¬ (bandStart builtins.floats pY ≤ height builtins o ∧ height builtins o < pY)) :=
        fun o hmem => multi_owner_once hresult (owners_ids hids) hmem
      have hshares : ∀ s ∈ (partition (extraction :: rest)).shares,
          ((bindings.Pairwise fun a b => ¬ (inShare s a ∧ inShare s b)) ↔
            ¬ SharedFirst builtins.floats (height builtins) (partition (extraction :: rest)).shares
              (parcelHeights builtins (partition (extraction :: rest))) s) :=
        fun s hmem => multi_share_once hresult (shares_ids hids) hmem
      constructor
      · intro h
        refine ⟨fun o hmem => (howners o hmem).mp ?_, fun s hmem => (hshares s hmem).mp ?_⟩
        · exact forall_owner.mp h.owners o hmem
        · exact forall_share.mp h.shares s hmem
      · intro h
        refine ⟨forall_owner.mpr fun o hmem => ?_, forall_share.mpr fun s hmem => ?_⟩
        · exact (howners o hmem).mpr (h.owners o hmem)
        · exact (hshares s hmem).mpr (h.shares s hmem)

theorem apart_of_clear (h : ∀ item ∈ page.owners ++ page.shares,
    ∀ pY ∈ (parcelHeights builtins page).tail,
      ¬ (bandStart builtins.floats pY ≤ height builtins item ∧ height builtins item < pY)) :
    Apart builtins page := by
  obtain ⟨howners, hshares⟩ := List.forall_mem_append.mp h
  refine ⟨howners, ?_⟩
  rintro s hs ⟨before, pY, next, rest, hheights, -, hover⟩
  refine hshares s hs next ?_ hover
  rw [hheights]
  cases before <;> simp

theorem givenOnce_partedPage : ∃ bindings, bound partedPage = .ok bindings ∧
    GivenOnce partedPage bindings := by
  obtain ⟨bindings, hresult⟩ := returned_partedPage
  refine ⟨bindings, hresult, ?_⟩
  refine (givenOnce_iff_apart samplePageBuiltins nodup_partedPage hresult).mpr ?_
  exact apart_of_clear (by decide +kernel)

def overlappingPage : List Item :=
  [sampleExtraction "p1" "survey_number" "Khasra 101" 10,
    sampleExtraction "o1" "owner_name" "Sita Ram" 90,
    sampleExtraction "s1" "share_fraction" "1/2" 90,
    sampleExtraction "p2" "survey_number" "Khasra 102" 100,
    sampleExtraction "o2" "owner_name" "Geeta Devi" 130]

/-- They are in the bindings of both parcels. -/
theorem overlappingPage_boundTwice :
    (bound overlappingPage).map (fun bindings => bindings.map fun binding =>
      (binding.owners.map fun o => o.extractionId.str samplePageBuiltins.toConversions,
        binding.share.map fun s => s.extractionId.str samplePageBuiltins.toConversions)) =
      .ok [(["o1".toList], some "s1".toList), (["o1".toList, "o2".toList], some "s1".toList)] := by
  decide +kernel

def borderPage (first second owner : ℚ) : List Item :=
  [sampleExtraction "p1" "survey_number" "Khasra 101" first,
    sampleExtraction "p2" "survey_number" "Khasra 102" second,
    sampleExtraction "o1" "owner_name" "Sita Ram" owner]

-- twenty above the second parcel the rounded numbers decide
example : (bound (borderPage (3 / 10) (203 / 10) (3 / 10))).map
      (List.map fun binding => binding.owners.length) = .ok [1, 1] ∧
    (bound (borderPage (883 / 10) (1183 / 10) (983 / 10))).map
      (List.map fun binding => binding.owners.length) = .ok [1, 0] := by
  decide +kernel

end LandRecords.Extract
