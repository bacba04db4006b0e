import LandRecords.Base.Ensures
import LandRecords.Extract.TextLane

/-! The relationships of a page that was read never raise, and a binding only repeats what was
read. -/
namespace LandRecords.Extract

open Raised (Ensures)

/-! ## Written items -/

def Written (item : Item) : Prop := ∃ id extraction, item = extractionItem id extraction

section Items

variable {id : Text} {extraction : Ocr.Extraction} {item : Item} {builtins : PageBuiltins}

theorem get_id : Dict.get (extractionItem id extraction) "id".toList = .text id := rfl

theorem get_fieldName :
    Dict.get (extractionItem id extraction) "field_name".toList = .text extraction.fieldName := rfl

theorem get_bbox : Dict.get (extractionItem id extraction) "bbox".toList =
    (extraction.bbox.map boxDict).getD .none := rfl

def centreOf (floats : FloatFormat) (extraction : Ocr.Extraction) : ℚ :=
  match extraction.bbox with
  | some b => floats.add (floats.fl b.y) (floats.div (floats.fl b.h) 2)
  | none => 0

theorem yOf_extractionItem : yOf builtins (extractionItem id extraction) =
    .ok (centreOf builtins.floats extraction) := by
  rw [yOf, get_bbox, centreOf]
  cases extraction.bbox with
  | none => rfl
  | some b => rfl

structure EntityRef.Repeats (item : Item) (ref : EntityRef) : Prop where
  extractionId : ref.extractionId = item.get "id".toList
  fieldName : ref.fieldName = item.get "field_name".toList
  rawValue : ref.rawValue = item.get "raw_value".toList
  canonicalValue : ref.canonicalValue = item.get "canonical_value".toList
  bbox : ref.bbox = item.get "bbox".toList

structure ShareRef.Repeats (item : Item) (ref : ShareRef) : Prop where
  extractionId : ref.extractionId = item.get "id".toList
  rawValue : ref.rawValue = item.get "raw_value".toList
  canonicalValue : ref.canonicalValue = item.get "canonical_value".toList
  bbox : ref.bbox = item.get "bbox".toList

theorem Written.ensures_yOf (h : Written item) : Ensures (yOf builtins item) fun _ => True := by
  obtain ⟨id, extraction, rfl⟩ := h
  exact ⟨_, yOf_extractionItem, trivial⟩

theorem Written.ensures_toEntityRef (h : Written item) :
    Ensures (toEntityRef builtins item) (EntityRef.Repeats item) := by
  obtain ⟨id, extraction, rfl⟩ := h
  exact ⟨_, rfl, rfl, rfl, rfl, rfl, rfl⟩

theorem Written.ensures_toOwnerRef (h : Written item) (hfield : hasField "owner_name" item = true)
    (label : Value ℚ) : Ensures (toOwnerRef builtins item label) fun ref =>
      ref.toEntityRef.Repeats item ∧ ref.relationshipLabel = label := by
  obtain ⟨id, extraction, rfl⟩ := h
  rw [hasField, get_fieldName, Value.same] at hfield
  have hname : extraction.fieldName = "owner_name".toList := eq_of_beq hfield
  refine ⟨_, rfl, ⟨rfl, ?_, rfl, rfl, rfl⟩, rfl⟩
  rw [get_fieldName, hname]

theorem parseFraction_text (text : Text) :
    Ensures (parseFraction builtins (.text text)) fun _ => True := ⟨_, rfl, trivial⟩

theorem Written.ensures_toShareRef (h : Written item) :
    Ensures (toShareRef builtins item) (ShareRef.Repeats item) := by
  obtain ⟨id, extraction, rfl⟩ := h
  have hfraction : Ensures (parseFraction builtins
      ((Dict.getD (extractionItem id extraction) "raw_value".toList (.text [])).orElse
        (Dict.getD (extractionItem id extraction) "canonical_value".toList (.text []))))
      fun _ => True := by
    have hraw : Dict.getD (extractionItem id extraction) "raw_value".toList (.text []) =
      .text extraction.rawValue := rfl
    have hcanonical : Dict.getD (extractionItem id extraction) "canonical_value".toList (.text []) =
      optionalText extraction.canonicalValue := rfl
    rw [hraw, hcanonical, Value.orElse]
    split
    · exact parseFraction_text _
    · cases extraction.canonicalValue with
      | none => exact ⟨none, rfl, trivial⟩
      | some text => exact parseFraction_text text
  unfold toShareRef
  apply hfraction.bind
  intro fraction _
  exact ⟨_, rfl, rfl, rfl, rfl, rfl⟩

end Items

/-! ## Bindings -/

section Page

variable {builtins : PageBuiltins} {pageId : Value ℚ} {page : Partition} {items : List Item}
variable {item : Item}

def LabelOf (relationships : List Item) (label : Value ℚ) : Prop :=
  label = .none ∨ ∃ relationship ∈ relationships, label = relationship.get "raw_value".toList

def OwnerRef.RepeatsOne (page : Partition) (ref : OwnerRef) : Prop :=
  (∃ owner ∈ page.owners, ref.toEntityRef.Repeats owner) ∧
    LabelOf page.relationships ref.relationshipLabel

structure OwnerParcelShareBinding.Repeats (page : Partition) (binding : OwnerParcelShareBinding) :
    Prop where
  parcel : ∀ ref ∈ binding.parcel, ∃ parcel ∈ page.parcels, ref.Repeats parcel
  owners : ∀ ref ∈ binding.owners, ref.RepeatsOne page
  share : ∀ ref ∈ binding.share, ∃ share ∈ page.shares, ref.Repeats share

structure WrittenPage (page : Partition) : Prop where
  parcels : ∀ item ∈ page.parcels, Written item
  owners : ∀ item ∈ page.owners, Written item ∧ hasField "owner_name" item = true
  relationships : ∀ item ∈ page.relationships, Written item
  shares : ∀ item ∈ page.shares, Written item

theorem writtenPage_partition (h : ∀ item ∈ items, Written item) : WrittenPage (partition items) where
  parcels := fun _ hitem => h _ (List.mem_of_mem_filter hitem)
  owners := fun _ hitem => ⟨h _ (List.mem_of_mem_filter hitem), (List.mem_filter.mp hitem).2⟩
  relationships := fun _ hitem => h _ (List.mem_of_mem_filter hitem)
  shares := fun _ hitem => h _ (List.mem_of_mem_filter hitem)

theorem ensures_nearestFrom {relationships : List Item} (oY : ℚ) {best : Value ℚ}
    (minDist : Option ℚ) (hitems : ∀ item ∈ items, Written item ∧ item ∈ relationships)
    (hbest : LabelOf relationships best) :
    Ensures (nearestFrom builtins oY best minDist items) (LabelOf relationships) := by
  induction items generalizing best minDist with
  | nil => exact .ok hbest
  | cons r rest ih =>
    have hrest := fun item hitem => hitems item (List.mem_cons_of_mem r hitem)
    obtain ⟨hwritten, hmem⟩ := hitems r List.mem_cons_self
    rw [nearestFrom]
    apply hwritten.ensures_yOf.bind
    intro y _
    dsimp only
    split
    · exact ih _ hrest (.inr ⟨r, hmem, rfl⟩)
    · exact ih _ hrest hbest

theorem WrittenPage.ensures_findNearestRelationship (h : WrittenPage page) (hitem : Written item) :
    Ensures (findNearestRelationship builtins item page.relationships)
      (LabelOf page.relationships) := by
  rw [findNearestRelationship]
  split
  · exact .ok (.inl rfl)
  · apply hitem.ensures_yOf.bind
    intro y _
    exact ensures_nearestFrom y none (fun r hr => ⟨h.relationships r hr, hr⟩) (.inl rfl)

theorem WrittenPage.ensures_ownerRefs (h : WrittenPage page) {label : Value ℚ}
    (hlabel : LabelOf page.relationships label) (hitems : items ⊆ page.owners) :
    Ensures (ownerRefs builtins label items) fun refs => ∀ ref ∈ refs, ref.RepeatsOne page := by
  induction items with
  | nil => exact .ok fun ref href => nomatch href
  | cons o rest ih =>
    obtain ⟨howner, hrest⟩ := List.cons_subset.mp hitems
    obtain ⟨hwritten, hfield⟩ := h.owners o howner
    rw [ownerRefs]
    apply (hwritten.ensures_toOwnerRef hfield label).bind
    intro ref href
    apply (ih hrest).bind
    intro later hlater
    apply Ensures.ok
    intro other hother
    rcases List.mem_cons.mp hother with rfl | hother
    · exact ⟨⟨o, howner, href.1⟩, href.2 ▸ hlabel⟩
    · exact hlater other hother

theorem WrittenPage.ensures_ownersAt (h : WrittenPage page) (test : ℚ → Bool)
    (hitems : items ⊆ page.owners) :
    Ensures (ownersAt builtins page test items) fun refs => ∀ ref ∈ refs, ref.RepeatsOne page := by
  induction items with
  | nil => exact .ok fun ref href => nomatch href
  | cons o rest ih =>
    obtain ⟨howner, hrest⟩ := List.cons_subset.mp hitems
    obtain ⟨hwritten, hfield⟩ := h.owners o howner
    rw [ownersAt]
    apply hwritten.ensures_yOf.bind
    intro y _
    split
    · apply (h.ensures_findNearestRelationship hwritten).bind
      intro label hlabel
      apply (hwritten.ensures_toOwnerRef hfield label).bind
      intro ref href
      apply (ih hrest).bind
      intro later hlater
      apply Ensures.ok
      intro other hother
      rcases List.mem_cons.mp hother with rfl | hother
      · exact ⟨⟨o, howner, href.1⟩, href.2 ▸ hlabel⟩
      · exact hlater other hother
    · exact ih hrest

theorem WrittenPage.ensures_shareAt (h : WrittenPage page) (test : ℚ → Bool)
    (hitems : items ⊆ page.shares) :
    Ensures (shareAt builtins test items) fun share =>
      ∀ ref ∈ share, ∃ item ∈ page.shares, ref.Repeats item := by
  induction items with
  | nil => exact .ok fun ref href => nomatch href
  | cons s rest ih =>
    obtain ⟨hshare, hrest⟩ := List.cons_subset.mp hitems
    rw [shareAt]
    apply (h.shares s hshare).ensures_yOf.bind
    intro y _
    split
    · apply (h.shares s hshare).ensures_toShareRef.bind
      intro ref href
      apply Ensures.ok
      intro other hother
      obtain rfl := Option.some.inj hother
      exact ⟨s, hshare, href⟩
    · exact ih hrest

theorem ensures_first {β : Type} {build : Item → Except Raised β} {P : Item → β → Prop}
    (h : ∀ item ∈ items, Ensures (build item) (P item)) :
    Ensures (first build items) fun result => ∀ b ∈ result, ∃ item ∈ items, P item b := by
  cases items with
  | nil => exact .ok fun b hb => nomatch hb
  | cons item rest =>
    rw [first]
    apply (h item List.mem_cons_self).bind
    intro b hb
    apply Ensures.ok
    intro other hother
    obtain rfl := Option.some.inj hother
    exact ⟨item, List.mem_cons_self, hb⟩

theorem WrittenPage.ensures_parcelBinding (h : WrittenPage page) (several : Bool) (draw : ℕ)
    (hitem : item ∈ page.parcels) (band : Band) :
    Ensures (parcelBinding builtins pageId page several draw item band)
      (OwnerParcelShareBinding.Repeats page) := by
  rw [parcelBinding]
  dsimp only
  apply (h.ensures_ownersAt (band.holds builtins.floats) (List.Subset.refl _)).bind
  intro owners howners
  apply (h.ensures_shareAt (band.holds builtins.floats) (List.Subset.refl _)).bind
  intro share hshare
  apply (h.parcels item hitem).ensures_toEntityRef.bind
  intro parcel hparcel
  apply Ensures.ok
  constructor
  · intro ref href
    obtain rfl := Option.some.inj href
    exact ⟨item, hitem, hparcel⟩
  · exact howners
  · exact hshare

theorem WrittenPage.ensures_parcelBindings (h : WrittenPage page) (several : Bool) (draw : ℕ)
    {parcels : List (ℚ × Item)} (hitems : ∀ parcel ∈ parcels, parcel.2 ∈ page.parcels) :
    Ensures (parcelBindings builtins pageId page several draw parcels) fun bindings =>
      ∀ binding ∈ bindings, binding.Repeats page := by
  induction parcels generalizing draw with
  | nil => exact .ok fun binding hbinding => nomatch hbinding
  | cons parcel rest ih =>
    rw [parcelBindings]
    apply (h.ensures_parcelBinding several draw (hitems parcel List.mem_cons_self) _).bind
    intro binding hbinding
    apply (ih (draw + 1) fun later hlater => hitems later (List.mem_cons_of_mem _ hlater)).bind
    intro bindings hbindings
    apply Ensures.ok
    intro other hother
    rcases List.mem_cons.mp hother with rfl | hother
    · exact hbinding
    · exact hbindings other hother

theorem ensures_placed (h : ∀ item ∈ items, Written item) :
    Ensures (placed builtins items) fun pairs => pairs.map Prod.snd = items := by
  induction items with
  | nil => exact .ok rfl
  | cons item rest ih =>
    rw [placed]
    apply (h item List.mem_cons_self).ensures_yOf.bind
    intro y _
    apply (ih fun later hlater => h later (List.mem_cons_of_mem _ hlater)).bind
    intro pairs hpairs
    apply Ensures.ok
    rw [List.map_cons, hpairs]

theorem WrittenPage.ensures_single (h : WrittenPage page) :
    Ensures (buildSingleParcelBindings builtins pageId page) fun bindings =>
      ∀ binding ∈ bindings, binding.Repeats page := by
  rw [buildSingleParcelBindings]
  apply (ensures_first fun item hitem => (h.parcels item hitem).ensures_toEntityRef).bind
  intro parcel hparcel
  apply (ensures_first fun item hitem => (h.shares item hitem).ensures_toShareRef).bind
  intro share hshare
  dsimp only
  have hlabel : LabelOf page.relationships
      ((page.relationships.head?.map fun r => r.get "raw_value".toList).getD .none) := by
    cases hfirst : page.relationships.head? with
    | none => exact .inl rfl
    | some r => exact .inr ⟨r, List.mem_of_mem_head? hfirst, rfl⟩
  apply (h.ensures_ownerRefs hlabel (List.Subset.refl _)).bind
  intro owners howners
  apply Ensures.ok
  intro binding hbinding
  rw [List.mem_singleton.mp hbinding]
  exact ⟨hparcel, howners, hshare⟩

theorem WrittenPage.ensures_multi (h : WrittenPage page) :
    Ensures (buildMultiParcelBindings builtins pageId page) fun bindings =>
      ∀ binding ∈ bindings, binding.Repeats page := by
  rw [buildMultiParcelBindings]
  apply (ensures_placed h.parcels).bind
  intro pairs hpairs
  dsimp only
  have hparcels : ∀ parcel ∈ orderBy Prod.fst pairs, parcel.2 ∈ page.parcels := by
    intro parcel hparcel
    rw [← hpairs]
    exact List.mem_map_of_mem ((mem_orderBy Prod.fst).mp hparcel)
  apply (h.ensures_parcelBindings _ 0 hparcels).bind
  intro bindings hbindings
  apply (h.ensures_ownersAt _ (List.Subset.refl _)).bind
  intro unassigned hunassigned
  split
  · exact .ok hbindings
  · apply Ensures.ok
    intro binding hbinding
    rcases List.mem_append.mp hbinding with hbefore | hlast
    · exact hbindings binding hbefore
    · rw [List.mem_singleton.mp hlast]
      exact ⟨fun _ href => (nomatch href), hunassigned, fun _ href => (nomatch href)⟩

theorem ensures_extractRelationships (h : ∀ item ∈ items, Written item) (pageId : Option Text) :
    Ensures (extractRelationships builtins pageId items) fun bindings =>
      ∀ binding ∈ bindings, binding.Repeats (partition items) := by
  cases items with
  | nil => exact .ok fun binding hbinding => nomatch hbinding
  | cons extraction rest =>
    have hpage := writtenPage_partition h
    unfold extractRelationships
    dsimp only
    by_cases hfew : (partition (extraction :: rest)).parcels.length ≤ 1 ∧
        (partition (extraction :: rest)).owners.length ≤ 1
    · rw [if_pos hfew]
      exact hpage.ensures_single
    · rw [if_neg hfew]
      exact hpage.ensures_multi

end Page

end LandRecords.Extract
