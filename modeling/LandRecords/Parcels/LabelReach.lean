import LandRecords.Parcels.Labels

/-! Which labels are in reach of which parcels, apart from the order of either. A returned
binding has placed every label against every ring, and each row of its table lists the labels in
reach of one parcel. -/
namespace LandRecords.Parcels

variable {geometry : Geometry} {maxNearbyDistance : ℚ} {polygons : List ParcelBoundary}
  {labels : List PreparedLabel}

def ParcelBoundary.ring (polyItem : ParcelBoundary) : Option (List Point) :=
  polyItem.polygon.bind fun polyDict =>
    if polyItem.isValid then polyDict.coordinates.head?.filter fun coords => 3 ≤ coords.length
    else none

def ParcelBoundary.Ringless (polyItem : ParcelBoundary) : Prop :=
  polyItem.isValid = true ∧ ∃ polyDict ∈ polyItem.polygon, polyDict.coordinates = []

def reachIn (geometry : Geometry) (maxNearbyDistance : ℚ) (coords : List Point) (p : Point) :
    Option (ℚ × Bool) :=
  match placeOf geometry coords p with
  | .ok (isInside, dist) =>
      if isInside then some (0, true)
      else (dist.filter fun d => decide (d ≤ maxNearbyDistance)).map fun d => (d, false)
  | .error _ => none

def reachOf (geometry : Geometry) (maxNearbyDistance : ℚ) (polyItem : ParcelBoundary)
    (p : Point) : Option (ℚ × Bool) :=
  polyItem.ring.bind fun coords => reachIn geometry maxNearbyDistance coords p

def PreparedLabel.candidate (lbl : PreparedLabel) (reach : Option (ℚ × Bool)) : Option Candidate :=
  reach.map fun reach => { label := lbl, dist := reach.1, isInside := reach.2 }

def candidateOf (geometry : Geometry) (maxNearbyDistance : ℚ) (polyItem : ParcelBoundary)
    (lbl : PreparedLabel) : Option Candidate :=
  lbl.candidate (reachOf geometry maxNearbyDistance polyItem lbl.point)

def rowOf (geometry : Geometry) (maxNearbyDistance : ℚ) (labels : List PreparedLabel)
    (polyItem : ParcelBoundary) : List Candidate :=
  labels.filterMap (candidateOf geometry maxNearbyDistance polyItem)

theorem candidate_reachIn {coords : List Point} {lbl : PreparedLabel} {isInside : Bool}
    {dist : Option ℚ} (h : placeOf geometry coords lbl.point = .ok (isInside, dist)) :
    lbl.candidate (reachIn geometry maxNearbyDistance coords lbl.point) =
      if isInside then some { label := lbl, dist := 0, isInside := true }
      else (dist.filter fun d => decide (d ≤ maxNearbyDistance)).map fun d =>
        { label := lbl, dist := d, isInside := false } := by
  rw [reachIn, h, PreparedLabel.candidate]
  dsimp only
  split
  · rfl
  · rw [Option.map_map]
    rfl

theorem candidatesIn_eq_ok {coords : List Point} {candidates : List Candidate} :
    candidatesIn geometry maxNearbyDistance coords labels = .ok candidates ↔
      (∀ lbl ∈ labels, ∃ place, placeOf geometry coords lbl.point = .ok place) ∧
        candidates = labels.filterMap fun lbl =>
          lbl.candidate (reachIn geometry maxNearbyDistance coords lbl.point) := by
  induction labels generalizing candidates with
  | nil => simp [candidatesIn, eq_comm]
  | cons lbl labels ih =>
    have hcons : ∀ f : PreparedLabel → Option Candidate,
        (lbl :: labels).filterMap f = (f lbl).toList ++ labels.filterMap f := by
      intro f
      rw [List.filterMap_cons]
      cases f lbl <;> rfl
    rw [candidatesIn, List.forall_mem_cons, hcons]
    cases hplace : placeOf geometry coords lbl.point with
    | error e => simp
    | ok place =>
      rw [Raised.ok_bind, Raised.bind_eq_ok, candidate_reachIn hplace]
      simp only [ih, Except.ok.injEq, exists_eq', true_and]
      constructor
      · rintro ⟨later, ⟨hall, rfl⟩, h⟩
        cases h
        exact ⟨hall, rfl⟩
      · rintro ⟨hall, rfl⟩
        exact ⟨_, ⟨hall, rfl⟩, rfl⟩

theorem candidatesOf_eq_ok {polyItem : ParcelBoundary} {candidates : List Candidate} :
    candidatesOf geometry maxNearbyDistance labels polyItem = .ok candidates ↔
      (¬ polyItem.Ringless ∧ ∀ lbl ∈ labels, ∀ coords ∈ polyItem.ring,
        ∃ place, placeOf geometry coords lbl.point = .ok place) ∧
      candidates = rowOf geometry maxNearbyDistance labels polyItem := by
  have hnone : polyItem.ring = none →
      rowOf geometry maxNearbyDistance labels polyItem = [] := by
    intro hring
    rw [rowOf, List.filterMap_eq_nil_iff]
    intro lbl _
    rw [candidateOf, reachOf, hring]
    rfl
  -- where no label is placed, the row is empty
  have hskip : polyItem.ring = none → ¬ polyItem.Ringless →
      ((.ok [] : Except MapError (List Candidate)) = .ok candidates ↔
        (¬ polyItem.Ringless ∧ ∀ lbl ∈ labels, ∀ coords ∈ polyItem.ring,
          ∃ place, placeOf geometry coords lbl.point = .ok place) ∧
        candidates = rowOf geometry maxNearbyDistance labels polyItem) := by
    intro hring hringed
    rw [hnone hring, Except.ok.injEq, hring]
    constructor
    · rintro rfl
      exact ⟨⟨hringed, by simp⟩, rfl⟩
    · rintro ⟨-, rfl⟩
      rfl
  unfold candidatesOf
  split
  · rename_i hpolygon
    have hring : polyItem.ring = none := by rw [ParcelBoundary.ring, hpolygon, Option.bind_none]
    exact hskip hring (by simp [ParcelBoundary.Ringless, hpolygon])
  · rename_i polyDict hpolygon
    split
    · rename_i hinvalid
      have hring : polyItem.ring = none := by
        rw [ParcelBoundary.ring, hpolygon, Option.bind_some, if_neg (by simpa using hinvalid)]
      have hinvalid : polyItem.isValid = false := by simpa using hinvalid
      exact hskip hring (by simp [ParcelBoundary.Ringless, hinvalid])
    · rename_i hvalid
      have hvalid : polyItem.isValid = true := by simpa using hvalid
      split
      · rename_i hcoordinates
        have hraised : polyItem.Ringless := ⟨hvalid, polyDict, hpolygon, hcoordinates⟩
        simp only [hraised, not_true_eq_false, false_and, iff_false]
        intro h
        cases h
      · rename_i coords later hcoordinates
        have hringed : ¬ polyItem.Ringless := by
          rintro ⟨-, polyDict', hpolygon', hempty⟩
          obtain rfl := Option.some.inj (hpolygon.symm.trans hpolygon')
          simp [hcoordinates] at hempty
        split
        · rename_i hshort
          have hring : polyItem.ring = none := by
            simp [ParcelBoundary.ring, hpolygon, hvalid, hcoordinates, hshort]
          exact hskip hring hringed
        · rename_i hlong
          have hring : polyItem.ring = some coords := by
            simp [ParcelBoundary.ring, hpolygon, hvalid, hcoordinates, not_lt.mp hlong]
          have hcandidates : candidateOf geometry maxNearbyDistance polyItem = fun lbl =>
              lbl.candidate (reachIn geometry maxNearbyDistance coords lbl.point) := by
            funext lbl
            rw [candidateOf, reachOf, hring, Option.bind_some]
          rw [candidatesIn_eq_ok, rowOf, hcandidates]
          simp [hringed, hring]

theorem candidateTable_eq_ok {table : List (List Candidate)} :
    candidateTable geometry maxNearbyDistance labels polygons = .ok table ↔
      (∀ polyItem ∈ polygons, ¬ polyItem.Ringless ∧ ∀ lbl ∈ labels, ∀ coords ∈ polyItem.ring,
        ∃ place, placeOf geometry coords lbl.point = .ok place) ∧
      table = polygons.map (rowOf geometry maxNearbyDistance labels) := by
  induction polygons generalizing table with
  | nil => simp [candidateTable, eq_comm]
  | cons polyItem polygons ih =>
    rw [candidateTable, Raised.bind_eq_ok, List.forall_mem_cons, List.map_cons]
    constructor
    · rintro ⟨candidates, hcandidates, h⟩
      obtain ⟨later, hlater, h⟩ := Raised.bind_eq_ok.mp h
      cases h
      obtain ⟨hplaced, rfl⟩ := candidatesOf_eq_ok.mp hcandidates
      obtain ⟨hall, rfl⟩ := ih.mp hlater
      exact ⟨⟨hplaced, hall⟩, rfl⟩
    · rintro ⟨⟨hplaced, hall⟩, rfl⟩
      exact ⟨_, candidatesOf_eq_ok.mpr ⟨hplaced, rfl⟩,
        Raised.bind_eq_ok.mpr ⟨_, ih.mpr ⟨hall, rfl⟩, rfl⟩⟩

/-! ## Prepared labels -/

section Prepared

variable {conversions : Conversions ℚ} {operations : FloatOperations}
  {georefResult : Option GeoreferenceResult}

def PreparedLabel.withIndex (idx : ℕ) (lbl : PreparedLabel) : PreparedLabel :=
  { lbl with index := idx }

def labelContent (conversions : Conversions ℚ) (operations : FloatOperations)
    (georefResult : Option GeoreferenceResult)
    (lbl : Value ℚ) : Except Raised (Option PreparedLabel) := do
  prepareLabel conversions operations georefResult 0 (← lbl.asDict)

def contentOf (conversions : Conversions ℚ) (operations : FloatOperations)
    (georefResult : Option GeoreferenceResult)
    (lbl : Value ℚ) : Option PreparedLabel :=
  match labelContent conversions operations georefResult lbl with
  | .ok content => content
  | .error _ => none

theorem prepareLabel_eq (idx : ℕ) (lbl : Dict ℚ) :
    prepareLabel conversions operations georefResult idx lbl =
      (prepareLabel conversions operations georefResult 0 lbl).map (Option.map (PreparedLabel.withIndex idx)) := by
  unfold prepareLabel
  dsimp only
  split
  · rfl
  · cases labelPoint conversions operations lbl georefResult with
    | error e => rfl
    | ok point =>
      cases point with
      | none => rfl
      | some p =>
        rw [Raised.ok_bind, Raised.ok_bind]
        dsimp only
        generalize (if hasKey lbl "confidence" = true then lbl.get "confidence".toList
          else lbl.get "score".toList) = conf
        cases conf with
        | none => rfl
        | number n => rfl
        | text t =>
          dsimp only
          generalize Value.float conversions (Value.text t) = confidence
          cases confidence <;> rfl
        | list items => rfl
        | dict entries => rfl

theorem prepareLabels_eq_ok {items : List (Value ℚ)} {idx : ℕ} {prepared : List PreparedLabel} :
    prepareLabels conversions operations georefResult idx items = .ok prepared ↔
      (∀ lbl ∈ items, ∃ content, labelContent conversions operations georefResult lbl = .ok content) ∧
        prepared = (items.zipIdx idx).filterMap fun item =>
          (contentOf conversions operations georefResult item.1).map (PreparedLabel.withIndex item.2) := by
  induction items generalizing idx prepared with
  | nil => simp [prepareLabels, eq_comm]
  | cons lbl items ih =>
    have hcons : ∀ f : Value ℚ × ℕ → Option PreparedLabel,
        ((lbl :: items).zipIdx idx).filterMap f =
          (f (lbl, idx)).toList ++ (items.zipIdx (idx + 1)).filterMap f := by
      intro f
      rw [List.zipIdx_cons, List.filterMap_cons]
      cases f (lbl, idx) <;> rfl
    rw [prepareLabels, List.forall_mem_cons, hcons]
    cases hentries : lbl.asDict with
    | error e => simp [labelContent, hentries]
    | ok entries =>
      cases hcontent : prepareLabel conversions operations georefResult 0 entries with
      | error e =>
        simp only [prepareLabel_eq idx entries, hcontent, labelContent, hentries, Raised.ok_bind,
          Raised.map_error, Raised.error_bind]
        simp
      | ok content =>
        have hlabel : labelContent conversions operations georefResult lbl = .ok content := by
          rw [labelContent, hentries, Raised.ok_bind, hcontent]
        rw [Raised.ok_bind, prepareLabel_eq idx entries, hcontent, Raised.map_ok, Raised.ok_bind,
          Raised.bind_eq_ok, contentOf, hlabel]
        simp only [ih, Except.ok.injEq, exists_eq', true_and]
        constructor
        · rintro ⟨later, ⟨hall, rfl⟩, h⟩
          cases h
          exact ⟨hall, rfl⟩
        · rintro ⟨hall, rfl⟩
          exact ⟨_, ⟨hall, rfl⟩, rfl⟩

theorem nodup_index {items : List (Value ℚ)} {idx : ℕ} {prepared : List PreparedLabel}
    (h : prepareLabels conversions operations georefResult idx items = .ok prepared) :
    (prepared.map PreparedLabel.index).Nodup := by
  rw [(prepareLabels_eq_ok.mp h).2, List.map_filterMap]
  have hsub : ∀ pairs : List (Value ℚ × ℕ), (pairs.filterMap fun item =>
      ((contentOf conversions operations georefResult item.1).map (PreparedLabel.withIndex item.2)).map
        PreparedLabel.index).Sublist (pairs.map Prod.snd) := by
    intro pairs
    induction pairs with
    | nil => exact List.Sublist.refl _
    | cons item pairs ih =>
      rw [List.filterMap_cons, List.map_cons]
      cases contentOf conversions operations georefResult item.1 with
      | none => exact ih.cons _
      | some content => exact ih.cons_cons _
  refine List.Nodup.sublist (hsub _) ?_
  rw [List.zipIdx_map_snd]
  exact List.nodup_range'

end Prepared

/-! ## Competing parcels -/

def contested (geometry : Geometry) (maxNearbyDistance : ℚ) (polygons : List ParcelBoundary)
    (c : Candidate) : Bool :=
  1 < polygons.countP fun polyItem =>
    (reachOf geometry maxNearbyDistance polyItem c.label.point).any fun reach =>
      !c.isInside || reach.2

theorem filter_index_eq {lbl : PreparedLabel} (hnodup : (labels.map PreparedLabel.index).Nodup)
    (hmem : lbl ∈ labels) : labels.filter (fun other => other.index == lbl.index) = [lbl] := by
  induction labels with
  | nil => simp at hmem
  | cons first labels ih =>
    rw [List.map_cons, List.nodup_cons] at hnodup
    have habsent : ∀ other ∈ labels, other.index ≠ first.index :=
      fun other hother h => hnodup.1 (List.mem_map.mpr ⟨other, hother, h⟩)
    rcases List.mem_cons.mp hmem with rfl | hlater
    · rw [List.filter_cons_of_pos (by simp), List.filter_eq_nil_iff.mpr]
      intro other hother
      simpa using habsent other hother
    · rw [List.filter_cons_of_neg (by simpa using (habsent lbl hlater).symm), ih hnodup.2 hlater]

theorem competingParcels_eq {best : Candidate} (hnodup : (labels.map PreparedLabel.index).Nodup)
    (hmem : best.label ∈ labels) :
    competingParcels (polygons.map (rowOf geometry maxNearbyDistance labels)) best =
      polygons.filterMap fun polyItem =>
        (candidateOf geometry maxNearbyDistance polyItem best.label).filter fun c =>
          !best.isInside || c.isInside := by
  have hrow : ∀ polyItem,
      (rowOf geometry maxNearbyDistance labels polyItem).filter
          (fun other => other.label.index == best.label.index) =
        (candidateOf geometry maxNearbyDistance polyItem best.label).toList := by
    intro polyItem
    have hsame : ∀ lbl : PreparedLabel,
        (candidateOf geometry maxNearbyDistance polyItem lbl).filter
            (fun other => other.label.index == best.label.index) =
          if lbl.index == best.label.index then
            candidateOf geometry maxNearbyDistance polyItem lbl else none := by
      intro lbl
      unfold candidateOf PreparedLabel.candidate
      cases reachOf geometry maxNearbyDistance polyItem lbl.point with
      | none => simp
      | some reach => simp [Option.filter]
    rw [rowOf, List.filter_filterMap]
    simp only [hsame]
    rw [← List.filterMap_filter, filter_index_eq hnodup hmem, List.filterMap_cons]
    cases candidateOf geometry maxNearbyDistance polyItem best.label <;> rfl
  have hall : (polygons.map (rowOf geometry maxNearbyDistance labels)).flatten.filter
        (fun other => other.label.index == best.label.index) =
      polygons.filterMap fun polyItem =>
        candidateOf geometry maxNearbyDistance polyItem best.label := by
    rw [← List.flatMap_def, List.filter_flatMap, List.filterMap_eq_flatMap_toList]
    simp only [hrow]
  rw [competingParcels, hall]
  cases hinside : best.isInside with
  | true =>
    rw [if_pos rfl, List.filter_filterMap]
    simp
  | false =>
    rw [if_neg Bool.false_ne_true]
    congr 1
    funext polyItem
    cases candidateOf geometry maxNearbyDistance polyItem best.label <;> rfl

theorem contested_eq {best : Candidate} (hnodup : (labels.map PreparedLabel.index).Nodup)
    (hmem : best.label ∈ labels) :
    1 < (competingParcels (polygons.map (rowOf geometry maxNearbyDistance labels)) best).length ↔
      contested geometry maxNearbyDistance polygons best = true := by
  rw [competingParcels_eq hnodup hmem, List.length_filterMap_eq_countP, contested,
    decide_eq_true_iff]
  have hsame : ∀ polyItem, ((candidateOf geometry maxNearbyDistance polyItem best.label).filter
        fun c => !best.isInside || c.isInside).isSome =
      (reachOf geometry maxNearbyDistance polyItem best.label.point).any fun reach =>
        !best.isInside || reach.2 := by
    intro polyItem
    rw [candidateOf, PreparedLabel.candidate]
    cases reachOf geometry maxNearbyDistance polyItem best.label.point with
    | none => rfl
    | some reach => cases h : !best.isInside || reach.2 <;> simp [Option.filter, h]
  simp only [hsame]

end LandRecords.Parcels
