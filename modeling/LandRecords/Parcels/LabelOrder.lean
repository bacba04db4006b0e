import LandRecords.Parcels.LabelBinding

/-! Label binding over permuted labels. A parcel's result depends on the order of the labels only
through the first of the nearest in its pool, so it is settled where these are all contested or
all free. -/
namespace LandRecords.Parcels

variable {geometry : Geometry} {maxNearbyDistance : ℚ} {polygons : List ParcelBoundary}
  {labels : List PreparedLabel} {polyItem : ParcelBoundary}

def BoundParcel.survey (result : BoundParcel) : Option Text × BindingStatus :=
  (result.boundSurveyNo, result.bindingStatus)

def surveyOf (geometry : Geometry) (maxNearbyDistance : ℚ) (polygons : List ParcelBoundary)
    (labels : List PreparedLabel) (polyItem : ParcelBoundary) : Option Text × BindingStatus :=
  match chosenCandidate geometry maxNearbyDistance polygons labels polyItem with
  | some best => (some best.label.text, .bound)
  | none =>
      (none, if rowOf geometry maxNearbyDistance labels polyItem = [] then .unbound else .ambiguous)

def IsNearest (pool : List Candidate) (c : Candidate) : Prop := ∀ other ∈ pool, c.dist ≤ other.dist

def OneText (pool : List Candidate) : Prop := ∀ a ∈ pool, ∀ b ∈ pool, a.label.text = b.label.text

/-- Where the pool of a parcel has one text, its nearest labels are all contested or all free. -/
def Settled (geometry : Geometry) (maxNearbyDistance : ℚ) (polygons : List ParcelBoundary)
    (labels : List PreparedLabel) (polyItem : ParcelBoundary) : Prop :=
  OneText (poolOf (rowOf geometry maxNearbyDistance labels polyItem)) →
    ∀ a ∈ poolOf (rowOf geometry maxNearbyDistance labels polyItem),
    ∀ b ∈ poolOf (rowOf geometry maxNearbyDistance labels polyItem),
      IsNearest (poolOf (rowOf geometry maxNearbyDistance labels polyItem)) a →
      IsNearest (poolOf (rowOf geometry maxNearbyDistance labels polyItem)) b →
      contested geometry maxNearbyDistance polygons a = contested geometry maxNearbyDistance polygons b

theorem nearest_le (best : Candidate) (rest : List Candidate) :
    IsNearest (best :: rest) (nearest best rest) := by
  induction rest generalizing best with
  | nil =>
    intro other hother
    rw [List.mem_singleton.mp hother]
    exact le_rfl
  | cons c rest ih =>
    intro other hother
    rw [nearest]
    split
    · rename_i hlt
      rcases List.mem_cons.mp hother with rfl | hmem
      · exact (ih c c (List.mem_cons_self ..)).trans hlt.le
      · exact ih c other hmem
    · rename_i hge
      rcases List.mem_cons.mp hother with rfl | hmem
      · exact ih other other (List.mem_cons_self ..)
      · rcases List.mem_cons.mp hmem with rfl | hmem
        · exact (ih best best (List.mem_cons_self ..)).trans (not_lt.mp hge)
        · exact ih best other (List.mem_cons_of_mem _ hmem)

theorem nearest_eq_of_isNearest {best : Candidate} {rest : List Candidate}
    (h : IsNearest (best :: rest) best) : nearest best rest = best := by
  induction rest with
  | nil => rfl
  | cons c rest ih =>
    rw [nearest, if_neg (not_lt.mpr (h c (by simp)))]
    apply ih
    intro other hother
    exact h other (by rcases List.mem_cons.mp hother with rfl | hmem <;> simp [*])

theorem poolOf_ne_nil {row : List Candidate} (h : row ≠ []) : poolOf row ≠ [] :=
  fun hnil => h (poolOf_eq_nil_iff.mp hnil)

theorem surveyOf_of_nil (h : rowOf geometry maxNearbyDistance labels polyItem = []) :
    surveyOf geometry maxNearbyDistance polygons labels polyItem = (none, .unbound) := by
  rw [surveyOf, chosenCandidate, poolOf_eq_nil_iff.mpr h, if_pos h]

theorem surveyOf_of_texts (hrow : rowOf geometry maxNearbyDistance labels polyItem ≠ [])
    (htexts : ¬ OneText (poolOf (rowOf geometry maxNearbyDistance labels polyItem))) :
    surveyOf geometry maxNearbyDistance polygons labels polyItem = (none, .ambiguous) := by
  obtain ⟨first, rest, hpool⟩ := List.exists_cons_of_ne_nil (poolOf_ne_nil hrow)
  rw [hpool] at htexts
  have hmany : 1 < ((first :: rest).map (·.label.text)).dedup.length := by
    by_contra hone
    exact htexts (length_dedup_le_one_iff.mp hone)
  rw [surveyOf, chosenCandidate, hpool, if_neg hrow]
  dsimp only
  rw [if_pos hmany]

/-- With one text in the pool the first of the nearest decides. -/
theorem surveyOf_of_pool {first : Candidate} {rest : List Candidate}
    (hpool : poolOf (rowOf geometry maxNearbyDistance labels polyItem) = first :: rest)
    (hone : OneText (first :: rest)) :
    surveyOf geometry maxNearbyDistance polygons labels polyItem =
      if contested geometry maxNearbyDistance polygons (nearest first rest) then (none, .ambiguous)
      else (some (nearest first rest).label.text, .bound) := by
  have hrow : rowOf geometry maxNearbyDistance labels polyItem ≠ [] := by
    intro hnil
    rw [poolOf_eq_nil_iff.mpr hnil] at hpool
    cases hpool
  rw [surveyOf, chosenCandidate, hpool, if_neg hrow]
  dsimp only
  rw [if_neg (length_dedup_le_one_iff.mpr hone)]
  cases contested geometry maxNearbyDistance polygons (nearest first rest) <;> rfl

/-- Where the nearest are contested alike, each of them decides. -/
theorem surveyOf_of_nearest {c : Candidate}
    (hone : OneText (poolOf (rowOf geometry maxNearbyDistance labels polyItem)))
    (hc : c ∈ poolOf (rowOf geometry maxNearbyDistance labels polyItem))
    (hnearest : IsNearest (poolOf (rowOf geometry maxNearbyDistance labels polyItem)) c)
    (hsettled : Settled geometry maxNearbyDistance polygons labels polyItem) :
    surveyOf geometry maxNearbyDistance polygons labels polyItem =
      if contested geometry maxNearbyDistance polygons c then (none, .ambiguous)
      else (some c.label.text, .bound) := by
  obtain ⟨first, rest, hpool⟩ := List.exists_cons_of_ne_nil (List.ne_nil_of_mem hc)
  have hsame := hsettled hone
  rw [hpool] at hone hc hnearest hsame
  have hfirst := nearest_mem first rest
  rw [surveyOf_of_pool hpool hone, hone _ hfirst _ hc,
    hsame _ hfirst _ hc (nearest_le first rest) hnearest]

/-! ## Permuted labels -/

theorem rowOf_perm {labels' : List PreparedLabel} (h : labels'.Perm labels) :
    (rowOf geometry maxNearbyDistance labels' polyItem).Perm
      (rowOf geometry maxNearbyDistance labels polyItem) := h.filterMap _

theorem poolOf_eq (row : List Candidate) :
    poolOf row = if row.filter (·.isInside) = [] then row else row.filter (·.isInside) := by
  simp only [poolOf, List.isEmpty_iff]

theorem poolOf_perm {row row' : List Candidate} (h : row'.Perm row) :
    (poolOf row').Perm (poolOf row) := by
  have hinside := h.filter (·.isInside)
  rw [poolOf_eq, poolOf_eq]
  by_cases hnil : row.filter (·.isInside) = []
  · rw [if_pos hnil, if_pos (List.perm_nil.mp (hnil ▸ hinside))]
    exact h
  · have hnil' : row'.filter (·.isInside) ≠ [] :=
      fun hempty => hnil (List.nil_perm.mp (hempty ▸ hinside))
    rw [if_neg hnil, if_neg hnil']
    exact hinside

theorem Settled.perm {labels' : List PreparedLabel} (h : labels'.Perm labels)
    (hsettled : Settled geometry maxNearbyDistance polygons labels polyItem) :
    Settled geometry maxNearbyDistance polygons labels' polyItem := by
  have hpool := poolOf_perm (@rowOf_perm geometry maxNearbyDistance labels polyItem labels' h)
  simpa only [Settled, OneText, IsNearest, hpool.mem_iff] using hsettled

theorem surveyOf_perm {labels' : List PreparedLabel} (h : labels'.Perm labels)
    (hsettled : Settled geometry maxNearbyDistance polygons labels polyItem) :
    surveyOf geometry maxNearbyDistance polygons labels' polyItem =
      surveyOf geometry maxNearbyDistance polygons labels polyItem := by
  have hrow := @rowOf_perm geometry maxNearbyDistance labels polyItem labels' h
  have hpool := poolOf_perm hrow
  have hone : OneText (poolOf (rowOf geometry maxNearbyDistance labels' polyItem)) ↔
      OneText (poolOf (rowOf geometry maxNearbyDistance labels polyItem)) := by
    simp only [OneText, hpool.mem_iff]
  by_cases hnil : rowOf geometry maxNearbyDistance labels polyItem = []
  · rw [surveyOf_of_nil hnil, surveyOf_of_nil (List.perm_nil.mp (hnil ▸ hrow))]
  · have hnil' : rowOf geometry maxNearbyDistance labels' polyItem ≠ [] :=
      fun hnil' => hnil (List.nil_perm.mp (hnil' ▸ hrow))
    by_cases htexts : OneText (poolOf (rowOf geometry maxNearbyDistance labels polyItem))
    · obtain ⟨first, rest, hcases⟩ := List.exists_cons_of_ne_nil (poolOf_ne_nil hnil)
      have hmem := nearest_mem first rest
      have hleast := nearest_le first rest
      rw [← hcases] at hmem hleast
      rw [surveyOf_of_nearest htexts hmem hleast hsettled,
        surveyOf_of_nearest (hone.mpr htexts) (hpool.mem_iff.mpr hmem)
          (fun other hother => hleast other (hpool.mem_iff.mp hother)) (hsettled.perm h)]
    · rw [surveyOf_of_texts hnil htexts, surveyOf_of_texts hnil' fun h' => htexts (hone.mp h')]

theorem surveyOf_head {lbl : PreparedLabel} {c : Candidate}
    (hc : candidateOf geometry maxNearbyDistance polyItem lbl = some c)
    (hone : OneText (poolOf (rowOf geometry maxNearbyDistance (lbl :: labels) polyItem)))
    (hmem : c ∈ poolOf (rowOf geometry maxNearbyDistance (lbl :: labels) polyItem))
    (hnearest : IsNearest (poolOf (rowOf geometry maxNearbyDistance (lbl :: labels) polyItem)) c) :
    surveyOf geometry maxNearbyDistance polygons (lbl :: labels) polyItem =
      if contested geometry maxNearbyDistance polygons c then (none, .ambiguous)
      else (some c.label.text, .bound) := by
  have hrow : rowOf geometry maxNearbyDistance (lbl :: labels) polyItem =
      c :: rowOf geometry maxNearbyDistance labels polyItem := by
    rw [rowOf, List.filterMap_cons_some hc, rowOf]
  have hpool : ∃ rest, poolOf (rowOf geometry maxNearbyDistance (lbl :: labels) polyItem) =
      c :: rest := by
    rw [poolOf_eq] at hmem ⊢
    split
    · exact ⟨_, hrow⟩
    · rename_i hinside
      rw [if_neg hinside] at hmem
      refine ⟨(rowOf geometry maxNearbyDistance labels polyItem).filter (·.isInside), ?_⟩
      rw [hrow, List.filter_cons_of_pos (List.mem_filter.mp hmem).2]
  obtain ⟨rest, hpool⟩ := hpool
  rw [hpool] at hone hnearest
  rw [surveyOf_of_pool hpool hone, nearest_eq_of_isNearest hnearest]

/-- Where each label can come first without changing the result, the parcel is settled. -/
theorem settled_of_surveyOf
    (h : ∀ lbl ∈ labels, ∃ rest, (lbl :: rest).Perm labels ∧
      surveyOf geometry maxNearbyDistance polygons (lbl :: rest) polyItem =
        surveyOf geometry maxNearbyDistance polygons labels polyItem) :
    Settled geometry maxNearbyDistance polygons labels polyItem := by
  intro hone a ha b hb hnearestA hnearestB
  have hfirst : ∀ c ∈ poolOf (rowOf geometry maxNearbyDistance labels polyItem),
      IsNearest (poolOf (rowOf geometry maxNearbyDistance labels polyItem)) c →
      surveyOf geometry maxNearbyDistance polygons labels polyItem =
        if contested geometry maxNearbyDistance polygons c then (none, .ambiguous)
        else (some c.label.text, .bound) := by
    intro c hc hnearest
    obtain ⟨hlbl, hself⟩ := candidateOf_self (poolOf_subset _ hc)
    obtain ⟨rest, hperm, hsame⟩ := h c.label hlbl
    have hpool := poolOf_perm (@rowOf_perm geometry maxNearbyDistance labels polyItem _ hperm)
    rw [← hsame]
    exact surveyOf_head hself (fun x hx y hy => hone x (hpool.mem_iff.mp hx) y (hpool.mem_iff.mp hy))
      (hpool.mem_iff.mpr hc) fun other hother => hnearest other (hpool.mem_iff.mp hother)
  have hboth := (hfirst a ha hnearestA).symm.trans (hfirst b hb hnearestB)
  cases hca : contested geometry maxNearbyDistance polygons a <;>
    cases hcb : contested geometry maxNearbyDistance polygons b <;> simp_all

/-! ## Labels without their places -/

def labelContents (conversions : Conversions ℚ) (operations : FloatOperations)
    (georefResult : Option GeoreferenceResult)
    (items : List (Value ℚ)) : List PreparedLabel :=
  items.filterMap (contentOf conversions operations georefResult)

def Candidate.withIndex (idx : ℕ) (c : Candidate) : Candidate :=
  { c with label := c.label.withIndex idx }

theorem rowOf_withIndex (idx : ℕ) :
    rowOf geometry maxNearbyDistance (labels.map (PreparedLabel.withIndex idx)) polyItem =
      (rowOf geometry maxNearbyDistance labels polyItem).map (Candidate.withIndex idx) := by
  rw [rowOf, rowOf, List.filterMap_map, List.map_filterMap]
  congr 1
  funext lbl
  rw [Function.comp_apply, candidateOf, candidateOf, PreparedLabel.candidate,
    PreparedLabel.candidate, Option.map_map]
  rfl

theorem poolOf_withIndex (idx : ℕ) (row : List Candidate) :
    poolOf (row.map (Candidate.withIndex idx)) = (poolOf row).map (Candidate.withIndex idx) := by
  have hfilter : (row.map (Candidate.withIndex idx)).filter (·.isInside) =
      (row.filter (·.isInside)).map (Candidate.withIndex idx) := by
    rw [List.filter_map]
    rfl
  rw [poolOf_eq, poolOf_eq, hfilter]
  simp only [List.map_eq_nil_iff]
  split <;> rfl

theorem nearest_withIndex (idx : ℕ) (best : Candidate) (rest : List Candidate) :
    nearest (best.withIndex idx) (rest.map (Candidate.withIndex idx)) =
      (nearest best rest).withIndex idx := by
  induction rest generalizing best with
  | nil => rfl
  | cons c rest ih =>
    rw [List.map_cons, nearest, nearest, ← ih]
    congr 1
    change (if c.dist < best.dist then _ else _) = _
    split <;> rfl

theorem surveyOf_withIndex (idx : ℕ) :
    surveyOf geometry maxNearbyDistance polygons (labels.map (PreparedLabel.withIndex idx))
        polyItem =
      surveyOf geometry maxNearbyDistance polygons labels polyItem := by
  have hrow := @rowOf_withIndex geometry maxNearbyDistance labels polyItem idx
  have hpool := poolOf_withIndex idx (rowOf geometry maxNearbyDistance labels polyItem)
  rw [← hrow] at hpool
  by_cases hnil : rowOf geometry maxNearbyDistance labels polyItem = []
  · rw [surveyOf_of_nil hnil, surveyOf_of_nil (by rw [hrow, hnil, List.map_nil])]
  · obtain ⟨first, rest, hcases⟩ := List.exists_cons_of_ne_nil (poolOf_ne_nil hnil)
    rw [hcases, List.map_cons] at hpool
    have hone : OneText (first.withIndex idx :: rest.map (Candidate.withIndex idx)) ↔
        OneText (first :: rest) := by
      rw [← List.map_cons]
      simp only [OneText, List.forall_mem_map]
      rfl
    by_cases htexts : OneText (first :: rest)
    · rw [surveyOf_of_pool hcases htexts, surveyOf_of_pool hpool (hone.mpr htexts),
        nearest_withIndex]
      rfl
    · rw [surveyOf_of_texts hnil (by rwa [hcases]), surveyOf_of_texts]
      · rw [hrow]
        simpa using hnil
      · rw [hpool]
        exact fun h => htexts (hone.mp h)

section Runs

variable {builtins : MapBuiltins} {georefResult : Option GeoreferenceResult}
  {items : List (Value ℚ)} {bound : List BoundParcel}

theorem prepared_withIndex {conversions : Conversions ℚ} {operations : FloatOperations}
    {prepared : List PreparedLabel}
    (h : prepareLabels conversions operations georefResult 0 items = .ok prepared) :
    prepared.map (PreparedLabel.withIndex 0) =
      (labelContents conversions operations georefResult items).map (PreparedLabel.withIndex 0) := by
  have hpairs : ∀ pairs : List (Value ℚ × ℕ), (pairs.filterMap fun item =>
        (contentOf conversions operations georefResult item.1).map (PreparedLabel.withIndex item.2)).map
          (PreparedLabel.withIndex 0) =
      ((pairs.map Prod.fst).filterMap (contentOf conversions operations georefResult)).map
        (PreparedLabel.withIndex 0) := by
    intro pairs
    induction pairs with
    | nil => rfl
    | cons item pairs ih =>
      rw [List.map_cons, List.filterMap_cons, List.filterMap_cons]
      cases contentOf conversions operations georefResult item.1 with
      | none => exact ih
      | some content =>
        exact congrArg (PreparedLabel.withIndex 0 content :: ·) ih
  rw [(prepareLabels_eq_ok.mp h).2, hpairs, List.zipIdx_map_fst]
  rfl

structure Placeable (builtins : MapBuiltins) (polygons : List ParcelBoundary)
    (georefResult : Option GeoreferenceResult) (items : List (Value ℚ)) : Prop where
  content : ∀ item ∈ items,
    ∃ content, labelContent builtins.toConversions builtins.operations georefResult item = .ok content
  place : ∀ polyItem ∈ polygons, ¬ polyItem.Ringless ∧
    ∀ lbl ∈ labelContents builtins.toConversions builtins.operations georefResult items,
      ∀ coords ∈ polyItem.ring, ∃ place, placeOf builtins.toGeometry coords lbl.point = .ok place

theorem Placeable.perm {items' : List (Value ℚ)} (h : items'.Perm items)
    (hplaceable : Placeable builtins polygons georefResult items) :
    Placeable builtins polygons georefResult items' where
  content item hitem := hplaceable.content item (h.mem_iff.mp hitem)
  place polyItem hpoly := by
    obtain ⟨hringed, hplace⟩ := hplaceable.place polyItem hpoly
    exact ⟨hringed, fun lbl hlbl => hplace lbl ((h.filterMap _).mem_iff.mp hlbl)⟩

theorem forall_point_iff {conversions : Conversions ℚ} {operations : FloatOperations}
    {prepared : List PreparedLabel}
    (h : prepareLabels conversions operations georefResult 0 items = .ok prepared) (P : Point → Prop) :
    (∀ lbl ∈ prepared, P lbl.point) ↔
      ∀ lbl ∈ labelContents conversions operations georefResult items, P lbl.point := by
  have hpoints := congrArg (List.map PreparedLabel.point) (prepared_withIndex h)
  rw [List.map_map, List.map_map] at hpoints
  change prepared.map PreparedLabel.point =
    (labelContents conversions operations georefResult items).map PreparedLabel.point at hpoints
  rw [← List.forall_mem_map, hpoints, List.forall_mem_map]

theorem bindSurveyLabels_of_placeable (hne : polygons ≠ [])
    (h : Placeable builtins polygons georefResult items) :
    ∃ bound, bindSurveyLabels builtins polygons (.list items) georefResult maxNearbyDistance =
      .ok bound := by
  obtain ⟨prepared, hprepared⟩ : ∃ prepared,
      prepareLabels builtins.toConversions builtins.operations georefResult 0 items = .ok prepared :=
    ⟨_, prepareLabels_eq_ok.mpr ⟨h.content, rfl⟩⟩
  refine ⟨_, (bindSurveyLabels_eq_ok hne).mpr ⟨items, _, rfl, hprepared, ?_, rfl⟩⟩
  intro polyItem hpoly
  obtain ⟨hringed, hplace⟩ := h.place polyItem hpoly
  exact ⟨hringed, (forall_point_iff hprepared fun p => ∀ coords ∈ polyItem.ring,
    ∃ place, placeOf builtins.toGeometry coords p = .ok place).mpr hplace⟩

/-- What a returned binding gives each parcel, in terms of the contents of the labels. -/
theorem survey_bindSurveyLabels (hne : polygons ≠ [])
    (h : bindSurveyLabels builtins polygons (.list items) georefResult maxNearbyDistance =
      .ok bound) :
    Placeable builtins polygons georefResult items ∧
      bound.map BoundParcel.survey = polygons.map (surveyOf builtins.toGeometry maxNearbyDistance
        polygons (labelContents builtins.toConversions builtins.operations georefResult items)) := by
  obtain ⟨_, prepared, hitems, hprepared, hplaced, rfl⟩ := (bindSurveyLabels_eq_ok hne).mp h
  cases hitems
  refine ⟨⟨(prepareLabels_eq_ok.mp hprepared).1, fun polyItem hpoly => ?_⟩, ?_⟩
  · obtain ⟨hringed, hplace⟩ := hplaced polyItem hpoly
    exact ⟨hringed, (forall_point_iff hprepared fun p => ∀ coords ∈ polyItem.ring,
      ∃ place, placeOf builtins.toGeometry coords p = .ok place).mp hplace⟩
  · rw [List.map_map]
    apply List.map_congr_left
    intro polyItem _
    rw [← @surveyOf_withIndex _ _ _ (labelContents ..) _ 0, ← prepared_withIndex hprepared,
      surveyOf_withIndex, Function.comp_apply, resolveBinding_eq (nodup_index hprepared), surveyOf]
    cases chosenCandidate builtins.toGeometry maxNearbyDistance polygons prepared polyItem <;> rfl

/-- Every order of the labels gives each parcel the same survey number and status exactly when
all parcels are settled. -/
theorem bindSurveyLabels_perm_iff
    (h : bindSurveyLabels builtins polygons (.list items) georefResult maxNearbyDistance =
      .ok bound) :
    (∀ items', items'.Perm items → ∃ bound',
      bindSurveyLabels builtins polygons (.list items') georefResult maxNearbyDistance = .ok bound' ∧
        bound'.map BoundParcel.survey = bound.map BoundParcel.survey) ↔
      ∀ polyItem ∈ polygons, Settled builtins.toGeometry maxNearbyDistance polygons
        (labelContents builtins.toConversions builtins.operations georefResult items) polyItem := by
  by_cases hne : polygons = []
  · subst hne
    cases h
    constructor
    · intro _ polyItem hpoly
      cases hpoly
    · exact fun _ items' _ => ⟨[], rfl, rfl⟩
  · obtain ⟨hplaceable, hsurvey⟩ := survey_bindSurveyLabels hne h
    constructor
    · intro hsame polyItem hpoly
      apply settled_of_surveyOf
      intro lbl hlbl
      obtain ⟨item, hitem, hcontent⟩ := List.mem_filterMap.mp hlbl
      obtain ⟨before, after, rfl⟩ := List.append_of_mem hitem
      have hperm : (item :: (before ++ after)).Perm (before ++ item :: after) :=
        List.perm_middle.symm
      obtain ⟨bound', hrun, hbound⟩ := hsame _ hperm
      have hsurvey' := (survey_bindSurveyLabels hne hrun).2
      have hcontents : labelContents builtins.toConversions builtins.operations georefResult
          (item :: (before ++ after)) = lbl :: labelContents builtins.toConversions builtins.operations georefResult
            (before ++ after) := List.filterMap_cons_some hcontent
      rw [hbound, hsurvey, hcontents] at hsurvey'
      refine ⟨_, ?_, (List.map_inj_left.mp hsurvey' polyItem hpoly).symm⟩
      rw [← hcontents]
      exact hperm.filterMap _
    · intro hsettled items' hperm
      obtain ⟨bound', hrun⟩ := bindSurveyLabels_of_placeable hne (hplaceable.perm hperm)
      refine ⟨bound', hrun, ?_⟩
      rw [(survey_bindSurveyLabels hne hrun).2, hsurvey]
      apply List.map_congr_left
      intro polyItem hpoly
      exact surveyOf_perm (hperm.filterMap _) (hsettled polyItem hpoly)

end Runs

/-- Two parcels with a label each are bound alike in every order of the labels. -/
theorem bindSurveyLabels_neighbours_perm : ∃ bound,
    bindSurveyLabels planarBuiltins [squareParcel 1 0, squareParcel 2 200]
        (.list [pointLabel "12A" 50 50, pointLabel "12B" 250 50]) none 50 = .ok bound ∧
      ∀ items', items'.Perm [pointLabel "12A" 50 50, pointLabel "12B" 250 50] → ∃ bound',
        bindSurveyLabels planarBuiltins [squareParcel 1 0, squareParcel 2 200] (.list items') none
            50 = .ok bound' ∧
          bound'.map BoundParcel.survey = bound.map BoundParcel.survey := by
  have hreturned : (bindSurveyLabels planarBuiltins [squareParcel 1 0, squareParcel 2 200]
      (.list [pointLabel "12A" 50 50, pointLabel "12B" 250 50]) none 50).map List.length =
        .ok 2 := by
    decide +kernel
  obtain ⟨bound, hrun, -⟩ := Raised.map_eq_ok.mp hreturned
  refine ⟨bound, hrun, (bindSurveyLabels_perm_iff hrun).mpr ?_⟩
  simp only [Settled, OneText, IsNearest]
  decide +kernel

/-- Two parcels overlap; the label in the overlap and one in the first parcel have one text. With
the contested label first the first parcel is ambiguous, with the other first it is bound. -/
theorem bindSurveyLabels_overlap :
    (bindSurveyLabels planarBuiltins [squareParcel 1 0, squareParcel 2 50]
        (.list [pointLabel "12A" 20 50, pointLabel "12A" 75 50]) none 50).map
          (List.map BoundParcel.survey) =
        .ok [(some "12A".toList, .bound), (none, .ambiguous)] ∧
      (bindSurveyLabels planarBuiltins [squareParcel 1 0, squareParcel 2 50]
        (.list [pointLabel "12A" 75 50, pointLabel "12A" 20 50]) none 50).map
          (List.map BoundParcel.survey) =
        .ok [(none, .ambiguous), (none, .ambiguous)] := by
  constructor <;> decide +kernel

end LandRecords.Parcels
