import LandRecords.Parcels.LabelReach
import LandRecords.Parcels.NoFabrication

/-! What a binding of survey labels guarantees as a whole: parcels are kept, no label is bound
twice, contested parcels and labels stay unbound, and a label alone in its parcel is bound. -/
namespace LandRecords.Parcels

variable {geometry : Geometry} {maxNearbyDistance : ℚ} {polygons : List ParcelBoundary}
  {labels : List PreparedLabel} {polyItem : ParcelBoundary}

/-! ## The label of a parcel -/

/-- The candidate that a parcel is bound to: the first of the nearest in its pool, unless the
pool has several texts or the label several parcels. -/
def chosenCandidate (geometry : Geometry) (maxNearbyDistance : ℚ)
    (polygons : List ParcelBoundary) (labels : List PreparedLabel) (polyItem : ParcelBoundary) :
    Option Candidate :=
  match poolOf (rowOf geometry maxNearbyDistance labels polyItem) with
  | [] => none
  | c :: rest =>
      if 1 < ((c :: rest).map (·.label.text)).dedup.length then none
      else if contested geometry maxNearbyDistance polygons (nearest c rest) then none
      else some (nearest c rest)

theorem mem_rowOf {c : Candidate} : c ∈ rowOf geometry maxNearbyDistance labels polyItem ↔
    ∃ lbl ∈ labels, candidateOf geometry maxNearbyDistance polyItem lbl = some c :=
  List.mem_filterMap

theorem candidateOf_label {lbl : PreparedLabel} {c : Candidate}
    (h : candidateOf geometry maxNearbyDistance polyItem lbl = some c) :
    c.label = lbl ∧ reachOf geometry maxNearbyDistance polyItem lbl.point =
      some (c.dist, c.isInside) := by
  obtain ⟨reach, hreach, rfl⟩ := Option.map_eq_some_iff.mp h
  exact ⟨rfl, hreach⟩

theorem candidateOf_self {c : Candidate}
    (h : c ∈ rowOf geometry maxNearbyDistance labels polyItem) :
    c.label ∈ labels ∧ candidateOf geometry maxNearbyDistance polyItem c.label = some c := by
  obtain ⟨lbl, hlbl, hc⟩ := mem_rowOf.mp h
  obtain ⟨rfl, -⟩ := candidateOf_label hc
  exact ⟨hlbl, hc⟩

theorem poolOf_subset (candidates : List Candidate) : poolOf candidates ⊆ candidates := by
  unfold poolOf
  dsimp only
  split
  · exact List.Subset.refl _
  · exact List.filter_subset_self _

theorem poolOf_eq_nil_iff {candidates : List Candidate} :
    poolOf candidates = [] ↔ candidates = [] := by
  unfold poolOf
  dsimp only
  split
  · rfl
  · rename_i hinside
    constructor
    · intro hnil
      simp [hnil] at hinside
    · rintro rfl
      rfl

theorem nearest_mem (best : Candidate) (rest : List Candidate) :
    nearest best rest ∈ best :: rest := by
  induction rest generalizing best with
  | nil => exact List.mem_singleton_self _
  | cons c rest ih =>
    rw [nearest]
    split
    · exact List.mem_cons_of_mem _ (ih c)
    · rcases List.mem_cons.mp (ih best) with h | h
      · rw [h]
        exact List.mem_cons_self ..
      · exact List.mem_cons_of_mem _ (List.mem_cons_of_mem _ h)

theorem length_dedup_le_one_iff {pool : List Candidate} :
    ¬ 1 < (pool.map (·.label.text)).dedup.length ↔
      ∀ a ∈ pool, ∀ b ∈ pool, a.label.text = b.label.text := by
  constructor
  · intro hshort a ha b hb
    have ha' : a.label.text ∈ (pool.map (·.label.text)).dedup :=
      List.mem_dedup.mpr (List.mem_map_of_mem ha)
    have hb' : b.label.text ∈ (pool.map (·.label.text)).dedup :=
      List.mem_dedup.mpr (List.mem_map_of_mem hb)
    match htexts : (pool.map (·.label.text)).dedup with
    | [] => simp [htexts] at ha'
    | [text] =>
      rw [htexts, List.mem_singleton] at ha' hb'
      rw [ha', hb']
    | _ :: _ :: _ => simp [htexts] at hshort
  · intro hsame
    have hnodup := List.nodup_dedup (pool.map (·.label.text))
    match htexts : (pool.map (·.label.text)).dedup with
    | [] => simp [htexts]
    | [_] => simp [htexts]
    | text :: text' :: rest =>
      rw [htexts, List.nodup_cons] at hnodup
      have hmem : ∀ t ∈ text :: text' :: rest, ∃ a ∈ pool, a.label.text = t := by
        intro t ht
        rw [← htexts, List.mem_dedup] at ht
        exact List.mem_map.mp ht
      obtain ⟨a, ha, rfl⟩ := hmem text (by simp)
      obtain ⟨b, hb, rfl⟩ := hmem text' (by simp)
      rw [hsame a ha b hb] at hnodup
      exact absurd (List.mem_cons_self ..) hnodup.1

theorem mem_of_chosenCandidate {c : Candidate}
    (h : chosenCandidate geometry maxNearbyDistance polygons labels polyItem = some c) :
    c ∈ poolOf (rowOf geometry maxNearbyDistance labels polyItem) ∧
      (∀ a ∈ poolOf (rowOf geometry maxNearbyDistance labels polyItem),
        ∀ b ∈ poolOf (rowOf geometry maxNearbyDistance labels polyItem),
          a.label.text = b.label.text) ∧
      contested geometry maxNearbyDistance polygons c = false := by
  unfold chosenCandidate at h
  split at h
  · cases h
  · rename_i first rest hpool
    split at h
    · cases h
    · rename_i htexts
      split at h
      · cases h
      · rename_i hfree
        obtain rfl := Option.some.inj h
        rw [hpool]
        exact ⟨nearest_mem first rest, length_dedup_le_one_iff.mp htexts, by simpa using hfree⟩

theorem resolveBinding_eq (hnodup : (labels.map PreparedLabel.index).Nodup) :
    resolveBinding (polygons.map (rowOf geometry maxNearbyDistance labels)) polyItem
        (rowOf geometry maxNearbyDistance labels polyItem) =
      match chosenCandidate geometry maxNearbyDistance polygons labels polyItem with
      | some best => {
          polyItem with
          conflationLineageRef := best.label.conflationLineageRef.orElse polyItem.conflationLineageRef
          boundSurveyNo := some best.label.text
          labelConfidence := best.label.confidence
          labelBbox := best.label.bbox
          bindingStatus := .bound }
      | none => leftUnbound polyItem
          (if rowOf geometry maxNearbyDistance labels polyItem = [] then .unbound else .ambiguous)
          (resolveBinding (polygons.map (rowOf geometry maxNearbyDistance labels)) polyItem
            (rowOf geometry maxNearbyDistance labels polyItem)).conflationLineageRef := by
  unfold chosenCandidate
  cases hpool : poolOf (rowOf geometry maxNearbyDistance labels polyItem) with
  | nil =>
    rw [resolveBinding, hpool, if_pos (poolOf_eq_nil_iff.mp hpool)]
    rfl
  | cons first rest =>
    have hrow : rowOf geometry maxNearbyDistance labels polyItem ≠ [] := by
      intro hnil
      rw [poolOf_eq_nil_iff.mpr hnil] at hpool
      cases hpool
    have hbest := (candidateOf_self (poolOf_subset _ (hpool ▸ nearest_mem first rest))).1
    have hcontested := @contested_eq geometry maxNearbyDistance polygons labels _ hnodup hbest
    rw [resolveBinding, hpool, if_neg hrow]
    dsimp only
    by_cases htexts : 1 < ((first :: rest).map (·.label.text)).dedup.length
    · rw [if_pos htexts, if_pos htexts]
      rfl
    · rw [if_neg htexts, if_neg htexts]
      by_cases hfree : contested geometry maxNearbyDistance polygons (nearest first rest) = true
      · rw [if_pos hfree]
        rw [if_pos (hcontested.mpr hfree)]
        rfl
      · rw [if_neg hfree]
        rw [if_neg fun h => hfree (hcontested.mp h)]

/-! ## Guarantees over all parcels -/

def ParcelBoundary.Contains (geometry : Geometry) (polyItem : ParcelBoundary) (p : Point) :
    Prop :=
  ∃ coords ∈ polyItem.ring, ∃ dist, placeOf geometry coords p = .ok (true, dist)

def chosenLabel (geometry : Geometry) (maxNearbyDistance : ℚ) (polygons : List ParcelBoundary)
    (labels : List PreparedLabel) (i : ℕ) : Option PreparedLabel :=
  polygons[i]?.bind fun polyItem =>
    (chosenCandidate geometry maxNearbyDistance polygons labels polyItem).map Candidate.label

/-- The labels that the binding prepares, if it can. -/
def preparedOf (conversions : Conversions ℚ) (operations : FloatOperations) (labels : Value ℚ)
    (georefResult : Option GeoreferenceResult) : List PreparedLabel :=
  match labels.iterate >>= prepareLabels conversions operations georefResult 0 with
  | .ok prepared => prepared
  | .error _ => []

structure BoundTo (labels : List PreparedLabel) (chosen : Option PreparedLabel)
    (polyItem : ParcelBoundary) (result : BoundParcel) : Prop where
  kept : { result.toParcelBoundary with
    conflationLineageRef := polyItem.conflationLineageRef } = polyItem
  lineage : result.conflationLineageRef = polyItem.conflationLineageRef ∨
    ∃ lbl ∈ labels, result.conflationLineageRef = lbl.conflationLineageRef
  bound : ∀ lbl ∈ chosen, result.boundSurveyNo = some lbl.text ∧
    result.labelConfidence = lbl.confidence ∧ result.labelBbox = lbl.bbox ∧
    result.bindingStatus = .bound
  unbound : chosen = none → result.boundSurveyNo = none ∧ result.labelConfidence = none ∧
    result.labelBbox = .none ∧ result.bindingStatus ≠ .bound

/-- The parcels are returned in order, each with the label chosen for it, and the choice is
exclusive and complete. -/
structure ExclusiveBinding (geometry : Geometry) (polygons : List ParcelBoundary)
    (labels : List PreparedLabel) (chosen : ℕ → Option PreparedLabel)
    (bound : List BoundParcel) : Prop where
  length : bound.length = polygons.length
  parcels : ∀ i polyItem result, polygons[i]? = some polyItem → bound[i]? = some result →
    BoundTo labels (chosen i) polyItem result
  mem : ∀ i, ∀ lbl ∈ chosen i, lbl ∈ labels
  once : ∀ i j, ∀ lbl ∈ chosen i, ∀ lbl' ∈ chosen j, lbl.index = lbl'.index → i = j
  oneText : ∀ i, ∀ polyItem ∈ polygons[i]?, ∀ lbl ∈ labels, ∀ lbl' ∈ labels,
    polyItem.Contains geometry lbl.point → polyItem.Contains geometry lbl'.point →
    lbl.text ≠ lbl'.text → chosen i = none
  oneParcel : ∀ i, ∀ lbl ∈ chosen i, ∀ (j k : ℕ) (a b : ParcelBoundary), polygons[j]? = some a →
    polygons[k]? = some b → a.Contains geometry lbl.point → b.Contains geometry lbl.point → j = k
  alone : ∀ i, ∀ polyItem ∈ polygons[i]?, ∀ lbl ∈ labels, polyItem.Contains geometry lbl.point →
    (∀ j, ∀ other ∈ polygons[j]?, other.Contains geometry lbl.point → j = i) →
    (∀ lbl' ∈ labels, polyItem.Contains geometry lbl'.point → lbl'.index = lbl.index) →
    chosen i = some lbl

theorem one_lt_countP_iff {α : Type} {p : α → Bool} {l : List α} :
    1 < l.countP p ↔ ∃ i j : ℕ, i < j ∧ (∃ a ∈ l[i]?, p a) ∧ ∃ b ∈ l[j]?, p b := by
  induction l with
  | nil => simp
  | cons first l ih =>
    constructor
    · intro h
      by_cases hfirst : p first = true
      · rw [List.countP_cons_of_pos hfirst, Nat.lt_add_left_iff_pos, List.countP_pos_iff] at h
        obtain ⟨b, hb, hpb⟩ := h
        obtain ⟨j, hj⟩ := List.mem_iff_getElem?.mp hb
        exact ⟨0, j + 1, Nat.succ_pos j, ⟨first, rfl, hfirst⟩, b, hj, hpb⟩
      · rw [List.countP_cons_of_neg hfirst] at h
        obtain ⟨i, j, hij, ha, hb⟩ := ih.mp h
        exact ⟨i + 1, j + 1, Nat.succ_lt_succ hij, ha, hb⟩
    · rintro ⟨i, j, hij, ⟨a, ha, hpa⟩, b, hb, hpb⟩
      obtain ⟨j, rfl⟩ : ∃ j', j = j' + 1 := ⟨j - 1, by omega⟩
      have hlater : 0 < l.countP p :=
        List.countP_pos_iff.mpr ⟨b, List.mem_of_getElem? hb, hpb⟩
      cases i with
      | zero =>
        obtain rfl := Option.some.inj ha
        rw [List.countP_cons_of_pos hpa]
        omega
      | succ i =>
        have hrest := ih.mpr ⟨i, j, Nat.lt_of_succ_lt_succ hij, ⟨a, ha, hpa⟩, b, hb, hpb⟩
        exact hrest.trans_le ((List.sublist_cons_self first l).countP_le)

theorem contains_iff (maxNearbyDistance : ℚ) {p : Point} : polyItem.Contains geometry p ↔
    ∃ d, reachOf geometry maxNearbyDistance polyItem p = some (d, true) := by
  unfold ParcelBoundary.Contains reachOf
  constructor
  · rintro ⟨coords, hring, dist, hplace⟩
    refine ⟨0, ?_⟩
    rw [Option.mem_def.mp hring, Option.bind_some, reachIn, hplace]
    rfl
  · rintro ⟨d, hreach⟩
    obtain ⟨coords, hring, hin⟩ := Option.bind_eq_some_iff.mp hreach
    refine ⟨coords, hring, ?_⟩
    unfold reachIn at hin
    split at hin
    · rename_i isInside dist hplace
      cases isInside with
      | true => exact ⟨dist, hplace⟩
      | false => simp at hin
    · cases hin

theorem contested_iff {c : Candidate} :
    contested geometry maxNearbyDistance polygons c = true ↔
      ∃ i j : ℕ, i < j ∧
        (∃ a ∈ polygons[i]?, ∃ reach ∈ reachOf geometry maxNearbyDistance a c.label.point,
          c.isInside = true → reach.2 = true) ∧
        ∃ b ∈ polygons[j]?, ∃ reach ∈ reachOf geometry maxNearbyDistance b c.label.point,
          c.isInside = true → reach.2 = true := by
  have hany : ∀ a : ParcelBoundary,
      ((reachOf geometry maxNearbyDistance a c.label.point).any fun reach =>
        !c.isInside || reach.2) = true ↔
      ∃ reach ∈ reachOf geometry maxNearbyDistance a c.label.point,
        c.isInside = true → reach.2 = true := by
    intro a
    rw [Option.any_eq_true]
    cases c.isInside <;> simp
  rw [contested, decide_eq_true_iff, one_lt_countP_iff]
  simp only [hany]

theorem contested_of_ne {c : Candidate} {i j : ℕ} {a b : ParcelBoundary} {r r' : ℚ × Bool}
    (hij : i ≠ j) (ha : polygons[i]? = some a) (hb : polygons[j]? = some b)
    (hr : reachOf geometry maxNearbyDistance a c.label.point = some r)
    (hr' : reachOf geometry maxNearbyDistance b c.label.point = some r')
    (hinside : c.isInside = true → r.2 = true) (hinside' : c.isInside = true → r'.2 = true) :
    contested geometry maxNearbyDistance polygons c = true := by
  rw [contested_iff]
  rcases Nat.lt_or_gt_of_ne hij with hlt | hgt
  · exact ⟨i, j, hlt, ⟨a, ha, r, hr, hinside⟩, b, hb, r', hr', hinside'⟩
  · exact ⟨j, i, hgt, ⟨b, hb, r', hr', hinside'⟩, a, ha, r, hr, hinside⟩

theorem chosenLabel_eq_some {i : ℕ} {lbl : PreparedLabel}
    (h : chosenLabel geometry maxNearbyDistance polygons labels i = some lbl) :
    ∃ polyItem c, polygons[i]? = some polyItem ∧ c.label = lbl ∧ lbl ∈ labels ∧
      chosenCandidate geometry maxNearbyDistance polygons labels polyItem = some c ∧
      reachOf geometry maxNearbyDistance polyItem lbl.point = some (c.dist, c.isInside) ∧
      contested geometry maxNearbyDistance polygons c = false := by
  obtain ⟨polyItem, hpoly, hchosen⟩ := Option.bind_eq_some_iff.mp h
  obtain ⟨c, hc, rfl⟩ := Option.map_eq_some_iff.mp hchosen
  obtain ⟨hpool, -, hfree⟩ := mem_of_chosenCandidate hc
  obtain ⟨hmem, hself⟩ := candidateOf_self (poolOf_subset _ hpool)
  exact ⟨polyItem, c, hpoly, rfl, hmem, hc, (candidateOf_label hself).2, hfree⟩

theorem chosenLabel_once (hnodup : (labels.map PreparedLabel.index).Nodup) {i j : ℕ}
    {lbl lbl' : PreparedLabel}
    (h : chosenLabel geometry maxNearbyDistance polygons labels i = some lbl)
    (h' : chosenLabel geometry maxNearbyDistance polygons labels j = some lbl')
    (hindex : lbl.index = lbl'.index) : i = j := by
  obtain ⟨a, c, ha, rfl, hmem, -, hreach, hfree⟩ := chosenLabel_eq_some h
  obtain ⟨b, c', hb, rfl, hmem', -, hreach', hfree'⟩ := chosenLabel_eq_some h'
  have hsame : c.label = c'.label := List.inj_on_of_nodup_map hnodup hmem hmem' hindex
  by_contra hij
  -- the parcel where the label is not inside sees the other one compete
  cases hinside : c.isInside with
  | false =>
    rw [contested_of_ne hij ha hb hreach (hsame ▸ hreach') (by simp [hinside])
      (by simp [hinside])] at hfree
    cases hfree
  | true =>
    rw [contested_of_ne (Ne.symm hij) hb ha hreach' (hsame ▸ hreach) (fun h => h)
      (fun _ => hinside)] at hfree'
    cases hfree'

theorem chosenLabel_oneParcel {i j k : ℕ} {lbl : PreparedLabel} {a b : ParcelBoundary}
    (h : chosenLabel geometry maxNearbyDistance polygons labels i = some lbl)
    (ha : polygons[j]? = some a) (hb : polygons[k]? = some b)
    (hina : a.Contains geometry lbl.point) (hinb : b.Contains geometry lbl.point) : j = k := by
  obtain ⟨-, c, -, rfl, -, -, -, hfree⟩ := chosenLabel_eq_some h
  obtain ⟨d, hreach⟩ := (contains_iff maxNearbyDistance).mp hina
  obtain ⟨d', hreach'⟩ := (contains_iff maxNearbyDistance).mp hinb
  by_contra hjk
  rw [contested_of_ne hjk ha hb hreach hreach' (fun _ => rfl) (fun _ => rfl)] at hfree
  cases hfree

theorem mem_poolOf_iff {lbl : PreparedLabel} (hmem : lbl ∈ labels)
    (hin : polyItem.Contains geometry lbl.point) {c : Candidate} :
    c ∈ poolOf (rowOf geometry maxNearbyDistance labels polyItem) ↔
      c ∈ rowOf geometry maxNearbyDistance labels polyItem ∧ c.isInside = true := by
  obtain ⟨d, hreach⟩ := (contains_iff maxNearbyDistance).mp hin
  have hself : (⟨lbl, d, true⟩ : Candidate) ∈
      (rowOf geometry maxNearbyDistance labels polyItem).filter (·.isInside) := by
    refine List.mem_filter.mpr ⟨mem_rowOf.mpr ⟨lbl, hmem, ?_⟩, rfl⟩
    rw [candidateOf, hreach]
    rfl
  unfold poolOf
  dsimp only
  rw [if_neg (by simpa using List.ne_nil_of_mem hself), List.mem_filter]

theorem inside_mem_poolOf {lbl : PreparedLabel} (hmem : lbl ∈ labels)
    (hin : polyItem.Contains geometry lbl.point) :
    ∃ d, (⟨lbl, d, true⟩ : Candidate) ∈
      poolOf (rowOf geometry maxNearbyDistance labels polyItem) := by
  obtain ⟨d, hreach⟩ := (contains_iff maxNearbyDistance).mp hin
  refine ⟨d, (mem_poolOf_iff hmem hin).mpr ⟨mem_rowOf.mpr ⟨lbl, hmem, ?_⟩, rfl⟩⟩
  rw [candidateOf, hreach]
  rfl

theorem chosenLabel_oneText {i : ℕ} {lbl lbl' : PreparedLabel}
    (hpoly : polygons[i]? = some polyItem) (hmem : lbl ∈ labels) (hmem' : lbl' ∈ labels)
    (hin : polyItem.Contains geometry lbl.point) (hin' : polyItem.Contains geometry lbl'.point)
    (htext : lbl.text ≠ lbl'.text) :
    chosenLabel geometry maxNearbyDistance polygons labels i = none := by
  rw [chosenLabel, hpoly, Option.bind_some, Option.map_eq_none_iff, Option.eq_none_iff_forall_ne_some]
  intro c hc
  obtain ⟨d, hd⟩ := @inside_mem_poolOf geometry maxNearbyDistance labels polyItem _ hmem hin
  obtain ⟨d', hd'⟩ := @inside_mem_poolOf geometry maxNearbyDistance labels polyItem _ hmem' hin'
  exact htext ((mem_of_chosenCandidate hc).2.1 _ hd _ hd')

theorem chosenLabel_alone (hnodup : (labels.map PreparedLabel.index).Nodup) {i : ℕ}
    {lbl : PreparedLabel} (hpoly : polygons[i]? = some polyItem) (hmem : lbl ∈ labels)
    (hin : polyItem.Contains geometry lbl.point)
    (honly : ∀ j, ∀ other ∈ polygons[j]?, other.Contains geometry lbl.point → j = i)
    (halone : ∀ lbl' ∈ labels, polyItem.Contains geometry lbl'.point → lbl'.index = lbl.index) :
    chosenLabel geometry maxNearbyDistance polygons labels i = some lbl := by
  have hpool : ∀ c ∈ poolOf (rowOf geometry maxNearbyDistance labels polyItem),
      c.label = lbl ∧ c.isInside = true := by
    intro c hc
    obtain ⟨hrow, hinside⟩ := (mem_poolOf_iff hmem hin).mp hc
    obtain ⟨hlabel, hself⟩ := candidateOf_self hrow
    have hreach := (candidateOf_label hself).2
    rw [hinside] at hreach
    have hindex := halone c.label hlabel ((contains_iff maxNearbyDistance).mpr ⟨_, hreach⟩)
    exact ⟨List.inj_on_of_nodup_map hnodup hlabel hmem hindex, hinside⟩
  obtain ⟨d, hself⟩ := @inside_mem_poolOf geometry maxNearbyDistance labels polyItem _ hmem hin
  rw [chosenLabel, hpoly, Option.bind_some, chosenCandidate]
  cases hcases : poolOf (rowOf geometry maxNearbyDistance labels polyItem) with
  | nil => simp [hcases] at hself
  | cons first rest =>
    rw [hcases] at hpool
    have htexts : ¬ 1 < ((first :: rest).map (·.label.text)).dedup.length := by
      rw [length_dedup_le_one_iff]
      intro a ha b hb
      rw [(hpool a ha).1, (hpool b hb).1]
    obtain ⟨hbest, hinside⟩ := hpool _ (nearest_mem first rest)
    have hfree : ¬ contested geometry maxNearbyDistance polygons (nearest first rest) = true := by
      rw [contested_iff, hbest]
      rintro ⟨j, k, hjk, ⟨a, ha, r, hr, hra⟩, b, hb, r', hr', hrb⟩
      have hina := honly j a ha ((contains_iff maxNearbyDistance).mpr ⟨r.1, by
        rw [Option.mem_def.mp hr, ← hra hinside]⟩)
      have hinb := honly k b hb ((contains_iff maxNearbyDistance).mpr ⟨r'.1, by
        rw [Option.mem_def.mp hr', ← hrb hinside]⟩)
      omega
    dsimp only
    rw [if_neg htexts, if_neg hfree, Option.map_some, hbest]

/-- A binding returns when its labels can be prepared and placed, with every parcel resolved
against the rows of all. -/
theorem bindSurveyLabels_eq_ok {builtins : MapBuiltins} {labels : Value ℚ}
    {georefResult : Option GeoreferenceResult} {bound : List BoundParcel} (hne : polygons ≠ []) :
    bindSurveyLabels builtins polygons labels georefResult maxNearbyDistance = .ok bound ↔
      ∃ items prepared, labels.iterate = .ok items ∧
        prepareLabels builtins.toConversions builtins.operations georefResult 0 items = .ok prepared ∧
        (∀ polyItem ∈ polygons, ¬ polyItem.Ringless ∧ ∀ lbl ∈ prepared, ∀ coords ∈ polyItem.ring,
          ∃ place, placeOf builtins.toGeometry coords lbl.point = .ok place) ∧
        bound = polygons.map fun polyItem =>
          resolveBinding (polygons.map (rowOf builtins.toGeometry maxNearbyDistance prepared)) polyItem
            (rowOf builtins.toGeometry maxNearbyDistance prepared polyItem) := by
  have hresolved : ∀ prepared table,
      table = polygons.map (rowOf builtins.toGeometry maxNearbyDistance prepared) →
      polygons.zipWith (resolveBinding table) table = polygons.map fun polyItem =>
        resolveBinding (polygons.map (rowOf builtins.toGeometry maxNearbyDistance prepared)) polyItem
          (rowOf builtins.toGeometry maxNearbyDistance prepared polyItem) := by
    rintro prepared _ rfl
    rw [List.zipWith_map_right, List.zipWith_self]
  rw [bindSurveyLabels, if_neg hne]
  constructor
  · intro h
    obtain ⟨items, hitems, h⟩ := Raised.bind_eq_ok.mp h
    obtain ⟨prepared, hprepared, h⟩ := Raised.bind_eq_ok.mp h
    obtain ⟨table, htable, h⟩ := Raised.bind_eq_ok.mp h
    cases h
    obtain ⟨hplaced, hrows⟩ := candidateTable_eq_ok.mp htable
    exact ⟨items, prepared, liftM_eq_ok.mp hitems, liftM_eq_ok.mp hprepared, hplaced,
      hresolved prepared table hrows⟩
  · rintro ⟨items, prepared, hitems, hprepared, hplaced, rfl⟩
    refine Raised.bind_eq_ok.mpr ⟨items, liftM_eq_ok.mpr hitems, ?_⟩
    refine Raised.bind_eq_ok.mpr ⟨prepared, liftM_eq_ok.mpr hprepared, ?_⟩
    refine Raised.bind_eq_ok.mpr ⟨_, candidateTable_eq_ok.mpr ⟨hplaced, rfl⟩, ?_⟩
    rw [hresolved prepared _ rfl]
    rfl

theorem boundTo_resolveBinding (hnodup : (labels.map PreparedLabel.index).Nodup) :
    BoundTo labels ((chosenCandidate geometry maxNearbyDistance polygons labels polyItem).map
        Candidate.label) polyItem
      (resolveBinding (polygons.map (rowOf geometry maxNearbyDistance labels)) polyItem
        (rowOf geometry maxNearbyDistance labels polyItem)) := by
  have hlineage : (resolveBinding (polygons.map (rowOf geometry maxNearbyDistance labels)) polyItem
        (rowOf geometry maxNearbyDistance labels polyItem)).conflationLineageRef =
          polyItem.conflationLineageRef ∨
      ∃ lbl ∈ labels, (resolveBinding (polygons.map (rowOf geometry maxNearbyDistance labels))
        polyItem (rowOf geometry maxNearbyDistance labels polyItem)).conflationLineageRef =
          lbl.conflationLineageRef := by
    rw [resolveBinding]
    cases hpool : poolOf (rowOf geometry maxNearbyDistance labels polyItem) with
    | nil => exact .inl rfl
    | cons first rest =>
      have hbest := (candidateOf_self (poolOf_subset _ (hpool ▸ nearest_mem first rest))).1
      dsimp only
      split
      · exact .inl rfl
      · split
        · dsimp only [leftUnbound, Value.orElse]
          split
          · exact .inl rfl
          · exact .inr ⟨_, hbest, rfl⟩
        · dsimp only [Value.orElse]
          split
          · exact .inr ⟨_, hbest, rfl⟩
          · exact .inl rfl
  have hresult := @resolveBinding_eq geometry maxNearbyDistance polygons labels polyItem hnodup
  revert hlineage hresult
  generalize resolveBinding (polygons.map (rowOf geometry maxNearbyDistance labels)) polyItem
    (rowOf geometry maxNearbyDistance labels polyItem) = result
  intro hlineage hresult
  cases hchosen : chosenCandidate geometry maxNearbyDistance polygons labels polyItem with
  | some best =>
    rw [hchosen] at hresult
    refine ⟨?_, hlineage, ?_, by simp⟩
    · rw [hresult]
    · intro lbl hlbl
      obtain rfl := Option.some.inj hlbl
      rw [hresult]
      exact ⟨rfl, rfl, rfl, rfl⟩
  | none =>
    rw [hchosen] at hresult
    refine ⟨?_, hlineage, by simp, fun _ => ?_⟩
    · rw [hresult]
      rfl
    · rw [hresult]
      refine ⟨rfl, rfl, rfl, ?_⟩
      dsimp only [leftUnbound]
      split <;> decide

/-- Binding the labels of a page keeps its parcels in order, binds no label twice, leaves parcels
with several texts and labels in several parcels unbound, and binds a label that is alone in its
only parcel. -/
theorem bindSurveyLabels_exclusive {builtins : MapBuiltins} {polygons : List ParcelBoundary}
    {labels : Value ℚ} {georefResult : Option GeoreferenceResult} {maxNearbyDistance : ℚ}
    {bound : List BoundParcel}
    (h : bindSurveyLabels builtins polygons labels georefResult maxNearbyDistance = .ok bound) :
    ExclusiveBinding builtins.toGeometry polygons
      (preparedOf builtins.toConversions builtins.operations labels georefResult)
      (chosenLabel builtins.toGeometry maxNearbyDistance polygons
        (preparedOf builtins.toConversions builtins.operations labels georefResult)) bound := by
  by_cases hne : polygons = []
  · subst hne
    cases h
    have hnone : ∀ i, chosenLabel builtins.toGeometry maxNearbyDistance []
        (preparedOf builtins.toConversions builtins.operations labels georefResult) i = none := fun _ => rfl
    constructor <;> simp [hnone]
  · obtain ⟨items, prepared, hitems, hprepared, -, rfl⟩ := (bindSurveyLabels_eq_ok hne).mp h
    have hlabels : preparedOf builtins.toConversions builtins.operations labels georefResult = prepared := by
      rw [preparedOf, hitems, Raised.ok_bind, hprepared]
    rw [hlabels]
    have hnodup := nodup_index hprepared
    constructor
    · rw [List.length_map]
    · intro i polyItem result hpoly hresult
      rw [List.getElem?_map, hpoly, Option.map_some] at hresult
      obtain rfl := Option.some.inj hresult
      rw [chosenLabel, hpoly, Option.bind_some]
      exact boundTo_resolveBinding hnodup
    · intro i lbl hlbl
      obtain ⟨-, -, -, -, hmem, -⟩ := chosenLabel_eq_some hlbl
      exact hmem
    · intro i j lbl hlbl lbl' hlbl' hindex
      exact chosenLabel_once hnodup hlbl hlbl' hindex
    · intro i polyItem hpoly lbl hmem lbl' hmem' hin hin' htext
      exact chosenLabel_oneText hpoly hmem hmem' hin hin' htext
    · intro i lbl hlbl j k a b ha hb hina hinb
      exact chosenLabel_oneParcel hlbl ha hb hina hinb
    · intro i polyItem hpoly lbl hmem hin honly halone
      exact chosenLabel_alone hnodup hpoly hmem hin honly halone

def squareParcel (index : ℕ) (x : ℚ) : ParcelBoundary where
  parcelIndex := index
  boundaryId := .none
  isValid := true
  isBroken := false
  polygon := some ⟨"Polygon".toList,
    [[(x, 0), (x + 100, 0), (x + 100, 100), (x, 100), (x, 0)]]⟩
  pixelCoordinates := .none
  conflationLineageRef := .none
  validationReason := []

def pointLabel (text : String) (x y : ℚ) : Value ℚ :=
  .dict [("raw_value".toList, .text text.toList), ("x".toList, .number x), ("y".toList, .number y)]

theorem bindSurveyLabels_neighbours : ∃ bound,
    bindSurveyLabels planarBuiltins [squareParcel 1 0, squareParcel 2 200]
        (.list [pointLabel "12A" 50 50, pointLabel "12B" 250 50]) none 50 = .ok bound ∧
      bound.map (·.boundSurveyNo) = [some "12A".toList, some "12B".toList] ∧
      ExclusiveBinding planarBuiltins.toGeometry [squareParcel 1 0, squareParcel 2 200]
        (preparedOf planarBuiltins.toConversions planarBuiltins.operations
          (.list [pointLabel "12A" 50 50, pointLabel "12B" 250 50]) none)
        (chosenLabel planarBuiltins.toGeometry 50 [squareParcel 1 0, squareParcel 2 200]
          (preparedOf planarBuiltins.toConversions planarBuiltins.operations
            (.list [pointLabel "12A" 50 50, pointLabel "12B" 250 50]) none)) bound := by
  have hreturned : (bindSurveyLabels planarBuiltins [squareParcel 1 0, squareParcel 2 200]
      (.list [pointLabel "12A" 50 50, pointLabel "12B" 250 50]) none 50).map
        (List.map (·.boundSurveyNo)) = .ok [some "12A".toList, some "12B".toList] := by
    decide +kernel
  obtain ⟨bound, hrun, hnumbers⟩ := Raised.map_eq_ok.mp hreturned
  exact ⟨bound, hrun, hnumbers, bindSurveyLabels_exclusive hrun⟩

end LandRecords.Parcels
