import LandRecords.Base.Equality
import LandRecords.Extract.PageSequence

/-! What the merge keeps of the readings: their ids, the readings of each field, and the
distinct values among them. -/
namespace LandRecords.Extract

/-! ## Distinct values -/

structure ListsDistinct (values others : List (Value ℚ)) : Prop where
  among : ∀ v ∈ values, v ∈ others ∧ v.truthy = true
  covers : ∀ v ∈ others, v.truthy = true → ∃ w ∈ values, v.same w = true
  apart : values.Pairwise fun v w => v.same w = false

def addValue (values : List (Value ℚ)) (v : Value ℚ) : List (Value ℚ) :=
  if v.truthy && !listed values v then values ++ [v] else values

def TwoDistinct (values : List (Value ℚ)) : Prop :=
  ∃ v ∈ values, ∃ w ∈ values, v.truthy = true ∧ w.truthy = true ∧ v.same w = false

variable {values others : List (Value ℚ)}

theorem ListsDistinct.nil : ListsDistinct [] [] := ⟨by simp, by simp, .nil⟩

theorem ListsDistinct.addValue (h : ListsDistinct values others)
    (hproper : ∀ v ∈ others, v.Proper) {v : Value ℚ} (hv : v.Proper) :
    ListsDistinct (addValue values v) (others ++ [v]) := by
  have hlistedIff : listed values v = true ↔ ∃ w ∈ values, v.same w = true := List.any_eq_true
  unfold Extract.addValue
  split
  · rename_i hnew
    rw [Bool.and_eq_true, Bool.not_eq_true'] at hnew
    refine ⟨?_, ?_, ?_⟩
    · intro w hw
      rcases List.mem_append.mp hw with hold | hlast
      · exact ⟨List.mem_append_left _ (h.among w hold).1, (h.among w hold).2⟩
      · obtain rfl := List.mem_singleton.mp hlast
        exact ⟨List.mem_append_right _ hlast, hnew.1⟩
    · intro w hw htruthy
      rcases List.mem_append.mp hw with hold | hlast
      · obtain ⟨u, hu, hsame⟩ := h.covers w hold htruthy
        exact ⟨u, List.mem_append_left _ hu, hsame⟩
      · obtain rfl := List.mem_singleton.mp hlast
        exact ⟨w, List.mem_append_right _ hlast, Value.same_refl hv⟩
    · refine List.pairwise_append.mpr ⟨h.apart, List.pairwise_singleton _ _, fun w hw u hu => ?_⟩
      obtain rfl := List.mem_singleton.mp hu
      have hne : ¬ u.same w = true := by
        intro hsame
        rw [hlistedIff.mpr ⟨w, hw, hsame⟩] at hnew
        cases hnew.2
      rw [← Bool.not_eq_true]
      exact fun hsame => hne (Value.same_symm (hproper w (h.among w hw).1) hv hsame)
  · rename_i hold
    refine ⟨fun w hw => ⟨List.mem_append_left _ (h.among w hw).1, (h.among w hw).2⟩, ?_, h.apart⟩
    intro w hw htruthy
    rcases List.mem_append.mp hw with hmem | hlast
    · exact h.covers w hmem htruthy
    · obtain rfl := List.mem_singleton.mp hlast
      rw [htruthy, Bool.true_and, Bool.not_eq_true', Bool.not_eq_false] at hold
      exact hlistedIff.mp hold

theorem ListsDistinct.listedOnce (h : ListsDistinct values others)
    (hproper : ∀ v ∈ others, v.Proper) {v : Value ℚ} (hmem : v ∈ others) (htruthy : v.truthy = true) :
    (values.filter v.same).length = 1 := by
  obtain ⟨w, hw, hsame⟩ := h.covers v hmem htruthy
  obtain ⟨before, after, rfl⟩ := List.append_of_mem hw
  have hproperListed : ∀ u ∈ before ++ w :: after, u.Proper :=
    fun u hu => hproper u (h.among u hu).1
  have hother : ∀ u ∈ before ++ w :: after, (u.same w = false ∨ w.same u = false) →
      v.same u = false := by
    intro u hu hne
    rw [← Bool.not_eq_true]
    intro hvu
    have huw := Value.same_trans (hproperListed u hu) (hproper v hmem) (hproperListed w hw)
      (Value.same_symm (hproper v hmem) (hproperListed u hu) hvu) hsame
    rcases hne with hne | hne
    · rw [huw] at hne
      cases hne
    · rw [Value.same_symm (hproperListed u hu) (hproperListed w hw) huw] at hne
      cases hne
  obtain ⟨-, hafter, hbefore⟩ := List.pairwise_append.mp h.apart
  have hnoneBefore : before.filter v.same = [] := by
    refine List.filter_eq_nil_iff.mpr fun u hu => ?_
    rw [hother u (List.mem_append_left _ hu) (.inl (hbefore u hu w List.mem_cons_self))]
    exact Bool.false_ne_true
  have hnoneAfter : after.filter v.same = [] := by
    refine List.filter_eq_nil_iff.mpr fun u hu => ?_
    rw [hother u (List.mem_append_right _ (List.mem_cons_of_mem _ hu))
      (.inr ((List.pairwise_cons.mp hafter).1 u hu))]
    exact Bool.false_ne_true
  rw [List.filter_append, List.filter_cons_of_pos hsame, hnoneBefore, hnoneAfter]
  rfl

theorem ListsDistinct.two_iff (h : ListsDistinct values others)
    (hproper : ∀ v ∈ others, v.Proper) : 2 ≤ values.length ↔ TwoDistinct others := by
  constructor
  · intro hlength
    match values, h, hlength with
    | v :: w :: rest, h, _ =>
      have hv := h.among v List.mem_cons_self
      have hw := h.among w (List.mem_cons_of_mem _ List.mem_cons_self)
      exact ⟨v, hv.1, w, hw.1, hv.2, hw.2, (List.pairwise_cons.mp h.apart).1 w List.mem_cons_self⟩
  · rintro ⟨v, hv, w, hw, hvTruthy, hwTruthy, hne⟩
    by_contra hshort
    obtain ⟨u, hu, hvu⟩ := h.covers v hv hvTruthy
    obtain ⟨u', hu', hwu⟩ := h.covers w hw hwTruthy
    have hone : values.length = 1 := by
      have hpos := List.length_pos_of_mem hu
      omega
    obtain ⟨only, rfl⟩ := List.length_eq_one_iff.mp hone
    obtain rfl := List.mem_singleton.mp hu
    obtain rfl := List.mem_singleton.mp hu'
    have hsame := Value.same_trans (hproper v hv) (hproper u' (h.among u' hu').1) (hproper w hw) hvu
      (Value.same_symm (hproper w hw) (hproper u' (h.among u' hu').1) hwu)
    rw [hsame] at hne
    cases hne

theorem ListsDistinct.one_iff (h : ListsDistinct values others) :
    1 ≤ values.length ↔ ∃ v ∈ others, v.truthy = true := by
  constructor
  · intro hlength
    obtain ⟨v, hv⟩ := List.exists_mem_of_length_pos hlength
    exact ⟨v, h.among v hv⟩
  · rintro ⟨v, hv, htruthy⟩
    obtain ⟨w, hw, -⟩ := h.covers v hv htruthy
    exact List.length_pos_of_mem hw

/-! ## Fields by name -/

theorem same_hashed {v key : Value ℚ} (h : hashed key = .ok ()) : v.same key = true ↔ v = key := by
  cases key with
  | none => cases v <;> simp [Value.same]
  | number n => cases v <;> simp [Value.same, Numeric.eq]
  | text t => cases v <;> simp [Value.same]
  | list items => cases h
  | dict entries => cases h

variable {fields : List AssembledField} {name key : Value ℚ} {ext : Reading}

theorem field?_append (fields : List AssembledField) (field : AssembledField) (name : Value ℚ) :
    field? (fields ++ [field]) name =
      (field? fields name).or (if field.fieldName.same name then some field else none) := by
  rw [field?, List.find?_append, List.find?_singleton]
  rfl

theorem field?_update (hname : hashed name = .ok ()) :
    field? (updateField key ext fields) name = (field? fields name).map fun field =>
      if name.same key then addReading field ext else field := by
  have hkept : ∀ field : AssembledField,
      (if field.fieldName.same key then addReading field ext else field).fieldName =
        field.fieldName := by
    intro field
    split <;> rfl
  unfold field? updateField
  rw [List.find?_map]
  simp only [Function.comp_def, hkept]
  refine Option.map_congr fun field hfield => ?_
  have hsame : field.fieldName.same name = true := by simpa using List.find?_some hfield
  rw [(same_hashed hname).mp hsame]

def named (name : Value ℚ) (ext : Reading) : Bool :=
  (fieldNameOf ext).truthy && (fieldNameOf ext).same name

def mergedField : List Reading → Option AssembledField
  | [] => none
  | first :: rest => some (rest.foldl addReading (newField (fieldNameOf first) first))

theorem mergedField_concat (readings : List Reading) (ext : Reading) :
    mergedField (readings ++ [ext]) = some (match mergedField readings with
      | none => newField (fieldNameOf ext) ext
      | some field => addReading field ext) := by
  cases readings with
  | nil => rfl
  | cons first rest => simp [mergedField]

structure Merged (readings : List Reading) (merge : Merge) : Prop where
  ids : ListsDistinct merge.allExtractionIds (readings.map fun ext => ext.get "id".toList)
  fields : ∀ name, hashed name = .ok () →
    field? merge.assembledFields name = mergedField (readings.filter (named name))
  conflicts : merge.hasConflicts = true ↔ ∃ name, hashed name = .ok () ∧
    ∃ field, field? merge.assembledFields name = some field ∧ field.isConflicting = true

theorem Merged.empty (lines : List Text) : Merged [] { rationaleLines := lines } :=
  ⟨.nil, fun _ _ => rfl, iff_of_false Bool.false_ne_true fun ⟨_, _, _, h, _⟩ => nomatch h⟩

theorem proper_get (h : (Value.dict ext).Proper) (field : Text) : (ext.get field).Proper := by
  cases h with
  | dict _ hkeys hheld =>
    unfold Dict.get Dict.getD
    cases hlookup : ext.lookup field with
    | none => exact .none
    | some v => exact hheld _ (Grouping.mem_of_lookup hlookup)

theorem proper_canonVal (h : (Value.dict ext).Proper) : (canonVal ext).Proper := by
  unfold canonVal Value.orElse
  split
  · exact proper_get h _
  · exact proper_get h _

variable {builtins : Builtins} {readings : List Reading} {merge merge' : Merge} {page : Dict ℚ}

theorem mergeReading_fields (hstep : mergeReading builtins merge page ext = .ok merge') :
    merge'.allExtractionIds = addId merge.allExtractionIds ext ∧
      (∀ name, hashed name = .ok () → field? merge'.assembledFields name =
        if named name ext then
          some (match field? merge.assembledFields name with
            | none => newField (fieldNameOf ext) ext
            | some field => addReading field ext)
        else field? merge.assembledFields name) ∧
      (merge'.hasConflicts = true ↔ merge.hasConflicts = true ∨ ∃ name, hashed name = .ok () ∧
        named name ext = true ∧ ∃ field, field? merge.assembledFields name = some field ∧
        isNew field ext = true) := by
  unfold mergeReading at hstep
  dsimp only at hstep
  split at hstep
  · rename_i hunnamed
    cases hstep
    have hskipped : ∀ name, named name ext = false := by
      intro name
      rw [Bool.not_eq_true'] at hunnamed
      rw [named, hunnamed, Bool.false_and]
    exact ⟨rfl, fun name _ => by simp [hskipped], by simp [hskipped]⟩
  · rename_i hnamed
    have hnamedSame : ∀ name, named name ext = (fieldNameOf ext).same name := by
      intro name
      rw [named, (by simpa using hnamed : (fieldNameOf ext).truthy = true), Bool.true_and]
    obtain ⟨_, hkey, hstep⟩ := Raised.bind_eq_ok.mp hstep
    simp only [hnamedSame]
    split at hstep
    · rename_i hnone
      cases hstep
      refine ⟨rfl, fun name hname => ?_, ?_⟩
      · rw [field?_append]
        by_cases hsame : (fieldNameOf ext).same name = true
        · rw [← (same_hashed hname).mp hsame, hnone]
          simp [newField, (same_hashed hkey).mpr rfl]
        · simp [newField, hsame]
      · refine (or_iff_left ?_).symm
        rintro ⟨name, hname, hsame, field, hfield, -⟩
        rw [← (same_hashed hname).mp hsame] at hfield
        exact absurd (hnone.symm.trans hfield) (by simp)
    · rename_i field hfield
      cases hstep
      refine ⟨rfl, fun name hname => ?_, ?_⟩
      · rw [field?_update hname]
        by_cases hsame : (fieldNameOf ext).same name = true
        · rw [← (same_hashed hname).mp hsame, hfield]
          simp [(same_hashed hkey).mpr rfl]
        · have hother : ¬ name.same (fieldNameOf ext) = true := fun hback =>
            hsame ((same_hashed hname).mpr ((same_hashed hkey).mp hback).symm)
          simp [hsame, hother]
      · rw [Bool.or_eq_true]
        refine or_congr_right ⟨fun hnew => ?_, ?_⟩
        · exact ⟨_, hkey, (same_hashed hkey).mpr rfl, field, hfield, hnew⟩
        · rintro ⟨name, hname, hsame, other, hother, hnew⟩
          rw [← (same_hashed hname).mp hsame, hfield] at hother
          cases hother
          exact hnew

theorem Merged.step (h : Merged readings merge)
    (hproper : ∀ reading ∈ readings, (Value.dict reading).Proper) (hext : (Value.dict ext).Proper)
    (hstep : mergeReading builtins merge page ext = .ok merge') : Merged (readings ++ [ext]) merge' := by
  obtain ⟨hids, hfields, hconflicts⟩ := mergeReading_fields hstep
  refine ⟨?_, fun name hname => ?_, ?_⟩
  · rw [hids, List.map_append]
    refine h.ids.addValue (fun v hv => ?_) (proper_get hext _)
    obtain ⟨reading, hmem, rfl⟩ := List.mem_map.mp hv
    exact proper_get (hproper reading hmem) _
  · rw [hfields name hname, List.filter_append, List.filter_singleton, h.fields name hname]
    cases named name ext with
    | true => exact (mergedField_concat _ ext).symm
    | false => exact congrArg mergedField (List.append_nil _).symm
  · rw [hconflicts, h.conflicts]
    constructor
    · rintro (⟨name, hname, field, hfield, hconflict⟩ | ⟨name, hname, hnamed, field, hfield, hnew⟩)
      · refine ⟨name, hname, ?_⟩
        rw [hfields name hname, hfield]
        split
        · exact ⟨_, rfl, by simp [addReading, hconflict]⟩
        · exact ⟨_, rfl, hconflict⟩
      · refine ⟨name, hname, ?_⟩
        rw [hfields name hname, hfield, if_pos hnamed]
        exact ⟨_, rfl, by simp [addReading, hnew]⟩
    · rintro ⟨name, hname, field, hfield, hconflict⟩
      rw [hfields name hname] at hfield
      split at hfield
      · rename_i hnamed
        cases hold : field? merge.assembledFields name with
        | none =>
          rw [hold] at hfield
          cases hfield
          cases hconflict
        | some old =>
          rw [hold] at hfield
          cases hfield
          rcases (Bool.or_eq_true ..).mp hconflict with hbefore | hnew
          · exact .inl ⟨name, hname, old, hold, hbefore⟩
          · exact .inr ⟨name, hname, hnamed, old, hold, hnew⟩
      · exact .inl ⟨name, hname, field, hfield, hconflict⟩

theorem merged_run {steps : List (Dict ℚ × Reading)} (h : Merged readings merge)
    (hproper : ∀ reading ∈ readings ++ steps.map Prod.snd, (Value.dict reading).Proper)
    (hrun : mergeReadings builtins merge steps = .ok merge') :
    Merged (readings ++ steps.map Prod.snd) merge' := by
  induction steps generalizing readings merge with
  | nil =>
    cases hrun
    simpa using h
  | cons visit steps ih =>
    obtain ⟨next, hstep, hrun⟩ := Raised.bind_eq_ok.mp hrun
    have hnext := h.step (fun reading hmem => hproper reading (List.mem_append_left _ hmem))
      (hproper visit.2 (by simp)) hstep
    rw [List.map_cons, List.append_cons] at hproper ⊢
    exact ih hnext hproper hrun

def listedFirst : List Reading → ℕ
  | [] => 0
  | first :: _ => if (canonVal first).truthy then 1 else 0

structure FieldOf (readings : List Reading) (field : AssembledField) : Prop where
  sources : field.sourceExtractions = readings
  values : ListsDistinct field.conflictingValues (readings.map canonVal)
  marked : field.isConflicting = true ↔ listedFirst readings < field.conflictingValues.length

theorem fieldOf_newField (ext : Reading) (hext : (Value.dict ext).Proper) :
    FieldOf [ext] (newField (fieldNameOf ext) ext) := by
  have hvalues : (newField (fieldNameOf ext) ext).conflictingValues = addValue [] (canonVal ext) := by
    simp [newField, addValue, listed]
  refine ⟨rfl, ?_, ?_⟩
  · rw [hvalues]
    exact ListsDistinct.nil.addValue (fun _ hmem => nomatch hmem) (proper_canonVal hext)
  · simp only [newField, listedFirst]
    split <;> simp

theorem FieldOf.listedFirst_le {field : AssembledField} (h : FieldOf readings field) :
    listedFirst readings ≤ field.conflictingValues.length := by
  cases readings with
  | nil => exact Nat.zero_le _
  | cons first rest =>
    by_cases htruthy : (canonVal first).truthy = true
    · simp only [listedFirst, htruthy, if_true]
      exact h.values.one_iff.mpr ⟨canonVal first, by simp, htruthy⟩
    · simp [listedFirst, htruthy]

theorem FieldOf.addReading {field : AssembledField} (h : FieldOf readings field)
    (hne : readings ≠ []) (hproper : ∀ reading ∈ readings, (Value.dict reading).Proper)
    (hext : (Value.dict ext).Proper) : FieldOf (readings ++ [ext]) (addReading field ext) := by
  have hvalues : (Extract.addReading field ext).conflictingValues =
      addValue field.conflictingValues (canonVal ext) := rfl
  refine ⟨?_, ?_, ?_⟩
  · simp [Extract.addReading, h.sources]
  · rw [hvalues, List.map_append]
    refine h.values.addValue (fun v hv => ?_) (proper_canonVal hext)
    obtain ⟨reading, hmem, rfl⟩ := List.mem_map.mp hv
    exact proper_canonVal (hproper reading hmem)
  · have hfirst : listedFirst (readings ++ [ext]) = listedFirst readings := by
      obtain ⟨first, rest, rfl⟩ := List.exists_cons_of_ne_nil hne
      rfl
    have hle := h.listedFirst_le
    rw [hfirst]
    simp only [Extract.addReading, Bool.or_eq_true, h.marked]
    by_cases hnew : isNew field ext = true
    · simp only [hnew, or_true, if_true, List.length_append, List.length_singleton, true_iff]
      omega
    · simp [hnew]

theorem fieldOf_mergedField {field : AssembledField}
    (hproper : ∀ reading ∈ readings, (Value.dict reading).Proper)
    (h : mergedField readings = some field) : readings ≠ [] ∧ FieldOf readings field := by
  induction readings using List.reverseRecOn generalizing field with
  | nil => cases h
  | append_singleton readings ext ih =>
    rw [List.forall_mem_append] at hproper
    have hext := hproper.2 ext (List.mem_singleton_self ext)
    refine ⟨by simp, ?_⟩
    rw [mergedField_concat] at h
    cases hbefore : mergedField readings with
    | none =>
      rw [hbefore] at h
      cases h
      have hempty : readings = [] := by
        cases readings with
        | nil => rfl
        | cons first rest => cases hbefore
      subst hempty
      exact fieldOf_newField ext hext
    | some before =>
      rw [hbefore] at h
      cases h
      obtain ⟨hne, hfield⟩ := ih hproper.1 hbefore
      exact hfield.addReading hne hproper.1 hext

/-! ## Conflicts -/

def EmptyFirst (values : List (Value ℚ)) : Prop :=
  (∃ v ∈ values.head?, v.truthy = false) ∧ (∃ v ∈ values, v.truthy = true) ∧ ¬ TwoDistinct values

/-- The mark of a field says that two of its values differ, unless its first value is empty
and there is one other value. -/
theorem FieldOf.marked_iff {field : AssembledField} (h : FieldOf readings field)
    (hne : readings ≠ []) (hproper : ∀ reading ∈ readings, (Value.dict reading).Proper) :
    (field.isConflicting = true ↔ TwoDistinct (readings.map canonVal)) ↔
      ¬ EmptyFirst (readings.map canonVal) := by
  have hvalues : ∀ v ∈ readings.map canonVal, v.Proper := by
    intro v hv
    obtain ⟨reading, hmem, rfl⟩ := List.mem_map.mp hv
    exact proper_canonVal (hproper reading hmem)
  rw [h.marked, EmptyFirst, ← h.values.two_iff hvalues, ← h.values.one_iff]
  obtain ⟨first, rest, rfl⟩ := List.exists_cons_of_ne_nil hne
  cases htruthy : (canonVal first).truthy with
  | true => simp [listedFirst, htruthy, Nat.lt_iff_add_one_le]
  | false =>
    simp only [listedFirst, htruthy, List.map_cons, List.head?_cons, Option.mem_some_iff,
      exists_eq_left']
    grind

/-- The marks, the flag of the record and the listed values say exactly which values differ. -/
structure FlaggedExactly (result : AssembledRecordResult) : Prop where
  marked : ∀ name field, hashed name = .ok () →
    field? result.assembledFields name = some field →
    (field.isConflicting = true ↔ TwoDistinct (field.sourceExtractions.map canonVal))
  hasConflicts : result.hasConflicts = true ↔ ∃ name, hashed name = .ok () ∧
    ∃ field, field? result.assembledFields name = some field ∧ field.isConflicting = true
  listed : ∀ name field, hashed name = .ok () →
    field? result.assembledFields name = some field →
    (∀ v ∈ field.conflictingValues, v ∈ field.sourceExtractions.map canonVal ∧ v.truthy = true) ∧
      ∀ v ∈ field.sourceExtractions.map canonVal, v.truthy = true →
        (field.conflictingValues.filter v.same).length = 1

def SameMarks (result result' : AssembledRecordResult) : Prop :=
  ∀ name, hashed name = .ok () → (field? result.assembledFields name).map (·.isConflicting) =
    (field? result'.assembledFields name).map (·.isConflicting)

/-- No name has an empty first reading and a single value. -/
def NoEmptyFirst (readings : List Reading) : Prop :=
  ∀ name, hashed name = .ok () → ¬ EmptyFirst ((readings.filter (named name)).map canonVal)

theorem noEmptyFirst_of_truthy {readings : List Reading}
    (h : ∀ reading ∈ readings, (canonVal reading).truthy = true) : NoEmptyFirst readings := by
  intro name _ hempty
  obtain ⟨⟨v, hv, hfalsy⟩, -⟩ := hempty
  obtain ⟨reading, hreading, rfl⟩ := List.mem_map.mp (List.mem_of_mem_head? hv)
  rw [h reading (List.mem_of_mem_filter hreading)] at hfalsy
  cases hfalsy

def readingsIn (groups : List PageGroup) : List Reading := groups.flatMap Prod.snd

theorem visits_readings (groups : List PageGroup) : (visits groups).map Prod.snd = readingsIn groups := by
  simp [visits, readingsIn, List.map_flatMap, Function.comp_def]

theorem assemble_merged {extractions : Extractions}
    {recordId strategy rationaleOverride : Option Text} {actor : Text}
    {pagesMetadata : List (Dict ℚ)} {sorted : List PageGroup} {result : AssembledRecordResult}
    (hsorted : sortedGroups builtins extractions pagesMetadata = .ok sorted)
    (hresult : assembleMultiPageRecord builtins extractions recordId strategy rationaleOverride
      actor pagesMetadata = .ok result)
    (hproper : ∀ reading ∈ readingsIn sorted, (Value.dict reading).Proper) :
    ∃ merge, Merged (readingsIn sorted) merge ∧
      result.assemblyContract.extractionIds = merge.allExtractionIds ∧
      result.assembledFields = merge.assembledFields ∧
      result.hasConflicts = merge.hasConflicts := by
  unfold assembleMultiPageRecord at hresult
  rw [hsorted, Raised.ok_bind] at hresult
  obtain ⟨scan, -, hresult⟩ := Raised.bind_eq_ok.mp hresult
  obtain ⟨strategy, -, hresult⟩ := Raised.bind_eq_ok.mp hresult
  obtain ⟨merge, hmerge, hresult⟩ := Raised.bind_eq_ok.mp hresult
  cases hresult
  rw [← visits_readings] at hproper ⊢
  exact ⟨merge, merged_run (.empty _) hproper hmerge, rfl, rfl, rfl⟩

theorem mergedField_none (h : mergedField readings = none) : readings = [] := by
  cases readings with
  | nil => rfl
  | cons first rest => cases h

theorem Merged.field (h : Merged readings merge)
    (hproper : ∀ reading ∈ readings, (Value.dict reading).Proper) (hname : hashed name = .ok ())
    {field : AssembledField} (hfield : field? merge.assembledFields name = some field) :
    readings.filter (named name) ≠ [] ∧ FieldOf (readings.filter (named name)) field := by
  rw [h.fields name hname] at hfield
  exact fieldOf_mergedField (fun reading hmem => hproper reading (List.mem_of_mem_filter hmem)) hfield

theorem Merged.marked_iff (h : Merged readings merge)
    (hproper : ∀ reading ∈ readings, (Value.dict reading).Proper) (hname : hashed name = .ok ())
    {field : AssembledField} (hfield : field? merge.assembledFields name = some field) :
    (field.isConflicting = true ↔ TwoDistinct ((readings.filter (named name)).map canonVal)) ↔
      ¬ EmptyFirst ((readings.filter (named name)).map canonVal) := by
  obtain ⟨hne, hof⟩ := h.field hproper hname hfield
  exact hof.marked_iff hne fun reading hmem => hproper reading (List.mem_of_mem_filter hmem)

theorem Merged.unread (h : Merged readings merge) (hname : hashed name = .ok ())
    (hfield : field? merge.assembledFields name = none) : readings.filter (named name) = [] :=
  mergedField_none ((h.fields name hname).symm.trans hfield)

theorem EmptyFirst.ne_nil {values : List (Value ℚ)} (h : EmptyFirst values) : values ≠ [] := by
  rintro rfl
  obtain ⟨⟨_, hhead, -⟩, -⟩ := h
  cases hhead

/-- The marks of a merge are exact if and only if no name has an empty first reading and a
single value. -/
theorem Merged.marks_iff (h : Merged readings merge)
    (hproper : ∀ reading ∈ readings, (Value.dict reading).Proper) :
    (∀ name field, hashed name = .ok () → field? merge.assembledFields name = some field →
      (field.isConflicting = true ↔ TwoDistinct (field.sourceExtractions.map canonVal))) ↔
      NoEmptyFirst readings := by
  constructor
  · intro hmarks name hname hempty
    cases hfield : field? merge.assembledFields name with
    | none =>
      rw [h.unread hname hfield] at hempty
      exact hempty.ne_nil rfl
    | some field =>
      have hmark := hmarks name field hname hfield
      rw [(h.field hproper hname hfield).2.sources] at hmark
      exact (h.marked_iff hproper hname hfield).mp hmark hempty
  · intro hnone name field hname hfield
    rw [(h.field hproper hname hfield).2.sources]
    exact (h.marked_iff hproper hname hfield).mpr (hnone name hname)

theorem TwoDistinct.perm {values values' : List (Value ℚ)} (hperm : values.Perm values') :
    TwoDistinct values ↔ TwoDistinct values' := by
  unfold TwoDistinct
  simp only [hperm.mem_iff]

theorem Merged.sameMarks {readings' : List Reading} {mergeB : Merge} (h : Merged readings merge)
    (h' : Merged readings' mergeB) (hperm : readings'.Perm readings)
    (hproper : ∀ reading ∈ readings, (Value.dict reading).Proper)
    (hnone : NoEmptyFirst readings) : NoEmptyFirst readings' ↔
      ∀ name, hashed name = .ok () →
        (field? merge.assembledFields name).map (·.isConflicting) =
          (field? mergeB.assembledFields name).map (·.isConflicting) := by
  have hproper' : ∀ reading ∈ readings', (Value.dict reading).Proper :=
    fun reading hmem => hproper reading (hperm.mem_iff.mp hmem)
  have hfilter : ∀ name, (readings'.filter (named name)).Perm (readings.filter (named name)) :=
    fun name => hperm.filter _
  have hexact := (h.marks_iff hproper).mpr hnone
  constructor
  · intro hnone' name hname
    cases hfield : field? merge.assembledFields name with
    | none =>
      have hunread := hfilter name
      rw [h.unread hname hfield, List.perm_nil] at hunread
      rw [h'.fields name hname, hunread]
      rfl
    | some field =>
      cases hfield' : field? mergeB.assembledFields name with
      | none =>
        have hunread := hfilter name
        rw [h'.unread hname hfield', List.nil_perm] at hunread
        exact absurd hunread (h.field hproper hname hfield).1
      | some field' =>
        have hmark := (h.marked_iff hproper hname hfield).mpr (hnone name hname)
        have hmark' := (h'.marked_iff hproper' hname hfield').mpr (hnone' name hname)
        rw [TwoDistinct.perm ((hfilter name).map canonVal)] at hmark'
        exact congrArg some (Bool.eq_iff_iff.mpr (hmark.trans hmark'.symm))
  · intro hsame
    refine (h'.marks_iff hproper').mp fun name field' hname hfield' => ?_
    have hmarks := hsame name hname
    cases hfield : field? merge.assembledFields name with
    | none =>
      rw [hfield, hfield'] at hmarks
      cases hmarks
    | some field =>
      rw [hfield, hfield'] at hmarks
      have hmark := hexact name field hname hfield
      rw [(h.field hproper hname hfield).2.sources,
        ← TwoDistinct.perm ((hfilter name).map canonVal)] at hmark
      have hmarkSame : field.isConflicting = field'.isConflicting := Option.some.inj hmarks
      rw [(h'.field hproper' hname hfield').2.sources, ← hmarkSame]
      exact hmark

/-- The conflicts of a record are flagged exactly, and flagged alike when its readings come in
another order, if and only if in neither order a field has an empty first reading and a single
value. -/
theorem flaggedExactly_iff_noEmptyFirst (builtins builtins' : Builtins)
    {extractions extractions' : Extractions}
    {recordId strategy rationaleOverride recordId' strategy' rationaleOverride' : Option Text}
    {actor actor' : Text} {pagesMetadata pagesMetadata' : List (Dict ℚ)}
    {sorted sorted' : List PageGroup} {result result' : AssembledRecordResult}
    (hsorted : sortedGroups builtins extractions pagesMetadata = .ok sorted)
    (hsorted' : sortedGroups builtins' extractions' pagesMetadata' = .ok sorted')
    (hresult : assembleMultiPageRecord builtins extractions recordId strategy rationaleOverride
      actor pagesMetadata = .ok result)
    (hresult' : assembleMultiPageRecord builtins' extractions' recordId' strategy'
      rationaleOverride' actor' pagesMetadata' = .ok result')
    (hproper : ∀ reading ∈ readingsIn sorted, (Value.dict reading).Proper)
    (hperm : (readingsIn sorted').Perm (readingsIn sorted)) :
    (FlaggedExactly result ∧ SameMarks result result') ↔
      NoEmptyFirst (readingsIn sorted) ∧ NoEmptyFirst (readingsIn sorted') := by
  have hproper' : ∀ reading ∈ readingsIn sorted', (Value.dict reading).Proper :=
    fun reading hmem => hproper reading (hperm.mem_iff.mp hmem)
  obtain ⟨merge, hmerged, -, hfields, hconflicts⟩ := assemble_merged hsorted hresult hproper
  obtain ⟨mergeB, hmergedB, -, hfieldsB, -⟩ := assemble_merged hsorted' hresult' hproper'
  have hmarks := hmerged.marks_iff hproper
  constructor
  · rintro ⟨hflagged, hsame⟩
    have hnone : NoEmptyFirst (readingsIn sorted) := by
      refine hmarks.mp fun name field hname hfield => ?_
      exact hflagged.marked name field hname (hfields ▸ hfield)
    refine ⟨hnone, (hmerged.sameMarks hmergedB hperm hproper hnone).mpr fun name hname => ?_⟩
    rw [← hfields, ← hfieldsB]
    exact hsame name hname
  · rintro ⟨hnone, hnone'⟩
    refine ⟨⟨?_, ?_, ?_⟩, fun name hname => ?_⟩
    · rw [hfields]
      exact hmarks.mpr hnone
    · rw [hconflicts, hfields]
      exact hmerged.conflicts
    · intro name field hname hfield
      rw [hfields] at hfield
      have hof := (hmerged.field hproper hname hfield).2
      rw [hof.sources]
      refine ⟨hof.values.among, fun v hv htruthy => ?_⟩
      refine hof.values.listedOnce (fun w hw => ?_) hv htruthy
      obtain ⟨reading, hmem, rfl⟩ := List.mem_map.mp hw
      exact proper_canonVal (hproper reading (List.mem_of_mem_filter hmem))
    · rw [hfields, hfieldsB]
      exact (hmerged.sameMarks hmergedB hperm hproper hnone).mp hnone' name hname

def sampleReading (id fieldName rawValue : String) : Reading :=
  [("id".toList, .text id.toList), ("field_name".toList, .text fieldName.toList),
    ("raw_value".toList, .text rawValue.toList)]

def assembledFlat (items : List Reading) : Except Raised AssembledRecordResult :=
  assembleMultiPageRecord sampleBuiltins (.flat items) none none none "system".toList []

theorem sampleReading_proper (id fieldName rawValue : String) :
    (Value.dict (sampleReading id fieldName rawValue)).Proper := by
  refine .dict _ (by simp [sampleReading]) ?_
  simp only [sampleReading, List.forall_mem_cons, List.not_mem_nil, false_imp_iff, implies_true,
    and_true]
  exact ⟨.text _, .text _, .text _⟩

def ownerReadings : List Reading :=
  [sampleReading "1" "owner_name" "Asha", sampleReading "2" "owner_name" "Ravi"]

theorem flaggedExactly_ownerReadings : ∃ result result',
    assembledFlat ownerReadings = .ok result ∧
    assembledFlat ownerReadings.reverse = .ok result' ∧
    FlaggedExactly result ∧ SameMarks result result' := by
  have hproper : ∀ reading ∈ readingsIn [(numbered 0 defaultPage, ownerReadings)],
      (Value.dict reading).Proper := by
    intro reading hmem
    obtain rfl | rfl := (by simpa [readingsIn, ownerReadings] using hmem)
    · exact sampleReading_proper ..
    · exact sampleReading_proper ..
  have hreturned : (assembledFlat ownerReadings).map (fun _ => ()) = .ok () := by decide +kernel
  have hreturned' : (assembledFlat ownerReadings.reverse).map (fun _ => ()) = .ok () := by
    decide +kernel
  obtain ⟨result, hresult, -⟩ := Raised.map_eq_ok.mp hreturned
  obtain ⟨result', hresult', -⟩ := Raised.map_eq_ok.mp hreturned'
  have hread : NoEmptyFirst (readingsIn [(numbered 0 defaultPage, ownerReadings)]) :=
    noEmptyFirst_of_truthy (by decide +kernel)
  have hreadReversed : NoEmptyFirst
      (readingsIn [(numbered 0 defaultPage, ownerReadings.reverse)]) :=
    noEmptyFirst_of_truthy (by decide +kernel)
  exact ⟨result, result', hresult, hresult', (flaggedExactly_iff_noEmptyFirst sampleBuiltins
    sampleBuiltins (by with_unfolding_all rfl) (by with_unfolding_all rfl) hresult hresult' hproper
    (by simp [readingsIn, List.reverse_perm])).mpr ⟨hread, hreadReversed⟩⟩

def unreadOwner : Reading := sampleReading "1" "owner_name" ""

def readOwner : Reading := sampleReading "2" "owner_name" "Asha"

def marks (result : AssembledRecordResult) : Bool × List (Bool × ℕ) :=
  (result.hasConflicts, result.assembledFields.map fun field =>
    (field.isConflicting, field.conflictingValues.length))

/-- A reading without a value makes the only value of a field a conflict if it comes first, and
none if it comes second. -/
theorem emptyFirst_marked :
    (assembledFlat [unreadOwner, readOwner]).map marks = .ok (true, [(true, 1)]) ∧
      (assembledFlat [readOwner, unreadOwner]).map marks = .ok (false, [(false, 1)]) := by
  decide +kernel

end LandRecords.Extract
