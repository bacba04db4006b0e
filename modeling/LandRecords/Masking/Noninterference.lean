import LandRecords.Base.Rows
import LandRecords.Masking.Views

/-! Personal data does not reach a masked reader. What a database holds of it is erased,
`None` staying `None`, and both routes are shown to answer from what is left. -/
namespace LandRecords.Masking

open Audit (isTruthy)
open Datetime Fallible
open Review (cropUrlTtlSeconds)

section Erasure

variable {ν : Type}

/-- Another value in the place of a value, and `None` in the place of `None`. -/
def eraseText (value : Option Text) : Option Text := value.map fun _ => []

def Extraction.erased (extraction : Extraction ν) : Extraction ν :=
  if isPersonalData extraction.fieldName then
    { extraction with rawValue := [], canonicalValue := eraseText extraction.canonicalValue }
  else extraction

def Correction.erased (correction : Correction) : Correction :=
  { correction with
    predicted := eraseText correction.predicted
    corrected := eraseText correction.corrected }

def Page.erased (page : Page) : Page := { page with storageUri := eraseText page.storageUri }

namespace Database

variable (db : Database ν)

def isPersonal (extractionId : Text) : Bool :=
  (db.extraction? extractionId).any fun extraction => isPersonalData extraction.fieldName

def isPersonalImage (page : Page) : Bool :=
  db.extractions.any fun extraction =>
    decide (extraction.pageId = page.id) && isPersonalData extraction.fieldName

/-- The same, where no extraction of another field class has a bounding box on the page. -/
def isPersonalOnlyImage (page : Page) : Bool :=
  db.isPersonalImage page && db.extractions.all fun extraction =>
    isPersonalData extraction.fieldName || decide (extraction.pageId ≠ page.id) ||
      !isNotNone extraction.bbox

/-- The database without the personal data, and without the images that are given. -/
def erased (erases : Page → Bool) : Database ν where
  pages := db.pages.map fun page => if erases page then page.erased else page
  extractions := db.extractions.map Extraction.erased
  records := db.records
  assemblies := db.assemblies
  corrections := db.corrections.map fun correction =>
    if db.isPersonal correction.extractionId then correction.erased else correction
  provenances := db.provenances

end Database

end Erasure

section Erased

variable {ν : Type} {db : Database ν} {erases : Page → Bool}

@[simp] theorem map_eraseText (value : Option Text) :
    (eraseText value).map (fun _ => maskToken) = value.map fun _ => maskToken := by
  cases value with
  | none => rfl
  | some text => rfl

theorem Extraction.erased_eq (extraction : Extraction ν) : ∃ rawValue canonicalValue,
    extraction.erased =
      { extraction with rawValue := rawValue, canonicalValue := canonicalValue } := by
  unfold Extraction.erased
  split
  · exact ⟨_, _, rfl⟩
  · exact ⟨extraction.rawValue, extraction.canonicalValue, rfl⟩

theorem Extraction.erased_id (extraction : Extraction ν) : extraction.erased.id = extraction.id := by
  obtain ⟨rawValue, canonicalValue, herased⟩ := extraction.erased_eq
  rw [herased]

theorem extraction?_erased (db : Database ν) (erases : Page → Bool) (id : Text) :
    (db.erased erases).extraction? id = (db.extraction? id).map Extraction.erased :=
  Rows.find?_map_key Extraction.erased_id db.extractions id

theorem page?_erased (id : Text) : (db.erased erases).page? id =
    (db.page? id).map fun page => if erases page then page.erased else page := by
  refine Rows.find?_map_key (fun page => ?_) db.pages id
  split <;> rfl

theorem mem_of_extraction? {id : Text} {extraction : Extraction ν}
    (h : db.extraction? id = some extraction) : extraction ∈ db.extractions ∧ extraction.id = id :=
  ⟨List.mem_of_find?_eq_some h, Rows.find?_key h⟩

theorem isPersonal_of_extraction? {id : Text} {extraction : Extraction ν}
    (h : db.extraction? id = some extraction) :
    db.isPersonal id = isPersonalData extraction.fieldName := by
  rw [Database.isPersonal, h, Option.any_some]

end Erased

section Policy

variable {value rawValue cropUri : Option Text} {fieldClass role : Text}

theorem apply_personal (hrole : role ∉ rolesThatSeePersonalDataUnmasked)
    (hpersonal : isPersonalData fieldClass = true) : apply value rawValue cropUri fieldClass role =
      ⟨value.map fun _ => maskToken, rawValue.map fun _ => maskToken, none, true⟩ := by
  simp [apply, hpersonal, hrole]

theorem maskEditHistoryEntry_erased (hrole : role ∉ rolesThatSeePersonalDataUnmasked)
    (hpersonal : isPersonalData fieldClass = true) (zone : Zone) (correction : Correction) :
    maskEditHistoryEntry (.ofCorrection zone correction.erased) fieldClass role =
      maskEditHistoryEntry (.ofCorrection zone correction) fieldClass role := by
  simp [maskEditHistoryEntry, apply_personal hrole hpersonal, EditHistoryEntry.ofCorrection,
    Correction.erased]

end Policy

section RecordView

variable {ν : Type} {signGet : Text → ℕ → Except Raised Text} {repr : Value ν → Text} {role : Text}
  {db : Database ν} {extraction : Extraction ν} {dict : ContractDict ν}

theorem maskExtractionForRole_personal (hrole : role ∉ rolesThatSeePersonalDataUnmasked)
    (hpersonal : isPersonalData dict.fieldName = true) :
    maskExtractionForRole signGet repr role dict = pure ⟨dict.id, dict.pageId, dict.fieldName,
      dict.canonicalValue.map fun _ => maskToken, dict.rawValue.map fun _ => maskToken, none,
      dict.entryStatus, true⟩ := by
  simp only [maskExtractionForRole, hpersonal, hrole, apply_personal hrole hpersonal]
  rfl

theorem maskExtractionForRole_noBbox (dict : ContractDict ν) (hbbox : isNotNone dict.bbox = false)
    (uri : Option Text) :
    maskExtractionForRole signGet repr role { dict with pageStorageUri := uri } =
      maskExtractionForRole signGet repr role dict := by
  simp [maskExtractionForRole, hbbox]

theorem maskExtractionForRole_erased (hrole : role ∉ rolesThatSeePersonalDataUnmasked)
    (hextraction : extraction ∈ db.extractions) :
    maskExtractionForRole signGet repr role (extraction.erased.toContractDict
        ((db.erased db.isPersonalOnlyImage).page? extraction.erased.pageId)) =
      maskExtractionForRole signGet repr role
        (extraction.toContractDict (db.page? extraction.pageId)) := by
  cases hpersonal : isPersonalData extraction.fieldName with
  | true =>
    have herased : extraction.erased = { extraction with
        rawValue := [], canonicalValue := eraseText extraction.canonicalValue } := by
      rw [Extraction.erased, if_pos hpersonal]
    rw [herased, maskExtractionForRole_personal hrole (by exact hpersonal),
      maskExtractionForRole_personal hrole (by exact hpersonal)]
    simp [Extraction.toContractDict]
  | false =>
    have herased : extraction.erased = extraction := by
      rw [Extraction.erased, hpersonal]
      rfl
    rw [herased, page?_erased]
    cases hpage : db.page? extraction.pageId with
    | none => rfl
    | some page =>
      cases hhidden : db.isPersonalOnlyImage page with
      | false => simp [hhidden]
      | true =>
        have hsame : extraction.pageId = page.id := (Rows.find?_key hpage).symm
        have hall := (Bool.and_eq_true_iff.mp hhidden).2
        have hbbox := List.all_eq_true.mp hall extraction hextraction
        simp only [hpersonal, hsame, ne_eq, not_true_eq_false, decide_false, Bool.false_or,
          Bool.not_eq_true'] at hbbox
        exact maskExtractionForRole_noBbox (extraction.toContractDict (some page)) hbbox _

theorem maskExtractions_filterMap {dictOf dictOf' : Text → Option (ContractDict ν)}
    (ids : List Text) (h : ∀ id, (dictOf id).map (maskExtractionForRole signGet repr role) =
      (dictOf' id).map (maskExtractionForRole signGet repr role)) :
    maskExtractions signGet repr role (ids.filterMap dictOf) =
      maskExtractions signGet repr role (ids.filterMap dictOf') := by
  induction ids with
  | nil => rfl
  | cons id rest ih =>
    have hid := h id
    rw [List.filterMap_cons, List.filterMap_cons]
    cases hdict : dictOf id with
    | none =>
      rw [hdict, Option.map_none, eq_comm, Option.map_eq_none_iff] at hid
      rw [hid]
      exact ih
    | some dict =>
      rw [hdict, Option.map_some, eq_comm, Option.map_eq_some_iff] at hid
      obtain ⟨dict', hdict', hsame⟩ := hid
      rw [hdict']
      simp only [maskExtractions, hsame, ih]

theorem getRecord_erased (hrole : role ∉ rolesThatSeePersonalDataUnmasked) (recordGroupId : Text)
    (version : Option ℤ) :
    getRecord signGet repr (db.erased db.isPersonalOnlyImage) role recordGroupId version =
      getRecord signGet repr db role recordGroupId version := by
  have hfields : maskExtractions signGet repr role
      (recordExtractions (db.erased db.isPersonalOnlyImage) recordGroupId) =
        maskExtractions signGet repr role (recordExtractions db recordGroupId) := by
    refine maskExtractions_filterMap _ fun id => ?_
    rw [extraction?_erased]
    cases hfound : db.extraction? id with
    | none => rfl
    | some extraction =>
      exact congrArg some (maskExtractionForRole_erased hrole (mem_of_extraction? hfound).1)
  have hrecord : selectRecord (db.erased db.isPersonalOnlyImage) recordGroupId version =
      selectRecord db recordGroupId version := rfl
  simp only [getRecord, hrecord, buildMaskedRecordView, hfields]

def SignsNoPersonal (db : Database ν) (signed : List SignedCrop) : Prop :=
  ∀ crop ∈ signed, db.isPersonal crop.extractionId = false

theorem signCrop_signsNoPersonal {extractionId key : Text}
    (h : db.isPersonal extractionId = false) :
    Preserves (SignsNoPersonal db) (signCrop signGet extractionId key) := by
  intro signed hsigned
  have hmore : SignsNoPersonal db (signed ++ [⟨extractionId, key⟩]) := by
    intro crop hcrop
    rcases List.mem_append.mp hcrop with hcrop | hcrop
    · exact hsigned crop hcrop
    · rw [List.mem_singleton.mp hcrop, h]
  unfold signCrop
  cases signGet key cropUrlTtlSeconds with
  | ok url => exact hmore
  | error error => exact hmore

theorem maskExtractionForRole_signsNoPersonal (hrole : role ∉ rolesThatSeePersonalDataUnmasked)
    (h : db.isPersonal dict.id = isPersonalData dict.fieldName) :
    Preserves (SignsNoPersonal db) (maskExtractionForRole signGet repr role dict) := by
  cases hpersonal : isPersonalData dict.fieldName with
  | true =>
    rw [maskExtractionForRole_personal hrole hpersonal]
    exact preserves_pure _
  | false =>
    unfold maskExtractionForRole
    dsimp only
    split
    · refine preserves_bind (signCrop_signsNoPersonal (h.trans hpersonal)) fun _ => ?_
      exact preserves_bind (preserves_pure _) fun _ => preserves_pure _
    · exact preserves_bind (preserves_pure _) fun _ => preserves_pure _

theorem maskExtractions_signsNoPersonal (hrole : role ∉ rolesThatSeePersonalDataUnmasked)
    (dicts : List (ContractDict ν))
    (h : ∀ dict ∈ dicts, db.isPersonal dict.id = isPersonalData dict.fieldName) :
    Preserves (SignsNoPersonal db) (maskExtractions signGet repr role dicts) := by
  induction dicts with
  | nil => exact preserves_pure _
  | cons dict rest ih =>
    refine preserves_bind
      (maskExtractionForRole_signsNoPersonal hrole (h dict List.mem_cons_self)) fun _ => ?_
    exact preserves_bind (ih fun other hother => h other (List.mem_cons_of_mem _ hother))
      fun _ => preserves_pure _

theorem isPersonal_of_mem_recordExtractions {recordGroupId : Text}
    (h : dict ∈ recordExtractions db recordGroupId) :
    db.isPersonal dict.id = isPersonalData dict.fieldName := by
  obtain ⟨id, -, hid⟩ := List.mem_filterMap.mp h
  obtain ⟨extraction, hfound, rfl⟩ := Option.map_eq_some_iff.mp hid
  have hsame : extraction.id = id := (mem_of_extraction? hfound).2
  rw [← hsame] at hfound
  exact isPersonal_of_extraction? hfound

theorem getRecord_signsNoPersonal (hrole : role ∉ rolesThatSeePersonalDataUnmasked)
    (recordGroupId : Text) (version : Option ℤ) :
    Preserves (SignsNoPersonal db) (getRecord signGet repr db role recordGroupId version) := by
  unfold getRecord
  split
  · exact triple_raise fun _ h => h
  · exact preserves_bind (maskExtractions_signsNoPersonal hrole _
      fun dict hdict => isPersonal_of_mem_recordExtractions hdict) fun _ => preserves_pure _

end RecordView

section Provenance

variable {ν : Type} {arithmetic : Arithmetic ν} {zone : Zone} {role : Text} {db : Database ν}
  {erases : Page → Bool}

theorem corrections_erased (extractionId : Text) :
    orderBy Correction.createdAt ((db.erased erases).corrections.filter fun row =>
        row.extractionId = extractionId) =
      (orderBy Correction.createdAt (db.corrections.filter fun row =>
        row.extractionId = extractionId)).map fun correction =>
          if db.isPersonal correction.extractionId then correction.erased else correction := by
  have hsame : ∀ correction : Correction,
      (if db.isPersonal correction.extractionId then correction.erased else correction).extractionId
        = correction.extractionId := by
    intro correction
    split <;> rfl
  rw [Database.erased, List.filter_map, orderBy_map]
  · congr 2
    apply List.filter_congr
    intro correction _
    exact congrArg (fun id => decide (id = extractionId)) (hsame correction)
  · intro correction
    split <;> rfl

theorem documentId_erased (pageId : Text) :
    ((db.erased erases).page? pageId).map Page.documentId =
      (db.page? pageId).map Page.documentId := by
  rw [page?_erased, Option.map_map]
  congr 1
  funext page
  simp only [Function.comp]
  split <;> rfl

/-- The history of a field as a masked reader sees it does not depend on its personal data. -/
theorem editHistory_erased (erases : Page → Bool) (zone : Zone)
    (hrole : role ∉ rolesThatSeePersonalDataUnmasked) {extractionId : Text}
    {extraction : Extraction ν} (hfound : db.extraction? extractionId = some extraction) :
    ((orderBy Correction.createdAt ((db.erased erases).corrections.filter fun row =>
        row.extractionId = extractionId)).map (EditHistoryEntry.ofCorrection zone)).map
          (maskEditHistoryEntry · extraction.fieldName role) =
      ((orderBy Correction.createdAt (db.corrections.filter fun row =>
        row.extractionId = extractionId)).map (EditHistoryEntry.ofCorrection zone)).map
          (maskEditHistoryEntry · extraction.fieldName role) := by
  rw [corrections_erased, List.map_map, List.map_map, List.map_map]
  apply List.map_congr_left
  intro correction hcorrection
  have hrow : correction.extractionId = extractionId := by
    rw [mem_orderBy] at hcorrection
    exact of_decide_eq_true (List.mem_filter.mp hcorrection).2
  have hpersonal := isPersonal_of_extraction? hfound
  simp only [Function.comp, hrow]
  cases hclass : isPersonalData extraction.fieldName with
  | false =>
    rw [hclass] at hpersonal
    simp only [hpersonal, Bool.false_eq_true, if_false]
  | true =>
    rw [hclass] at hpersonal
    simp only [hpersonal, if_true]
    exact maskEditHistoryEntry_erased hrole hclass zone correction

theorem getProvenance_erased (hrole : role ∉ rolesThatSeePersonalDataUnmasked)
    (extractionId : Text) :
    getProvenance arithmetic zone (db.erased erases) role extractionId =
      getProvenance arithmetic zone db role extractionId := by
  have hextraction := extraction?_erased db erases extractionId
  cases hfound : db.extraction? extractionId with
  | none =>
    rw [hfound, Option.map_none] at hextraction
    simp only [getProvenance, resolveProvenance, hfound, hextraction]
  | some extraction =>
    obtain ⟨rawValue, canonicalValue, herased⟩ := extraction.erased_eq
    rw [hfound, Option.map_some, herased] at hextraction
    have hhistory := editHistory_erased erases zone hrole hfound
    have hprovenances : (db.erased erases).provenances = db.provenances := rfl
    simp only [getProvenance, resolveProvenance, hfound, hextraction, documentId_erased, hhistory,
      hprovenances]

end Provenance

section Readers

variable {ν : Type} (signGet : Text → ℕ → Except Raised Text) (repr : Value ν → Text)
  (arithmetic : Arithmetic ν) (zone : Zone) (role : Text)

/-- A reader of the role is told the same from both databases by both routes, and no crop of
personal data is signed on the way. -/
structure AnswersAlike (db db' : Database ν) : Prop where
  record : ∀ recordGroupId version, getRecord signGet repr db role recordGroupId version [] =
    getRecord signGet repr db' role recordGroupId version []
  provenance : ∀ extractionId, getProvenance arithmetic zone db role extractionId =
    getProvenance arithmetic zone db' role extractionId
  unsigned : ∀ recordGroupId version,
    SignsNoPersonal db (getRecord signGet repr db role recordGroupId version []).2
  unsigned' : ∀ recordGroupId version,
    SignsNoPersonal db' (getRecord signGet repr db' role recordGroupId version []).2

variable {signGet repr arithmetic zone role}

/-- Databases that differ in the values of personal-data fields, in their corrections, and in
images with no crop of another field, are alike to every masked reader. -/
theorem masked_noninterference {db db' : Database ν} (hrole : role ≠ "auditor_unmasked_read".toList)
    (hsame : db.erased db.isPersonalOnlyImage = db'.erased db'.isPersonalOnlyImage) :
    AnswersAlike signGet repr arithmetic zone role db db' := by
  have hmasked : role ∉ rolesThatSeePersonalDataUnmasked := fun h =>
    hrole (List.mem_singleton.mp h)
  have hunsigned : ∀ (db : Database ν) (recordGroupId : Text) (version : Option ℤ),
      SignsNoPersonal db (getRecord signGet repr db role recordGroupId version []).2 :=
    fun db recordGroupId version => (getRecord_signsNoPersonal hmasked recordGroupId version).world
      fun _ h => (nomatch h)
  refine ⟨fun recordGroupId version => ?_, fun extractionId => ?_, hunsigned db, hunsigned db'⟩
  · rw [← getRecord_erased hmasked, hsame, getRecord_erased hmasked]
  · rw [← getProvenance_erased hmasked, hsame, getProvenance_erased hmasked]

def localSignGet (key : Text) (_ttlSeconds : ℕ) : Except Raised Text :=
  .ok ("/objects/".toList ++ key ++ "?exp=1700000120&sig=00".toList)

def exactArithmetic : Arithmetic ℚ where
  add m n := .ok (m + n)
  sub m n := .ok (m - n)
  mul m n := .ok (m * n)
  halve n := .ok (n / 2)
  radians n := .ok n
  cos _ := .ok 1
  sin _ := .ok 0
  lt m n := decide (m < n)

def ownerRead (image name : Text) : Database ℚ where
  pages := [⟨"p".toList, "d".toList, some image⟩]
  extractions := [⟨"owner".toList, "p".toList, "owner_name".toList, name, some name, .dict [],
    none, none, none, none, none, "live".toList⟩]
  records := [⟨"r".toList, 1, none⟩]
  assemblies := [⟨"r".toList, ["owner".toList]⟩]
  corrections := [⟨"owner".toList, some name, some name, some 0, "alice".toList, newYear 0⟩]

theorem ownerRead_erased (image image' name name' : Text) :
    (ownerRead image name).erased (ownerRead image name).isPersonalOnlyImage =
      (ownerRead image' name').erased (ownerRead image' name').isPersonalOnlyImage := by
  simp [Database.erased, Database.isPersonalOnlyImage, Database.isPersonalImage, ownerRead,
    Extraction.erased, isPersonalData, personalDataFieldClasses, Database.isPersonal,
    Database.extraction?, Page.erased, Correction.erased, eraseText]

theorem masked_noninterference_ownerRead :
    AnswersAlike localSignGet (fun _ => "\x7b\x7d".toList) exactArithmetic utc "operator".toList
      (ownerRead "sha256/a".toList "Ram".toList) (ownerRead "sha256/b".toList "Sita".toList) :=
  masked_noninterference (by decide) (ownerRead_erased _ _ _ _)

def sharedPage (image : Text) : Database ℚ where
  pages := [⟨"p".toList, "d".toList, some image⟩]
  extractions := [
    ⟨"owner".toList, "p".toList, "owner_name".toList, "Ram".toList, none, .dict [], none, none, none,
      none, none, "live".toList⟩,
    ⟨"survey".toList, "p".toList, "survey_number".toList, "12".toList, none, .dict [], none, none,
      none, none, none, "live".toList⟩]
  records := [⟨"r".toList, 1, none⟩]
  assemblies := [⟨"r".toList, ["survey".toList]⟩]

theorem sharedPage_erased (image image' : Text) :
    (sharedPage image).erased (sharedPage image).isPersonalImage =
      (sharedPage image').erased (sharedPage image').isPersonalImage := by
  simp [Database.erased, Database.isPersonalImage, sharedPage, Extraction.erased,
    isPersonalData, personalDataFieldClasses, Page.erased, eraseText]

/-- The image of a page with an owner's name shows in the crop of the survey number on it. -/
theorem sharedPage_image_shows :
    (sharedPage "sha256/a".toList).erased (sharedPage "sha256/a".toList).isPersonalImage =
        (sharedPage "sha256/b".toList).erased (sharedPage "sha256/b".toList).isPersonalImage ∧
      (getRecord localSignGet (fun _ => "\x7b\x7d".toList) (sharedPage "sha256/a".toList)
          "operator".toList "r".toList none []).1 ≠
        (getRecord localSignGet (fun _ => "\x7b\x7d".toList) (sharedPage "sha256/b".toList)
          "operator".toList "r".toList none []).1 := by
  refine ⟨sharedPage_erased _ _, ?_⟩
  decide +kernel

end Readers

end LandRecords.Masking
