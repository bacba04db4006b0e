import LandRecords.Triage.Routing
import Mathlib

/-! The versions that triage pins. The registry serves the version that is promoted for a module,
and the client asks for the modules one by one: either all of them answer, or there are no
versions. -/
namespace LandRecords.Triage

open Text

structure ActiveModelRecord where
  modelVersion : Text
  adapterRef : Option Text := none

def validModules : List Text :=
  ["printed_ocr", "hwr", "calibrator", "novelty_detector", "triage_classifier"].map String.toList

/-- `_ACTIVE_PROMOTED_MODELS` and `_WRITER_ADAPTERS`. -/
structure ModelRegistry where
  promoted : List (Text × ActiveModelRecord)
  writerAdapters : List ((Text × Text) × Text) := []

def ModelRegistry.baseline : ModelRegistry where
  promoted := validModules.map fun module => (module, { modelVersion := module ++ "_v1".toList })

structure ActiveModel where
  modelVersion : Text
  adapterRef : Option Text

/-- `get_active_model`, which raises a 404 otherwise. The stratum is not read. -/
def getActiveModel (registry : ModelRegistry) (module : Text) (writerClusterId : Option Text)
    (_stratum : Option Text) : Option ActiveModel :=
  if module ∉ validModules then none
  else
    (registry.promoted.lookup module).map fun record =>
      { modelVersion := record.modelVersion
        adapterRef :=
          match writerClusterId.filter (· ≠ []) with
          | some cluster => (registry.writerAdapters.lookup (module, cluster)).or record.adapterRef
          | none => record.adapterRef }

inductive RegistryReply
  | requestError
  | response (status : Nat) (modelVersion : Option Text)

/-- `ModelRegistryResolutionError`, with the module it is about. -/
inductive ResolutionError
  | queryFailed (module : Text)
  | status (module : Text) (status : Nat)
  | invalidVersion (module : Text)

/-- `MODULE_TO_ENVELOPE_KEY`. -/
def moduleToEnvelopeKey : List (Text × Text) :=
  [("printed_ocr", "printed_ocr"), ("hwr", "hwr"), ("calibrator", "confidence_calibrator"),
    ("novelty_detector", "novelty_detector"), ("triage_classifier", "triage_classifier")].map
      fun (module, key) => (module.toList, key.toList)

def checkReply (module : Text) : RegistryReply → Except ResolutionError Text
  | .requestError => .error (.queryFailed module)
  | .response status modelVersion =>
      if status ≠ 200 then .error (.status module status)
      else
        match modelVersion with
        | some version => if version = [] then .error (.invalidVersion module) else .ok version
        | none => .error (.invalidVersion module)

def resolveModules (ask : Text → RegistryReply) :
    List (Text × Text) → Except ResolutionError ModelVersions
  | [] => .ok []
  | (module, key) :: rest => do
      let version ← checkReply module (ask module)
      let versions ← resolveModules ask rest
      return (key, version) :: versions

def resolveActiveModelVersions (ask : Text → RegistryReply) :
    Except ResolutionError ModelVersions :=
  resolveModules ask moduleToEnvelopeKey

def ModelRegistry.reply (registry : ModelRegistry) (module : Text) : RegistryReply :=
  match getActiveModel registry module none none with
  | some active => .response 200 (some active.modelVersion)
  | none => .response 404 none

section Resolve

variable {ask : Text → RegistryReply} {modules : List (Text × Text)} {versions : ModelVersions}

theorem resolveModules_ok : resolveModules ask modules = .ok versions ↔
    List.Forall₂ (fun entry version => version.1 = entry.2 ∧
      checkReply entry.1 (ask entry.1) = .ok version.2) modules versions := by
  induction modules generalizing versions with
  | nil => simp [resolveModules, eq_comm]
  | cons entry rest ih =>
    obtain ⟨module, key⟩ := entry
    rw [List.forall₂_cons_left_iff]
    simp only [resolveModules]
    cases hreply : checkReply module (ask module) with
    | error e =>
      constructor
      · intro h
        cases h
      · rintro ⟨version, others, ⟨-, hversion⟩, -, -⟩
        cases hversion
    | ok version =>
      cases hrest : resolveModules ask rest with
      | error e =>
        constructor
        · intro h
          cases h
        · rintro ⟨_, others, -, hothers, -⟩
          rw [ih.mpr hothers] at hrest
          cases hrest
      | ok others =>
        have hothers := ih.mp hrest
        constructor
        · intro h
          cases h
          exact ⟨(key, version), others, ⟨rfl, rfl⟩, hothers, rfl⟩
        · rintro ⟨⟨key', version'⟩, others', ⟨rfl, hversion⟩, hothers', rfl⟩
          cases hversion
          have hsame := (ih.mpr hothers').symm.trans hrest
          cases hsame
          rfl

theorem resolveModules_keys (h : resolveModules ask modules = .ok versions) :
    versions.map Prod.fst = modules.map Prod.snd := by
  have hall := resolveModules_ok.mp h
  clear h
  induction hall with
  | nil => rfl
  | cons hentry _ ih => rw [List.map_cons, List.map_cons, hentry.1, ih]

theorem checkModelVersions_congr {versions' : ModelVersions}
    (h : versions.map Prod.fst = versions'.map Prod.fst) :
    checkModelVersions versions = checkModelVersions versions' := by
  unfold checkModelVersions
  rw [h]

/-- A version that is not empty for each of the modules, which is what the check of `pin` asks. -/
structure CompleteVersions (versions : ModelVersions) : Prop where
  keys : versions.map Prod.fst = moduleToEnvelopeKey.map Prod.snd
  named : ∀ version ∈ versions, version.2 ≠ []
  checked : checkModelVersions versions = .ok ()

theorem checkReply_ne_nil {module version : Text} {reply : RegistryReply}
    (h : checkReply module reply = .ok version) : version ≠ [] := by
  unfold checkReply at h
  split at h
  · cases h
  · split at h
    · cases h
    · split at h
      · split at h
        · cases h
        · rename_i hnamed
          cases h
          exact hnamed
      · cases h

theorem resolveModules_named (h : resolveModules ask modules = .ok versions) :
    ∀ version ∈ versions, version.2 ≠ [] := by
  have hall := resolveModules_ok.mp h
  clear h
  induction hall with
  | nil => exact fun version hversion => nomatch hversion
  | cons hentry _ ih =>
    intro version hversion
    rcases List.mem_cons.mp hversion with rfl | hrest
    · exact checkReply_ne_nil hentry.2
    · exact ih version hrest

theorem resolveActiveModelVersions_complete (h : resolveActiveModelVersions ask = .ok versions) :
    CompleteVersions versions := by
  have hkeys := resolveModules_keys h
  have hcheck : versions.map Prod.fst =
      (moduleToEnvelopeKey.map fun entry => (entry.2, entry.1)).map Prod.fst := by
    rw [hkeys, List.map_map]
    rfl
  refine ⟨hkeys, resolveModules_named h, ?_⟩
  rw [checkModelVersions_congr hcheck]
  rfl

example : resolveActiveModelVersions ModelRegistry.baseline.reply = .ok
    ([("printed_ocr", "printed_ocr_v1"), ("hwr", "hwr_v1"), ("confidence_calibrator", "calibrator_v1"),
      ("novelty_detector", "novelty_detector_v1"),
      ("triage_classifier", "triage_classifier_v1")].map fun (key, version) =>
        (key.toList, version.toList)) := by
  rfl

end Resolve

end LandRecords.Triage
