import LandRecords.Base.Runs
import LandRecords.Ingest.FileOutcomes

/-! The drop folder loses a file only by overwriting. A rejected file takes the place of one
that was rejected under its name before; where that one was no other, everything that was
dropped is in the folder, with the rejected files, or in custody. -/
namespace LandRecords.Ingest

open Fallible Runs Text

def InCustody (now : Intake) (content : Content) : Prop :=
  Holds now content ∧ ∃ document ∈ now.committed.custody.documents,
    document.sha256 = digestOf content

/-- The places of a content that is not lost. -/
inductive Safe (library : Library) (now : Intake) (content : Content) : Prop
  | waiting (name : Text) (candidate : isCandidate name)
      (file : now.folder.lookup name = some content)
  | rejected (name reasonCode detail : Text) (moved : name ∈ now.moved)
      (file : now.rejectedFiles.lookup name = some content)
      (reason : now.rejectedFiles.lookup (reasonOf name) = some (library.dumps reasonCode detail))
  | custody (inCustody : InCustody now content)

structure Watched where
  intake : Intake := {}
  dropped : List Content := []

def watchedStep (library : Library) (w : Watched) (step : IntakeStep) : Option Watched :=
  (intakeStep library w.intake step).map fun intake =>
    { intake := intake
      dropped :=
        match step with
        | .dropFile _ content => w.dropped ++ [content]
        | .dropSidecar _ _ | .scan _ => w.dropped }

def Spares (library : Library) (plan : ScanPlan) (name : Text) (intake : Intake) : Prop :=
  rejects library (plan name).1 intake name →
    (intake.rejectedFiles.lookup name = none ∨
      intake.rejectedFiles.lookup name = intake.folder.lookup name) ∧
    reasonOf name ∉ intake.moved

def OverwritesNothing (library : Library) (w : Watched) : IntakeStep → Prop
  | .dropFile name _ => w.intake.folder.lookup name = none
  | .dropSidecar _ _ => True
  | .scan plan => EachFile library plan (Spares library plan) (candidates w.intake)
      (newSession w.intake)

section Steps

variable {library : Library} {start now : Intake} {name : Text} {content : Content}

theorem InCustody.grows (h : InCustody start content) (hgrows : Grows start now) :
    InCustody now content := by
  have ⟨hholds, document, hmem, hdigest⟩ := h
  exact ⟨hholds.grows hgrows, document, hgrows.committed.documents hmem, hdigest⟩

theorem Ingested.inCustody {request : BatchRequest} (h : Ingested request content now) :
    InCustody now content := by
  have ⟨hholds, _, _, _, document, hmem, hdigest, _⟩ := h
  exact ⟨hholds, document, hmem, hdigest⟩

theorem Leaves.waiting {other : Text} (h : Leaves name start now) (hne : other ≠ name)
    (hcandidate : isCandidate other) (hfile : start.folder.lookup other = some content) :
    Safe library now content :=
  .waiting other hcandidate
    ((h.others other hne (ne_sidecarOf_of_candidate hcandidate)).trans hfile)

theorem Stays.safe (h : Stays name start now) (hsafe : Safe library start content) :
    Safe library now content := by
  cases hsafe with
  | waiting other hcandidate hfile =>
    by_cases hother : other = name
    · subst hother
      exact .waiting other hcandidate (h.file.trans hfile)
    · exact h.waiting hother hcandidate hfile
  | rejected other reasonCode detail hmoved hfile hreason =>
    rw [← h.moved] at hmoved
    rw [← h.rejectedFiles] at hfile hreason
    exact .rejected other reasonCode detail hmoved hfile hreason
  | custody hcustody => exact .custody (hcustody.grows h.toGrows)

theorem Enters.safe {request : BatchRequest} (h : Enters name request start now)
    (hsafe : Safe library start content) : Safe library now content := by
  cases hsafe with
  | waiting other hcandidate hfile =>
    by_cases hother : other = name
    · have ⟨held, hheld, hingested⟩ := h.ingested
      rw [hother, hheld] at hfile
      cases hfile
      exact .custody hingested.inCustody
    · exact h.waiting hother hcandidate hfile
  | rejected other reasonCode detail hmoved hfile hreason =>
    rw [← h.moved] at hmoved
    rw [← h.rejectedFiles] at hfile hreason
    exact .rejected other reasonCode detail hmoved hfile hreason
  | custody hcustody => exact .custody (hcustody.grows h.toGrows)

theorem TurnsOut.safe (h : TurnsOut library name start now)
    (hplace : start.rejectedFiles.lookup name = none ∨
      start.rejectedFiles.lookup name = start.folder.lookup name)
    (hreasonPlace : reasonOf name ∉ start.moved) (hsafe : Safe library start content) :
    Safe library now content := by
  have ⟨file, newCode, newDetail, hfolder, hrejected⟩ := h.rejectedFiles
  have hgrown {other : Text} (hother : other ∈ start.moved) : other ∈ now.moved := by
    rw [h.moved]
    exact List.mem_append_left [name] hother
  have hkept {other : Text} {held : Content} (hne : other ≠ reasonOf name)
      (hheld : start.rejectedFiles.lookup other = some held) :
      now.rejectedFiles.lookup other = some held := by
    rw [hrejected, Dict.lookup_set_other hne]
    by_cases hother : other = name
    · subst hother
      rw [hheld, hfolder] at hplace
      cases hplace with
      | inl hnone => cases hnone
      | inr hsame => rw [hsame, Dict.lookup_set_self]
    · rw [Dict.lookup_set_other hother, hheld]
  have hreason : now.rejectedFiles.lookup (reasonOf name) =
      some (library.dumps newCode newDetail) := by
    rw [hrejected, Dict.lookup_set_self]
  cases hsafe with
  | waiting other hcandidate hfile =>
    by_cases hother : other = name
    · rw [hother, hfolder] at hfile
      cases hfile
      apply Safe.rejected name newCode newDetail _ _ hreason
      · rw [h.moved]
        exact List.mem_append_right start.moved List.mem_cons_self
      · rw [hrejected, Dict.lookup_set_other reasonOf_ne_self.symm, Dict.lookup_set_self]
    · exact h.waiting hother hcandidate hfile
  | rejected other reasonCode detail hmoved hfile hbefore =>
    have hfileKept := hkept (ne_of_mem_of_not_mem hmoved hreasonPlace) hfile
    by_cases hother : other = name
    · subst hother
      exact .rejected other newCode newDetail (hgrown hmoved) hfileKept hreason
    · have hne : reasonOf other ≠ reasonOf name := fun heq => hother (reasonOf_injective heq)
      exact .rejected other reasonCode detail (hgrown hmoved) hfileKept (hkept hne hbefore)
  | custody hcustody => exact .custody (hcustody.grows h.toGrows)

def Conserves (library : Library) (dropped : List Content) (intake : Intake) : Prop :=
  intake.committed.Extends intake.session ∧ ∀ content ∈ dropped, Safe library intake content

theorem Conserves.ingestOne {dropped : List Content} {plan : ScanPlan}
    (h : Conserves library dropped start) (hspares : Spares library plan name start) :
    Conserves library dropped (ingestOne library (plan name).1 (plan name).2 name start).2 := by
  apply Triple.world (P := (· = start)) _ rfl
  apply (triple_ingestOne h.1).imp (fun _ h => h)
  · intro _ now hnow
    cases hnow with
    | inl henters =>
      have ⟨_, henters⟩ := henters
      exact ⟨henters.session, fun content hmem => henters.safe (h.2 content hmem)⟩
    | inr hturned =>
      have ⟨hrejects, hturned⟩ := hturned
      have ⟨hplace, hreasonPlace⟩ := hspares hrejects
      exact ⟨hturned.session, fun content hmem =>
        hturned.safe hplace hreasonPlace (h.2 content hmem)⟩
  · exact fun _ now hstays => ⟨hstays.session, fun content hmem => hstays.safe (h.2 content hmem)⟩
  · exact fun now hstays => ⟨hstays.session, fun content hmem => hstays.safe (h.2 content hmem)⟩

end Steps

section Runs

variable {library : Library} {w w' : Watched}

theorem Safe.dropped {now : Intake} {name : Text} {content held : Content}
    (h : Safe library now held) (hnew : now.folder.lookup name = none ∨ isCandidate name = false) :
    Safe library { now with folder := Dict.set name content now.folder } held := by
  cases h with
  | waiting other hcandidate hfile =>
    have hother : other ≠ name := by
      intro heq
      subst heq
      cases hnew with
      | inl hnone =>
        rw [hnone] at hfile
        cases hfile
      | inr hsidecar =>
        rw [hsidecar] at hcandidate
        cases hcandidate
    exact .waiting other hcandidate ((Dict.lookup_set_other hother).trans hfile)
  | rejected other reasonCode detail hmoved hfile hreason =>
    exact .rejected other reasonCode detail hmoved hfile hreason
  | custody hcustody => exact .custody hcustody

theorem watchedStep_conserves {step : IntakeStep}
    (h : ∀ content ∈ w.dropped, Safe library w.intake content)
    (hok : OverwritesNothing library w step) (hstep : watchedStep library w step = some w') :
    ∀ content ∈ w'.dropped, Safe library w'.intake content := by
  have ⟨intake, hintake, hw'⟩ := Option.map_eq_some_iff.mp hstep
  subst hw'
  cases step with
  | dropFile name content =>
    have ⟨hallowed, hset⟩ := Option.ite_none_right_eq_some.mp hintake
    cases hset
    have hcandidate : isCandidate name := (Bool.and_eq_true_iff.mp hallowed).1
    intro held hheld
    cases List.mem_append.mp hheld with
    | inl hbefore => exact (h held hbefore).dropped (.inl hok)
    | inr hnew =>
      rw [List.mem_singleton.mp hnew]
      exact .waiting name hcandidate Dict.lookup_set_self
  | dropSidecar name bytes =>
    cases hintake
    exact fun held hheld => (h held hheld).dropped (.inr not_candidate_sidecarOf)
  | scan plan =>
    cases hintake
    have hstart : Conserves library w.dropped (newSession w.intake) := by
      refine ⟨.refl _, fun content hmem => ?_⟩
      cases h content hmem with
      | waiting name hcandidate hfile => exact .waiting name hcandidate hfile
      | rejected name reasonCode detail hmoved hfile hreason =>
        exact .rejected name reasonCode detail hmoved hfile hreason
      | custody hcustody => exact .custody hcustody
    exact (scanOnce_invariant (fun _ _ _ hs hspares => hs.ingestOne hspares) hstart hok).2

/-- The watcher moves a file to the rejected ones exactly if it is to be rejected. -/
def RejectsExactly (library : Library) : Prop :=
  ∀ faults stamps start name content, start.committed.Extends start.session →
    start.folder.lookup name = some content →
      ((ingestOne library faults stamps name start).2.moved = start.moved ++ [name] ↔
        rejects library faults start name)

/-- Where nothing is overwritten, nothing that was dropped is lost. -/
theorem nothing_lost {intake : Intake} {steps : List IntakeStep}
    (hok : AllSteps (watchedStep library) (OverwritesNothing library) ⟨intake, []⟩ steps) :
    Throughout (watchedStep library)
      (fun w => ∀ content ∈ w.dropped, Safe library w.intake content) ⟨intake, []⟩ steps ∧
    RejectsExactly library := by
  constructor
  · apply throughout_of_invariant _ (fun _ _ _ hs hok hstep => watchedStep_conserves hs hok hstep) hok
    intro content hmem
    cases hmem
  · exact fun _ _ _ _ _ hstart hfile => moved_iff_rejects hstart hfile

end Runs

/-! ## Runs -/

instance {library : Library} {plan : ScanPlan} : ∀ name intake,
    Decidable (Spares library plan name intake) :=
  fun _ _ => inferInstanceAs (Decidable (_ = true → (_ = none ∨ _ = _) ∧ _ ∉ _))

instance {library : Library} : ∀ w step, Decidable (OverwritesNothing library w step)
  | w, .dropFile name _ => inferInstanceAs (Decidable (w.intake.folder.lookup name = none))
  | _, .dropSidecar _ _ => inferInstanceAs (Decidable True)
  | w, .scan plan => inferInstanceAs (Decidable (EachFile library plan (Spares library plan)
      (candidates w.intake) (newSession w.intake)))

def districtSidecar : Value ℚ :=
  .dict [("district".toList, .text "Moga".toList), ("mime".toList, .text "image/png".toList)]

def districtBytes : Content :=
  Sha256.encode "\x7b\"district\": \"Moga\", \"mime\": \"image/png\"\x7d".toList

def oneSidecar : Library where
  loads bytes :=
    if bytes = districtBytes then .ok districtSidecar
    else .error (.decodeError "Expecting value: line 1 column 1 (char 0)".toList)
  guessType _ := none
  fromisoformat _ := .error (.valueError "Invalid isoformat string".toList)
  repr _ := []
  dumps reasonCode detail :=
    Sha256.encode ("\x7b\"reason_code\": \"".toList ++ reasonCode ++ "\", \"detail\": \"".toList ++
      detail ++ "\"\x7d".toList)

def planUnder (faults : Faults) : ScanPlan := fun name =>
  (faults, ⟨name, name, name, name, Datetime.newYear 0⟩)

def quietScan : IntakeStep := .scan (planUnder {})

def brokenScan : IntakeStep :=
  .scan (planUnder { primaryPut := .raises false "unavailable".toList })

def twiceRejected : List IntakeStep :=
  [.dropFile "a".toList [1], quietScan, .dropFile "a".toList [2], quietScan]

/-- Once the second file is rejected the first one is nowhere. -/
theorem rejection_overwrites : ¬ ∀ library steps, Throughout (watchedStep library)
    (fun w => ∀ content ∈ w.dropped, Safe library w.intake content) {} steps := by
  intro h
  have hdone : (run (watchedStep oneSidecar) {} twiceRejected).isSome := by decide +kernel
  have hend : ∀ w ∈ run (watchedStep oneSidecar) {} twiceRejected, [1] ∈ w.dropped ∧
      w.intake.folder = [] ∧ [1] ∉ w.intake.rejectedFiles.map Prod.snd ∧
      w.intake.committed.custody.documents.length = 0 := by decide +kernel
  have ⟨w, hrun⟩ := Option.isSome_iff_exists.mp hdone
  have ⟨hdropped, hfolder, hrejected, hdocuments⟩ := hend w hrun
  cases (h oneSidecar twiceRejected).at_run hrun [1] hdropped with
  | waiting name _ hfile =>
    rw [hfolder] at hfile
    cases hfile
  | rejected name _ _ _ hfile _ =>
    have ⟨_, _, hsplit, _⟩ := List.lookup_eq_some_iff.mp hfile
    have hmem : (name, [1]) ∈ w.intake.rejectedFiles := by simp [hsplit]
    exact hrejected (List.mem_map_of_mem hmem)
  | custody hcustody =>
    have ⟨_, document, hmem, _⟩ := hcustody
    rw [List.eq_nil_of_length_eq_zero hdocuments] at hmem
    cases hmem

def threeFiles : List IntakeStep :=
  [.dropFile "a".toList [1], quietScan, .dropFile "a".toList [1], quietScan,
    .dropFile "b".toList [2], .dropSidecar "b".toList districtBytes, quietScan,
    .dropFile "c".toList [3], .dropSidecar "c".toList districtBytes,
    brokenScan, quietScan]

theorem nothing_lost_sample :
    AllSteps (watchedStep oneSidecar) (OverwritesNothing oneSidecar) ⟨{}, []⟩ threeFiles ∧
    Throughout (watchedStep oneSidecar)
    (fun w => ∀ content ∈ w.dropped, Safe oneSidecar w.intake content) ⟨{}, []⟩ threeFiles ∧
    RejectsExactly oneSidecar := by
  have hok : AllSteps (watchedStep oneSidecar) (OverwritesNothing oneSidecar) ⟨{}, []⟩
      threeFiles := by decide +kernel
  exact ⟨hok, nothing_lost hok⟩

end LandRecords.Ingest
