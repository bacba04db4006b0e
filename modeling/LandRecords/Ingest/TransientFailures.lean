import LandRecords.Ingest.NothingLost

/-! Failures on the way into custody. The sidecar of a file is removed before the file is taken
in, so that a failure after that leaves a file that the next scan rejects; without one the file
is ingested with the batch of its sidecar. -/
namespace LandRecords.Ingest

open Fallible Runs Text

structure DescribedFile (library : Library) where
  name : Text
  content : Content
  bytes : Content
  sidecar : Value ℚ
  request : BatchRequest
  candidate : isCandidate name
  loads : library.loads bytes = .ok sidecar
  requested : batchRequest library name sidecar = .ok request
  district : ∃ text, request.metadata.district = .text text ∧ Ocr.strip text ≠ []
  mime : ∃ text ∈ supportedMimeTypes.map Prod.fst, request.mime = .text text

section Described

variable {library : Library} (file : DescribedFile library)

def DescribedFile.Ingested (now : Intake) : Prop :=
  LandRecords.Ingest.Ingested file.request file.content now

/-- The file is in the folder with its sidecar. -/
structure DescribedFile.Present (now : Intake) : Prop where
  here : now.folder.lookup file.name = some file.content
  sidecar : now.folder.lookup (sidecarOf file.name) = some file.bytes

def DescribedFile.Undisturbed (faults : Faults) (intake : Intake) : Prop :=
  batchReached faults intake.session file.request.batchId ∧ Admits faults intake file.content

def DescribedFile.Unhindered (plan : ScanPlan) (name : Text) (intake : Intake) : Prop :=
  if name = file.name then file.Undisturbed (plan name).1 intake
  else (ingestOne library (plan name).1 (plan name).2 name intake).1 = .returned ()

def DescribedFile.Reached (plan : ScanPlan) (now : Intake) : Prop :=
  EachFile library plan (file.Unhindered plan) (candidates now) (newSession now)

/-- The file has not been moved to the rejected ones, it is in its place with its sidecar until
it is ingested, and the next scan that does not fail ingests it. -/
structure DescribedFile.Retried (start now : Intake) : Prop where
  notMoved : now.moved.count file.name = start.moved.count file.name
  waiting : ¬file.Ingested now → file.Present now
  next : ∀ plan, file.Reached plan now → file.Ingested (scanOnce library plan now).2

/-- Nothing fails where a scan has taken the file up; what is dropped belongs to other files. -/
def DescribedFile.LeavesUndisturbed (now : Intake) : IntakeStep → Prop
  | .dropFile name _ | .dropSidecar name _ => name ≠ file.name
  | .scan plan => EachFile library plan
      (fun name intake => name = file.name → file.Present intake →
        file.Undisturbed (plan name).1 intake)
      (candidates now) (newSession now)

end Described

section Steps

variable {library : Library} {file : DescribedFile library} {start now : Intake} {name : Text}
  {faults : Faults} {stamps : IntakeStamps} {plan : ScanPlan}

theorem DescribedFile.validDistrict :
    validateBatchMetadata file.request.metadata.district = .ok () := by
  have ⟨text, hdistrict, hstrip⟩ := file.district
  have htext : text ≠ [] := by
    intro hnil
    rw [hnil] at hstrip
    exact hstrip rfl
  have htruthy : (Value.text text : Value ℚ).truthy = true := by
    simp [Value.truthy, htext]
  unfold validateBatchMetadata
  rw [hdistrict, htruthy]
  exact if_neg hstrip

theorem DescribedFile.validMime : ∃ accepted, validateMime file.request.mime = .ok accepted := by
  have ⟨text, hmem, hmime⟩ := file.mime
  rw [hmime]
  exact ⟨text, if_pos hmem⟩

theorem DescribedFile.ready (hpresent : file.Present start)
    (hundisturbed : file.Undisturbed faults start) : Ready faults start file.name file.request where
  district := file.validDistrict
  mime := file.validMime
  batch := hundisturbed.1
  content := ⟨file.content, hpresent.here, hundisturbed.2⟩

theorem DescribedFile.enters (hstart : start.committed.Extends start.session)
    (hpresent : file.Present start) (hundisturbed : file.Undisturbed faults start) :
    Triple (· = start) (ingestOne library faults stamps file.name)
      (fun _ now => Enters file.name file.request start now) (fun _ _ => False)
      (fun _ => False) := by
  have hready := file.ready hpresent hundisturbed
  apply (triple_described hstart hpresent.sidecar file.loads file.requested).imp (fun _ h => h)
  · intro _ now hnow
    cases hnow with
    | inl henters => exact henters
    | inr hturned => exact absurd hready hturned.1
  · exact fun _ _ h => h.2 hready
  · exact fun _ h => h.2 hready

theorem Enters.ingestedFile (h : Enters file.name file.request start now)
    (hpresent : file.Present start) : file.Ingested now := by
  have ⟨content, hfile, hingested⟩ := h.ingested
  rw [hpresent.here] at hfile
  cases hfile
  exact hingested

theorem Leaves.present (h : Leaves name start now) (hname : isCandidate name)
    (hother : name ≠ file.name) (hpresent : file.Present start) : file.Present now where
  here := (h.others _ hother.symm (ne_sidecarOf_of_candidate file.candidate)).trans hpresent.here
  sidecar := (h.others _ (ne_sidecarOf_of_candidate hname).symm
    fun heq => hother (sidecarOf_injective heq).symm).trans hpresent.sidecar

structure DescribedFile.Kept (file : DescribedFile library) (moved : ℕ) (now : Intake) : Prop where
  notMoved : now.moved.count file.name = moved
  place : file.Present now ∨ (file.Ingested now ∧ now.folder.lookup file.name = none)

theorem DescribedFile.Kept.other {moved : ℕ} (h : file.Kept moved start)
    (hleaves : Leaves name start now) (hname : isCandidate name) (hother : name ≠ file.name)
    (hmoved : now.moved = start.moved ∨ now.moved = start.moved ++ [name]) :
    file.Kept moved now where
  notMoved := by
    cases hmoved with
    | inl hsame => rw [hsame, h.notMoved]
    | inr hadded =>
      rw [hadded, List.count_append, List.count_singleton, beq_eq_false_iff_ne.mpr hother,
        h.notMoved]
      rfl
  place := by
    cases h.place with
    | inl hpresent => exact .inl (hleaves.present hname hother hpresent)
    | inr hgone =>
      have hsame := hleaves.others _ hother.symm (ne_sidecarOf_of_candidate file.candidate)
      exact .inr ⟨Ingested.grows hgone.1 hleaves.toGrows, hsame.trans hgone.2⟩

theorem DescribedFile.Kept.gone {moved : ℕ} (h : file.Kept moved start)
    (hingested : file.Ingested start) (hgone : start.folder.lookup file.name = none)
    (hstays : Stays file.name start now) : file.Kept moved now where
  notMoved := (congrArg _ hstays.moved).trans h.notMoved
  place := .inr ⟨Ingested.grows hingested hstays.toGrows, hstays.file.trans hgone⟩

def DescribedFile.Scanned (file : DescribedFile library) (moved : ℕ) (now : Intake) : Prop :=
  now.committed.Extends now.session ∧ file.Kept moved now

theorem DescribedFile.Scanned.ingestOne {moved : ℕ} (hname : isCandidate name)
    (h : file.Scanned moved start)
    (hundisturbed : name = file.name → file.Present start →
      file.Undisturbed (plan name).1 start) :
    file.Scanned moved (ingestOne library (plan name).1 (plan name).2 name start).2 := by
  have ⟨hstart, hkept⟩ := h
  apply Triple.world (P := (· = start)) (I := file.Scanned moved) _ rfl
  by_cases hthis : name = file.name
  · subst hthis
    cases hkept.place with
    | inl hpresent =>
      apply (file.enters hstart hpresent (hundisturbed rfl hpresent)).imp (fun _ h => h)
      · intro _ now h
        exact ⟨h.session, (congrArg _ h.moved).trans hkept.notMoved,
          .inr ⟨h.ingestedFile hpresent, h.file⟩⟩
      · exact fun _ _ h => h.elim
      · exact fun _ h => h.elim
    | inr hplace =>
      have ⟨hingested, hgone⟩ := hplace
      apply (triple_ingestOne hstart).imp (fun _ h => h)
      · intro _ now h
        cases h with
        | inl henters =>
          have ⟨_, henters⟩ := henters
          have ⟨_, hfile, _⟩ := henters.ingested
          rw [hgone] at hfile
          cases hfile
        | inr hturned =>
          have ⟨_, _, _, hfile, _⟩ := hturned.2.rejectedFiles
          rw [hgone] at hfile
          cases hfile
      · exact fun _ now h => ⟨h.session, hkept.gone hingested hgone h⟩
      · exact fun now h => ⟨h.session, hkept.gone hingested hgone h⟩
  · apply (triple_ingestOne hstart).imp (fun _ h => h)
    · intro _ now h
      cases h with
      | inl henters =>
        have ⟨_, henters⟩ := henters
        exact ⟨henters.session, hkept.other henters.toLeaves hname hthis (.inl henters.moved)⟩
      | inr hturned =>
        exact ⟨hturned.2.session,
          hkept.other hturned.2.toLeaves hname hthis (.inr hturned.2.moved)⟩
    · exact fun _ now h => ⟨h.session, hkept.other h.toLeaves hname hthis (.inl h.moved)⟩
    · exact fun now h => ⟨h.session, hkept.other h.toLeaves hname hthis (.inl h.moved)⟩

def DescribedFile.Secured (file : DescribedFile library) (now : Intake) : Prop :=
  now.committed.Extends now.session ∧ file.Ingested now

theorem DescribedFile.Secured.leaves (h : file.Secured start) (hleaves : Leaves name start now) :
    file.Secured now :=
  ⟨hleaves.session, Ingested.grows h.2 hleaves.toGrows⟩

theorem DescribedFile.Secured.ingestOne (h : file.Secured start) :
    file.Secured (ingestOne library (plan name).1 (plan name).2 name start).2 := by
  apply Triple.world (P := (· = start)) (I := file.Secured) _ rfl
  apply (triple_ingestOne h.1).imp (fun _ h => h)
  · intro _ now hnow
    cases hnow with
    | inl henters => exact henters.elim fun _ henters => h.leaves henters.toLeaves
    | inr hturned => exact h.leaves hturned.2.toLeaves
  · exact fun _ now hstays => h.leaves hstays.toLeaves
  · exact fun now hstays => h.leaves hstays.toLeaves

theorem leaves_of_returned (hstart : start.committed.Extends start.session)
    (h : ingestOne library faults stamps name start = (.returned (), now)) :
    Leaves name start now := by
  cases (triple_ingestOne hstart).of_returned rfl h with
  | inl henters => exact henters.elim fun _ henters => henters.toLeaves
  | inr hturned => exact hturned.2.toLeaves

theorem DescribedFile.Present.reached {names : List Text}
    (hpresent : file.Present start) (hstart : start.committed.Extends start.session)
    (hnames : ∀ name ∈ names, isCandidate name) (hmem : file.name ∈ names)
    (hreached : EachFile library plan (file.Unhindered plan) names start) :
    file.Ingested (scanFiles library plan names start).2 := by
  induction names generalizing start with
  | nil => cases hmem
  | cons name rest ih =>
    obtain ⟨hcandidate, hcandidates⟩ := List.forall_mem_cons.mp hnames
    obtain ⟨hhere, hrest⟩ := hreached
    unfold DescribedFile.Unhindered at hhere
    unfold scanFiles
    by_cases hthis : name = file.name
    · subst hthis
      rw [if_pos rfl] at hhere
      have hruns : ∃ done after, LandRecords.Ingest.ingestOne library (plan file.name).1
          (plan file.name).2 file.name start = (.returned done, after) ∧
          Enters file.name file.request start after :=
        Triple.returns (file.enters hstart hpresent hhere) rfl
      obtain ⟨_, after, hrun, henters⟩ := hruns
      rw [bind_returned hrun]
      have hsecured : file.Secured after :=
        ⟨henters.session, henters.ingestedFile hpresent⟩
      exact (scanFiles_invariant hcandidates (fun _ _ _ h _ => DescribedFile.Secured.ingestOne h) hsecured
        (eachFile_true rest after)).2
    · rw [if_neg hthis] at hhere
      cases hrun : LandRecords.Ingest.ingestOne library (plan name).1 (plan name).2 name start with
      | mk exit after =>
        rw [hrun] at hhere hrest
        have hexit : exit = .returned () := hhere
        subst hexit
        rw [bind_returned hrun]
        have hleaves := leaves_of_returned hstart hrun
        have hmemRest : file.name ∈ rest :=
          (List.mem_cons.mp hmem).resolve_left fun heq => hthis heq.symm
        exact ih (hleaves.present hcandidate hthis hpresent) hleaves.session hcandidates hmemRest
          hrest

end Steps

section Runs

variable {library : Library} {file : DescribedFile library} {start now : Intake}

theorem DescribedFile.Kept.retried (h : file.Kept (start.moved.count file.name) now) :
    file.Retried start now where
  notMoved := h.notMoved
  waiting hnot := h.place.resolve_right fun hgone => hnot hgone.1
  next plan hreached := by
    cases h.place with
    | inl hpresent =>
      have ⟨_, _, hsplit, _⟩ := List.lookup_eq_some_iff.mp hpresent.here
      have hmem : file.name ∈ candidates now := by simp [candidates, hsplit, file.candidate]
      rw [scanOnce_world]
      have hsession : file.Present (newSession now) := ⟨hpresent.here, hpresent.sidecar⟩
      exact hsession.reached (.refl _) candidates_candidate hmem hreached
    | inr hgone =>
      have hsecured : file.Secured (newSession now) := ⟨.refl _, hgone.1⟩
      exact (scanOnce_invariant (fun _ _ _ h _ => DescribedFile.Secured.ingestOne h) hsecured
        (eachFile_true _ _)).2

theorem DescribedFile.Kept.dropped {moved : ℕ} {name : Text} {content : Content}
    (h : file.Kept moved now) (hname : name ≠ file.name) (hsidecar : name ≠ sidecarOf file.name) :
    file.Kept moved { now with folder := Dict.set name content now.folder } where
  notMoved := h.notMoved
  place := by
    cases h.place with
    | inl hpresent =>
      exact .inl ⟨(Dict.lookup_set_other hname.symm).trans hpresent.here,
        (Dict.lookup_set_other hsidecar.symm).trans hpresent.sidecar⟩
    | inr hgone => exact .inr ⟨hgone.1, (Dict.lookup_set_other hname.symm).trans hgone.2⟩

theorem DescribedFile.Kept.step {moved : ℕ} {next : Intake} {step : IntakeStep}
    (h : file.Kept moved now) (hok : file.LeavesUndisturbed now step)
    (hstep : intakeStep library now step = some next) : file.Kept moved next := by
  cases step with
  | dropFile name content =>
    have ⟨hallowed, hset⟩ := Option.ite_none_right_eq_some.mp hstep
    cases hset
    have hcandidate : isCandidate name := (Bool.and_eq_true_iff.mp hallowed).1
    exact h.dropped hok (ne_sidecarOf_of_candidate hcandidate)
  | dropSidecar name bytes =>
    cases hstep
    exact h.dropped (ne_sidecarOf_of_candidate file.candidate).symm
      fun heq => hok (sidecarOf_injective heq)
  | scan plan =>
    cases hstep
    have hplace : file.Present (newSession now) ∨ (file.Ingested (newSession now) ∧
        (newSession now).folder.lookup file.name = none) :=
      h.place.imp_left fun hpresent => ⟨hpresent.here, hpresent.sidecar⟩
    have hscanned : file.Scanned moved (newSession now) := ⟨.refl _, h.notMoved, hplace⟩
    exact (scanOnce_invariant (fun _ _ hname hs hundisturbed => hs.ingestOne hname hundisturbed)
      hscanned hok).2

/-- Where nothing fails on a file that a scan has taken up, a described file is ingested by the
next scan that comes to it, and until then it waits with its sidecar. -/
theorem transient_failures {steps : List IntakeStep} (hpresent : file.Present start)
    (hok : AllSteps (intakeStep library) file.LeavesUndisturbed start steps) :
    Throughout (intakeStep library) (file.Retried start) start steps := by
  have hkept : file.Kept (start.moved.count file.name) start := ⟨rfl, .inl hpresent⟩
  apply Throughout.imp (throughout_of_invariant hkept
    (fun _ _ _ hs hok hstep => hs.step hok hstep) hok)
  exact fun _ h => h.retried

end Runs

/-! ## Runs -/

section Decide

variable {library : Library} {file : DescribedFile library}

instance : DecidablePred file.Present := fun _ =>
  decidable_of_iff (_ ∧ _) ⟨fun h => ⟨h.1, h.2⟩, fun h => ⟨h.here, h.sidecar⟩⟩

instance (faults : Faults) (intake : Intake) : Decidable (file.Undisturbed faults intake) :=
  inferInstanceAs (Decidable (_ = true ∧ Admits _ _ _))

instance : ∀ now step, Decidable (file.LeavesUndisturbed now step)
  | _, .dropFile name _ | _, .dropSidecar name _ => inferInstanceAs (Decidable (name ≠ file.name))
  | now, .scan plan => inferInstanceAs (Decidable (EachFile library plan
      (fun name intake => name = file.name → file.Present intake →
        file.Undisturbed (plan name).1 intake) (candidates now) (newSession now)))

end Decide

def districtRequest : BatchRequest where
  mime := .text "image/png".toList
  batchId := .none
  metadata :=
    { district := .text "Moga".toList
      tehsil := .none
      village := .none
      series := .none
      custodian := .none
      scanningDate := none }

def describedFile : DescribedFile oneSidecar where
  name := "b".toList
  content := [2]
  bytes := districtBytes
  sidecar := districtSidecar
  request := districtRequest
  candidate := by decide +kernel
  loads := by simp only [oneSidecar, if_true]
  requested := rfl
  district := ⟨"Moga".toList, rfl, by decide +kernel⟩
  mime := ⟨"image/png".toList, by decide +kernel, rfl⟩

def folderWith (earlier : Directory) : Intake where
  folder := earlier ++ [("b".toList, [2]), (sidecarOf "b".toList, districtBytes)]

/-- A put that fails once has the next scan reject the file. -/
theorem failure_rejects : ¬ ∀ (library : Library) (file : DescribedFile library) (start : Intake)
    (plans : List ScanPlan), file.Present start →
    Throughout (intakeStep library) (file.Retried start) start (plans.map .scan) := by
  intro h
  have hdone : (run (intakeStep oneSidecar) (folderWith []) [brokenScan, quietScan]).isSome := by
    decide +kernel
  have hend : ∀ now ∈ run (intakeStep oneSidecar) (folderWith []) [brokenScan, quietScan],
      now.moved = [describedFile.name] := by decide +kernel
  have ⟨now, hrun⟩ := Option.isSome_iff_exists.mp hdone
  have hpresent : describedFile.Present (folderWith []) := by decide +kernel
  have hretried := (h oneSidecar describedFile (folderWith [])
    [planUnder { primaryPut := .raises false "unavailable".toList }, planUnder {}] hpresent).at_run
    hrun
  have hmoved := hretried.notMoved
  rw [hend now hrun, List.count_singleton_self] at hmoved
  cases hmoved

def neighbourFolder : Intake :=
  folderWith [("a".toList, [1]), (sidecarOf "a".toList, districtBytes)]

def neighbourFails : List IntakeStep :=
  [.scan fun name => planUnder (if name = "a".toList then
      { primaryPut := .raises false "unavailable".toList } else {}) name, quietScan]

theorem transient_failures_sample :
    (describedFile.Present neighbourFolder ∧
      AllSteps (intakeStep oneSidecar) describedFile.LeavesUndisturbed neighbourFolder
        neighbourFails) ∧
    Throughout (intakeStep oneSidecar) (describedFile.Retried neighbourFolder) neighbourFolder
      neighbourFails := by
  have hpresent : describedFile.Present neighbourFolder := by decide +kernel
  have hundisturbed : AllSteps (intakeStep oneSidecar) describedFile.LeavesUndisturbed
      neighbourFolder neighbourFails := by decide +kernel
  exact ⟨⟨hpresent, hundisturbed⟩, transient_failures hpresent hundisturbed⟩

end LandRecords.Ingest
