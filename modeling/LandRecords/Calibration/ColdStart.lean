import LandRecords.Calibration.Calibrator
import Mathlib

/-! The cold-start ramp over whole runs: what evidence each transition takes, and what evidence
must have come since the last alert where fields are accepted without a reviewer. -/
namespace LandRecords.Calibration

namespace ColdStartState

def value : ColdStartState → Text
  | .shadow => "shadow".toList
  | .ramp => "ramp".toList
  | .steady => "steady".toList
  | .regression => "regression".toList

def validTargets : ColdStartState → List ColdStartState
  | .shadow => [.ramp, .shadow]
  | .ramp => [.ramp, .regression, .steady]
  | .steady => [.regression, .steady]
  | .regression => [.ramp, .regression]

end ColdStartState

def listRepr (values : List Text) : Text :=
  '[' :: Text.join ", ".toList (values.map fun value => '\'' :: value ++ ['\'']) ++ [']']

def illegalTransition (fromState toState : ColdStartState) : Text :=
  "Illegal state transition from ".toList ++ fromState.value ++ " to ".toList ++ toState.value ++
    ". Allowed targets: ".toList ++ listRepr (fromState.validTargets.map ColdStartState.value)

def validateTransition (fromState toState : ColdStartState) : Except Raised Unit :=
  Raised.require (toState ∈ fromState.validTargets)
    (.valueError (illegalTransition fromState toState))

structure ColdStartThresholds where
  minShadowEvidence : Int
  minRampEvidence : Int
  minRecoveryEvidence : Int

structure ColdStartEvidence where
  sampleCount : Int := 0
  calibrationVerified : Bool := false
  errorTargetMet : Bool := false
  regressionAlert : Bool := false
  recoveryEvidenceVerified : Bool := false
deriving DecidableEq

def targetState (exitConditionsMet regressionAlert recoveryConditionsMet : Bool) :
    ColdStartState → ColdStartState
  | .shadow => if exitConditionsMet then .ramp else .shadow
  | .ramp =>
      if regressionAlert then .regression
      else if exitConditionsMet then .steady
      else .ramp
  | .steady => if regressionAlert then .regression else .steady
  | .regression => if regressionAlert || !recoveryConditionsMet then .regression else .ramp

def nextState (current : ColdStartState)
    (exitConditionsMet regressionAlert recoveryConditionsMet : Bool) :
    Except Raised ColdStartState := do
  let target := targetState exitConditionsMet regressionAlert recoveryConditionsMet current
  validateTransition current target
  return target

section Transition

variable (thresholds : ColdStartThresholds)

def ColdStartEvidence.qualifies (evidence : ColdStartEvidence) : Bool :=
  thresholds.minRampEvidence ≤ evidence.sampleCount && evidence.calibrationVerified &&
    evidence.errorTargetMet

def ColdStartEvidence.recovers (evidence : ColdStartEvidence) : Bool :=
  evidence.recoveryEvidenceVerified && thresholds.minRecoveryEvidence ≤ evidence.sampleCount

def evaluateColdStartTransition (current : ColdStartState) (evidence : ColdStartEvidence) :
    Except Raised ColdStartState :=
  match current with
  | .shadow =>
      nextState current (thresholds.minShadowEvidence ≤ evidence.sampleCount) false false
  | .ramp =>
      if evidence.regressionAlert then nextState current false true false
      else nextState current (evidence.qualifies thresholds) false false
  | .steady =>
      if evidence.regressionAlert then nextState current false true false
      else nextState current false false false
  | .regression =>
      if evidence.regressionAlert then nextState current false true false
      else nextState current false false (evidence.recovers thresholds)

def coldStartRun (start : ColdStartState) (history : List ColdStartEvidence) :
    Except Raised ColdStartState :=
  history.foldlM (evaluateColdStartTransition thresholds) start

end Transition

/-! ## One transition -/

variable {thresholds : ColdStartThresholds}

theorem nextState_eq (current : ColdStartState)
    (exitConditionsMet regressionAlert recoveryConditionsMet : Bool) :
    nextState current exitConditionsMet regressionAlert recoveryConditionsMet =
      .ok (targetState exitConditionsMet regressionAlert recoveryConditionsMet current) := by
  cases current <;> cases exitConditionsMet <;> cases regressionAlert <;>
    cases recoveryConditionsMet <;> rfl

def advanced (thresholds : ColdStartThresholds) (current : ColdStartState)
    (evidence : ColdStartEvidence) : ColdStartState :=
  match current with
  | .shadow => if thresholds.minShadowEvidence ≤ evidence.sampleCount then .ramp else .shadow
  | .ramp =>
      if evidence.regressionAlert then .regression
      else if evidence.qualifies thresholds then .steady
      else .ramp
  | .steady => if evidence.regressionAlert then .regression else .steady
  | .regression =>
      if evidence.regressionAlert then .regression
      else if evidence.recovers thresholds then .ramp
      else .regression

theorem evaluateColdStartTransition_eq (current : ColdStartState) (evidence : ColdStartEvidence) :
    evaluateColdStartTransition thresholds current evidence =
      .ok (advanced thresholds current evidence) := by
  unfold evaluateColdStartTransition advanced
  simp only [nextState_eq]
  cases current with
  | shadow => simp [targetState]
  | ramp => cases evidence.regressionAlert <;> simp [targetState]
  | steady => cases evidence.regressionAlert <;> simp [targetState]
  | regression =>
    cases evidence.regressionAlert
    · cases evidence.recovers thresholds <;> rfl
    · rfl

theorem coldStartRun_eq (start : ColdStartState) (history : List ColdStartEvidence) :
    coldStartRun thresholds start history = .ok (history.foldl (advanced thresholds) start) := by
  have hpure : evaluateColdStartTransition thresholds =
      fun current evidence => pure (advanced thresholds current evidence) := by
    funext current evidence
    exact evaluateColdStartTransition_eq current evidence
  rw [coldStartRun, hpure, List.foldlM_pure]
  rfl

theorem advanced_steady {current : ColdStartState} {evidence : ColdStartEvidence}
    (h : advanced thresholds current evidence = .steady) :
    evidence.regressionAlert = false ∧ (current = .steady ∨
      current = .ramp ∧ evidence.qualifies thresholds = true) := by
  cases current with
  | shadow =>
    by_cases hsamples : thresholds.minShadowEvidence ≤ evidence.sampleCount <;>
      simp [advanced, hsamples] at h
  | ramp =>
    cases halert : evidence.regressionAlert
    · cases hqualifies : evidence.qualifies thresholds
      · simp [advanced, halert, hqualifies] at h
      · exact ⟨rfl, .inr ⟨rfl, rfl⟩⟩
    · simp [advanced, halert] at h
  | steady =>
    cases halert : evidence.regressionAlert
    · exact ⟨rfl, .inl rfl⟩
    · simp [advanced, halert] at h
  | regression =>
    cases halert : evidence.regressionAlert <;>
      cases hrecovers : evidence.recovers thresholds <;>
        simp [advanced, halert, hrecovers] at h

theorem advanced_ramp {current : ColdStartState} {evidence : ColdStartEvidence}
    (h : advanced thresholds current evidence = .ramp) :
    current = .shadow ∨ current = .ramp ∨ current = .regression ∧
      evidence.recovers thresholds = true ∧ evidence.regressionAlert = false := by
  cases current with
  | shadow => exact .inl rfl
  | ramp => exact .inr (.inl rfl)
  | steady => cases halert : evidence.regressionAlert <;> simp [advanced, halert] at h
  | regression =>
    cases halert : evidence.regressionAlert
    · cases hrecovers : evidence.recovers thresholds
      · simp [advanced, halert, hrecovers] at h
      · exact .inr (.inr ⟨rfl, rfl, rfl⟩)
    · simp [advanced, halert] at h

theorem advanced_shadow {current : ColdStartState} {evidence : ColdStartEvidence}
    (h : advanced thresholds current evidence = .shadow) : current = .shadow := by
  cases current with
  | shadow => rfl
  | ramp =>
    cases halert : evidence.regressionAlert <;>
      cases hqualifies : evidence.qualifies thresholds <;>
        simp [advanced, halert, hqualifies] at h
  | steady => cases halert : evidence.regressionAlert <;> simp [advanced, halert] at h
  | regression =>
    cases halert : evidence.regressionAlert <;>
      cases hrecovers : evidence.recovers thresholds <;>
        simp [advanced, halert, hrecovers] at h

theorem advanced_of_alert {current : ColdStartState} {evidence : ColdStartEvidence}
    (hlive : current = .ramp ∨ current = .steady) (halert : evidence.regressionAlert = true) :
    advanced thresholds current evidence = .regression := by
  rcases hlive with rfl | rfl <;> exact if_pos halert

/-! ## After an alert -/

def afterAlert (thresholds : ColdStartThresholds) (history : List ColdStartEvidence) :
    ColdStartState :=
  history.foldl (advanced thresholds) .regression

theorem afterAlert_concat (history : List ColdStartEvidence) (evidence : ColdStartEvidence) :
    afterAlert thresholds (history ++ [evidence]) =
      advanced thresholds (afterAlert thresholds history) evidence := by
  rw [afterAlert, List.foldl_append]
  rfl

/-- The history has a step of recovery. -/
def Recovered (thresholds : ColdStartThresholds) (history : List ColdStartEvidence) : Prop :=
  ∃ before recovery after, history = before ++ recovery :: after ∧
    recovery.recovers thresholds = true ∧ recovery.regressionAlert = false

/-- Behind a recovery, the history has a step in RAMP that qualifies. -/
def Requalified (thresholds : ColdStartThresholds) (history : List ColdStartEvidence) : Prop :=
  ∃ before step after, history = before ++ step :: after ∧ Recovered thresholds before ∧
    afterAlert thresholds before = .ramp ∧ step.qualifies thresholds = true ∧
      step.regressionAlert = false

theorem Recovered.append {history : List ColdStartEvidence} (h : Recovered thresholds history)
    (later : List ColdStartEvidence) : Recovered thresholds (history ++ later) := by
  obtain ⟨before, recovery, after, hhistory, hrecovers⟩ := h
  exact ⟨before, recovery, after ++ later, by simp [hhistory], hrecovers⟩

theorem Requalified.append {history : List ColdStartEvidence} (h : Requalified thresholds history)
    (later : List ColdStartEvidence) : Requalified thresholds (history ++ later) := by
  obtain ⟨before, step, after, hhistory, hqualified⟩ := h
  exact ⟨before, step, after ++ later, by simp [hhistory], hqualified⟩

theorem afterAlert_ne_shadow (history : List ColdStartEvidence) :
    afterAlert thresholds history ≠ .shadow := by
  induction history using List.reverseRecOn with
  | nil => simp [afterAlert]
  | append_singleton history evidence ih =>
    rw [afterAlert_concat]
    exact fun h => ih (advanced_shadow h)

theorem recovered_of_afterAlert (history : List ColdStartEvidence) :
    (afterAlert thresholds history = .ramp → Recovered thresholds history) ∧
      (afterAlert thresholds history = .steady →
        Recovered thresholds history ∧ Requalified thresholds history) := by
  induction history using List.reverseRecOn with
  | nil => simp [afterAlert]
  | append_singleton history evidence ih =>
    rw [afterAlert_concat]
    constructor
    · intro h
      rcases advanced_ramp h with hshadow | hramp | ⟨-, hrecovers⟩
      · exact absurd hshadow (afterAlert_ne_shadow history)
      · exact (ih.1 hramp).append [evidence]
      · exact ⟨history, evidence, [], rfl, hrecovers⟩
    · intro h
      obtain ⟨halert, hsteady | ⟨hramp, hqualifies⟩⟩ := advanced_steady h
      · exact ⟨(ih.2 hsteady).1.append [evidence], (ih.2 hsteady).2.append [evidence]⟩
      · have hrecovered := ih.1 hramp
        exact ⟨hrecovered.append [evidence],
          ⟨history, evidence, [], rfl, hrecovered, hramp, hqualifies, halert⟩⟩

/-! ## Whole runs -/

theorem coldStartRun_append {start s t : ColdStartState} {front rest : List ColdStartEvidence}
    (hfront : coldStartRun thresholds start front = .ok s)
    (h : coldStartRun thresholds start (front ++ rest) = .ok t) :
    t = rest.foldl (advanced thresholds) s := by
  rw [coldStartRun_eq] at hfront h
  rw [← Except.ok.inj h, List.foldl_append, Except.ok.inj hfront]

/-- No step raises, STEADY is entered only from RAMP by evidence that qualifies, and after an
alert nothing is accepted without a reviewer before a recovery, nor is the state STEADY before a
further step in RAMP that qualifies. -/
theorem coldStart_ramp (thresholds : ColdStartThresholds) :
    (∀ history, ∃ s, coldStartRun thresholds .shadow history = .ok s) ∧
    (∀ history evidence s, coldStartRun thresholds .shadow history = .ok s → s ≠ .steady →
      evaluateColdStartTransition thresholds s evidence = .ok .steady →
        s = .ramp ∧ thresholds.minRampEvidence ≤ evidence.sampleCount ∧
          evidence.calibrationVerified = true ∧ evidence.errorTargetMet = true ∧
          evidence.regressionAlert = false) ∧
    ∀ history alert later s t, coldStartRun thresholds .shadow history = .ok s →
      s = .ramp ∨ s = .steady → alert.regressionAlert = true →
      coldStartRun thresholds .shadow (history ++ alert :: later) = .ok t →
        ((getOperationalPosture t).autoAcceptAllowed = true → Recovered thresholds later) ∧
          (t = .steady → Requalified thresholds later) := by
  refine ⟨fun history => ⟨_, coldStartRun_eq .shadow history⟩, ?_, ?_⟩
  · intro history evidence s _ hs hsteady
    rw [evaluateColdStartTransition_eq] at hsteady
    obtain ⟨halert, hkept | ⟨hramp, hqualifies⟩⟩ := advanced_steady (Except.ok.inj hsteady)
    · exact absurd hkept hs
    · simp only [ColdStartEvidence.qualifies, Bool.and_eq_true, decide_eq_true_eq] at hqualifies
      exact ⟨hramp, hqualifies.1.1, hqualifies.1.2, hqualifies.2, halert⟩
  · intro history alert later s t hs hlive halert ht
    have hstate : t = afterAlert thresholds later := by
      rw [coldStartRun_append hs ht, List.foldl_cons, advanced_of_alert hlive halert]
      rfl
    have hlater := @recovered_of_afterAlert thresholds later
    rw [← hstate] at hlater
    constructor
    · intro haccept
      cases (autoAcceptAllowed_iff t).mp haccept with
      | inl hramp => exact hlater.1 hramp
      | inr hsteady => exact (hlater.2 hsteady).1
    · exact fun hsteady => (hlater.2 hsteady).2

def sampleThresholds : ColdStartThresholds := ⟨2, 3, 4⟩

def qualifying : ColdStartEvidence :=
  { sampleCount := 3, calibrationVerified := true, errorTargetMet := true }

def alarming : ColdStartEvidence := { qualifying with regressionAlert := true }

def recovering : ColdStartEvidence := { sampleCount := 4, recoveryEvidenceVerified := true }

/-- Up to STEADY, down by an alert, and up again by a recovery and a step in RAMP. -/
example : [[], [qualifying], [qualifying, qualifying], [qualifying, qualifying, alarming],
      [qualifying, qualifying, alarming, qualifying],
      [qualifying, qualifying, alarming, qualifying, recovering],
      [qualifying, qualifying, alarming, qualifying, recovering, qualifying]].map
        (coldStartRun sampleThresholds .shadow) =
    [.ok .shadow, .ok .ramp, .ok .steady, .ok .regression, .ok .regression, .ok .ramp, .ok .steady] := by
  decide

end LandRecords.Calibration
