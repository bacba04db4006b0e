import LandRecords.Calibration.DecisionFlow

/-! What stands between an extraction and its automatic acceptance. Each gate is
read back from a call that returned; the gates that come first decide alone. -/
namespace LandRecords.Calibration

open Backend

variable {ν : Type} [Numeric ν] (conversions : Conversions ν) (call : DecisionCall ν)

/-- The explicit flag, the supplied result or, where none is supplied, the detector's
result says that the input is outside the regime. -/
def SaysOutside : Prop :=
  call.isOutsideRegime = true ∨
    (∃ r, call.noveltyResult = some r ∧ r.isOutsideRegime = true) ∨
    (call.noveltyResult = none ∧ ∃ detector features noveltyFeatures r,
      call.noveltyDetector = some detector ∧
      extractionToCalibratorFeatures conversions call = .ok features ∧
      noveltyFeaturesFor conversions call features = .ok noveltyFeatures ∧
      detector noveltyFeatures call.noveltyPolicy = .ok r ∧ r.isOutsideRegime = true)

def VerdictFails (vr : Dict ν) : Prop :=
  ∃ verdict, vr.get "verdict".toList = .text verdict ∧ verdict.lower = "fail".toList

structure SafelyAccepted (calibResult : CalibrationResult ν) : Prop where
  inRegime : ¬ SaysOutside conversions call
  unfailed : ∀ vr ∈ call.validationResults.getD [],
    namesExtraction (call.extraction.get "id".toList) vr = .ok true → ¬ VerdictFails vr
  unflagged : call.isConflict = false
  confident : ∃ required, call.thresholdPolicy.requiredConfidence = .ok required ∧
    Numeric.le required calibResult.calibratedConfidence = true
  posture : call.coldStartState = .ramp ∨ call.coldStartState = .steady
  unaudited : call.forceAuditSample = false ∧ ∀ auditSelector ∈ call.auditSelector,
    auditSelector ((call.extraction.getD "id".toList (.text [])).str conversions) = .ok false

/-! ## One gate at a time -/

variable {conversions call}

theorem text_eq_autoAccept {outcome : RoutingOutcome}
    (h : outcome.text = RoutingOutcome.autoAccept.text) : outcome = .autoAccept := by
  cases outcome with
  | autoAccept => rfl
  | auditSample | review | conflict | outsideCalibratedRegime => exact absurd h (by decide)

theorem routingOutcome_eq_autoAccept {meetsThreshold isConflict isOutsideRegime isAuditSample : Bool}
    {posture : OperationalPosture} :
    routingOutcome meetsThreshold posture isConflict isOutsideRegime isAuditSample = .autoAccept ↔
      isOutsideRegime = false ∧ isConflict = false ∧ meetsThreshold = true ∧
        posture.autoAcceptAllowed = true ∧ isAuditSample = false := by
  unfold routingOutcome
  cases isOutsideRegime <;> cases isConflict <;> cases meetsThreshold <;>
    cases posture.autoAcceptAllowed <;> cases isAuditSample <;> simp

theorem isAutoAcceptable_eq_ok {policy : ThresholdPolicy ν} {confidence : ν}
    (h : policy.isAutoAcceptable confidence = .ok true) :
    ∃ required, policy.requiredConfidence = .ok required ∧
      Numeric.le required confidence = true := by
  obtain ⟨required, hrequired, hle⟩ := Raised.bind_eq_ok.mp h
  exact ⟨required, hrequired, Except.ok.inj hle⟩

section Routing

variable {calibResult : CalibrationResult ν} {policy : ThresholdPolicy ν} {state : ColdStartState}
  {isConflict isOutsideRegime isAuditSample : Bool} {decision : RoutingDecision ν}

theorem determineRoutingOutcome_eq_ok
    (h : determineRoutingOutcome calibResult policy state isConflict isOutsideRegime isAuditSample =
      .ok decision) :
    decision.calibratedConfidence = calibResult.calibratedConfidence ∧ ∃ meetsThreshold,
      decision.outcome = routingOutcome meetsThreshold (getOperationalPosture state) isConflict
        isOutsideRegime isAuditSample ∧
      (isOutsideRegime = false → isConflict = false →
        policy.isAutoAcceptable calibResult.calibratedConfidence = .ok meetsThreshold) := by
  obtain ⟨meetsThreshold, hmeets, h⟩ := Raised.bind_eq_ok.mp h
  cases h
  refine ⟨rfl, meetsThreshold, rfl, fun hregime hconflict => ?_⟩
  simpa [hregime, hconflict] using hmeets

theorem outcome_of_outside
    (h : determineRoutingOutcome calibResult policy state isConflict true isAuditSample =
      .ok decision) : decision.outcome = .outsideCalibratedRegime := by
  obtain ⟨_, meetsThreshold, houtcome, _⟩ := determineRoutingOutcome_eq_ok h
  exact houtcome

theorem gates_of_autoAccept
    (h : determineRoutingOutcome calibResult policy state isConflict isOutsideRegime isAuditSample =
      .ok decision) (haccept : decision.outcome = .autoAccept) :
    isOutsideRegime = false ∧ isConflict = false ∧
      (∃ required, policy.requiredConfidence = .ok required ∧
        Numeric.le required calibResult.calibratedConfidence = true) ∧
      (state = .ramp ∨ state = .steady) ∧ isAuditSample = false := by
  obtain ⟨_, meetsThreshold, houtcome, hmeets⟩ := determineRoutingOutcome_eq_ok h
  obtain ⟨hregime, hconflict, rfl, hposture, haudit⟩ :=
    routingOutcome_eq_autoAccept.mp (houtcome.symm.trans haccept)
  exact ⟨hregime, hconflict, isAutoAcceptable_eq_ok (hmeets hregime hconflict),
    (autoAcceptAllowed_iff state).mp hposture, haudit⟩

end Routing

theorem saysOutside_iff {features : CalibratorFeatures ν} {result : Option (NoveltyResult ν)}
    (hfeatures : extractionToCalibratorFeatures conversions call = .ok features)
    (hresult : activeNoveltyResult conversions call features = .ok result) :
    SaysOutside conversions call ↔
      (call.isOutsideRegime || result.any NoveltyResult.isOutsideRegime) = true := by
  unfold SaysOutside
  unfold activeNoveltyResult at hresult
  cases hsupplied : call.noveltyResult with
  | some supplied =>
    rw [hsupplied] at hresult
    cases hresult
    simp
  | none =>
    rw [hsupplied] at hresult
    cases hdetector : call.noveltyDetector with
    | none =>
      rw [hdetector] at hresult
      cases hresult
      simp
    | some detector =>
      rw [hdetector] at hresult
      obtain ⟨noveltyFeatures, hnovelty, hresult⟩ := Raised.bind_eq_ok.mp hresult
      obtain ⟨r, hr, hresult⟩ := Raised.bind_eq_ok.mp hresult
      cases hresult
      simp [hfeatures, hnovelty, hr]

theorem hasValidatorFailure_eq_false {extractionId : Value ν} {results : List (Dict ν)}
    (h : hasValidatorFailure conversions extractionId results = .ok false) :
    ∀ vr ∈ results, namesExtraction extractionId vr = .ok true → ¬ VerdictFails vr := by
  induction results with
  | nil => exact fun vr hvr => absurd hvr List.not_mem_nil
  | cons first rest ih =>
    obtain ⟨named, hnamed, h⟩ := Raised.bind_eq_ok.mp h
    rw [List.forall_mem_cons]
    cases named with
    | false =>
      refine ⟨fun hnames => ?_, ih h⟩
      rw [hnamed] at hnames
      exact nomatch hnames
    | true =>
      simp only [if_true] at h
      split at h
      · exact nomatch h
      · rename_i hverdict
        refine ⟨fun _ hfails => ?_, ih h⟩
        obtain ⟨verdict, hget, hlower⟩ := hfails
        apply hverdict
        have hlookup : first.lookup "verdict".toList = some (.text verdict) := by
          unfold Dict.get Dict.getD at hget
          cases hfound : first.lookup "verdict".toList with
          | none =>
            rw [hfound] at hget
            exact nomatch hget
          | some found =>
            rw [hfound] at hget
            exact congrArg some hget
        rw [Dict.getD, hlookup]
        exact hlower

theorem unaudited_of_eq_false (h : selectedForAudit conversions call = .ok false) :
    call.forceAuditSample = false ∧ ∀ auditSelector ∈ call.auditSelector,
      auditSelector ((call.extraction.getD "id".toList (.text [])).str conversions) =
        .ok false := by
  unfold selectedForAudit at h
  cases hforce : call.forceAuditSample with
  | true =>
    rw [hforce] at h
    exact nomatch h
  | false =>
    refine ⟨rfl, fun auditSelector hselector => ?_⟩
    rw [hforce, Option.mem_def.mp hselector] at h
    exact h

/-! ## The payload -/

section Payload

variable {decision : RoutingDecision ν} {noveltyScore version : Value ν} {config : Text}

theorem updatedExtraction_outcome :
    (updatedExtraction call decision noveltyScore version config).get "routing_outcome".toList =
      .text decision.outcome.text := by
  unfold updatedExtraction
  rw [Dict.get_set_other (by decide), Dict.get_set_other (by decide), Dict.get_set_self]

theorem updatedExtraction_confidence :
    (updatedExtraction call decision noveltyScore version config).get
      "calibrated_confidence".toList = .number decision.calibratedConfidence := by
  unfold updatedExtraction
  rw [Dict.get_set_other (by decide), Dict.get_set_other (by decide),
    Dict.get_set_other (by decide), Dict.get_set_other (by decide), Dict.get_set_self]

omit [Numeric ν] in
theorem publish_payload {messageId emittedAt traceId : Text} {extraction workEnvelope : Dict ν}
    {clusterId : Option Text} :
    (publish messageId emittedAt extraction workEnvelope traceId clusterId).get "payload".toList =
      .dict extraction := by
  unfold publish
  cases clusterId with
  | none => rfl
  | some clusterId =>
    rw [Dict.get_set_other (by decide)]
    rfl

end Payload

theorem processExtractionForDecision_eq_ok {messageId emittedAt : Text} {updated : Dict ν}
    {calibResult : CalibrationResult ν} {published : Option (Dict ν)}
    (h : processExtractionForDecision conversions call messageId emittedAt =
      .ok (updated, calibResult, published)) :
    ∃ features result validatorFailure audited decision noveltyScore version config,
      extractionToCalibratorFeatures conversions call = .ok features ∧
      activeNoveltyResult conversions call features = .ok result ∧
      hasValidatorFailure conversions (call.extraction.get "id".toList)
        (call.validationResults.getD []) = .ok validatorFailure ∧
      selectedForAudit conversions call = .ok audited ∧
      determineRoutingOutcome calibResult call.thresholdPolicy call.coldStartState
        (call.isConflict || validatorFailure)
        (call.isOutsideRegime || result.any NoveltyResult.isOutsideRegime) audited =
          .ok decision ∧
      updated = updatedExtraction call decision noveltyScore version config ∧
      published = if call.publishToQueue then
        some (publish messageId emittedAt updated call.workEnvelope call.traceId
          (call.noveltyClusterId.or (result.bind NoveltyResult.clusterId)))
        else none := by
  obtain ⟨⟨models, config⟩, -, h⟩ := Raised.bind_eq_ok.mp h
  obtain ⟨calibrator, -, h⟩ := Raised.bind_eq_ok.mp h
  obtain ⟨features, hfeatures, h⟩ := Raised.bind_eq_ok.mp h
  obtain ⟨result, hresult, h⟩ := Raised.bind_eq_ok.mp h
  obtain ⟨noveltyScore, -, h⟩ := Raised.bind_eq_ok.mp h
  obtain ⟨calib, -, h⟩ := Raised.bind_eq_ok.mp h
  obtain ⟨validatorFailure, hfailure, h⟩ := Raised.bind_eq_ok.mp h
  obtain ⟨audited, haudited, h⟩ := Raised.bind_eq_ok.mp h
  obtain ⟨decision, hdecision, h⟩ := Raised.bind_eq_ok.mp h
  obtain ⟨version, -, h⟩ := Raised.bind_eq_ok.mp h
  cases h
  exact ⟨features, result, validatorFailure, audited, decision, noveltyScore, version, config,
    hfeatures, hresult, hfailure, haudited, hdecision, rfl, rfl⟩

theorem processExtractionForDecision_safe {messageId emittedAt : Text} {updated : Dict ν}
    {calibResult : CalibrationResult ν} {published : Option (Dict ν)}
    (h : processExtractionForDecision conversions call messageId emittedAt =
      .ok (updated, calibResult, published)) :
    (updated.get "routing_outcome".toList = .text RoutingOutcome.autoAccept.text →
      SafelyAccepted conversions call calibResult) ∧
    (SaysOutside conversions call → updated.get "routing_outcome".toList =
      .text RoutingOutcome.outsideCalibratedRegime.text) ∧
    updated.get "calibrated_confidence".toList = .number calibResult.calibratedConfidence ∧
    ∀ envelope, published = some envelope → ∃ payload : Dict ν,
      envelope.get "payload".toList = .dict payload ∧
      payload.get "routing_outcome".toList = updated.get "routing_outcome".toList ∧
      payload.get "calibrated_confidence".toList = updated.get "calibrated_confidence".toList := by
  obtain ⟨features, result, validatorFailure, audited, decision, noveltyScore, version, config,
    hfeatures, hresult, hfailure, haudited, hdecision, hupdated, hpublished⟩ :=
    processExtractionForDecision_eq_ok h
  have hregime := saysOutside_iff hfeatures hresult
  have houtcome : updated.get "routing_outcome".toList = .text decision.outcome.text :=
    hupdated ▸ updatedExtraction_outcome
  refine ⟨?accepted, ?outside, ?confidence, ?published⟩
  case accepted =>
    intro haccept
    have hdecided := text_eq_autoAccept (Value.text.inj (houtcome.symm.trans haccept))
    obtain ⟨hinside, hconflict, hconfident, hposture, haudit⟩ :=
      gates_of_autoAccept hdecision hdecided
    obtain ⟨hunflagged, hunfailed⟩ := Bool.or_eq_false_iff.mp hconflict
    subst hunfailed haudit
    refine ⟨fun houtside => ?_, hasValidatorFailure_eq_false hfailure, hunflagged, hconfident,
      hposture, unaudited_of_eq_false haudited⟩
    rw [hregime.mp houtside] at hinside
    exact Bool.noConfusion hinside
  case outside =>
    intro houtside
    rw [hregime.mp houtside] at hdecision
    rw [houtcome, outcome_of_outside hdecision]
  case confidence =>
    rw [hupdated, updatedExtraction_confidence, (determineRoutingOutcome_eq_ok hdecision).1]
  case published =>
    intro envelope henvelope
    rw [hpublished] at henvelope
    split at henvelope
    · cases henvelope
      exact ⟨updated, publish_payload, rfl, rfl⟩
    · exact nomatch henvelope

/-! A field recognised with confidence 0.97 against a target error rate of 0.05. No
conversion is asked of a value that is not a text. -/

def sampleConversions : Conversions Float where
  repr _ := []
  parse text := .error (.valueError ("could not convert string to float: ".toList ++ text))

def acceptedCall : DecisionCall Float where
  extraction := [("id".toList, .text "ext-001".toList),
    ("field_name".toList, .text "survey_number".toList),
    ("engine".toList, .text "printed_ocr".toList), ("token_confidence".toList, .number 0.92)]
  workEnvelope := [("model_versions".toList,
      .dict [("confidence_calibrator".toList, .text "calibrator_v1.0.0".toList)]),
    ("config_version".toList, .text "cfg_2026_09".toList)]
  calibrator := some (.inr fun _ => .ok (0.97, []))
  thresholdPolicy := ⟨0.05, by decide +kernel⟩
  traceId := "document:page".toList
  validationResults := some [[("fields".toList, .list [.text "ext-002".toList]),
    ("verdict".toList, .text "FAIL".toList)]]

def acceptedRun : Except Raised (Dict Float × CalibrationResult Float × Option (Dict Float)) :=
  processExtractionForDecision sampleConversions acceptedCall "message".toList "now".toList

theorem acceptedRun_outcome :
    (match acceptedRun with
      | .ok (updated, _) =>
          match updated.get "routing_outcome".toList with
          | .text outcome => outcome == RoutingOutcome.autoAccept.text
          | _ => false
      | .error _ => false) = true := by
  decide +kernel

theorem processExtractionForDecision_safe_accepted :
    ∃ updated calibResult published, acceptedRun = .ok (updated, calibResult, published) ∧
      SafelyAccepted sampleConversions acceptedCall calibResult := by
  have houtcome := acceptedRun_outcome
  cases hrun : acceptedRun with
  | error e =>
    rw [hrun] at houtcome
    exact nomatch houtcome
  | ok result =>
    obtain ⟨updated, calibResult, published⟩ := result
    rw [hrun] at houtcome
    refine ⟨updated, calibResult, published, rfl,
      (processExtractionForDecision_safe hrun).1 ?_⟩
    dsimp only at houtcome
    split at houtcome
    · rename_i hget
      rw [hget, beq_iff_eq.mp houtcome]
    · exact nomatch houtcome

end LandRecords.Calibration
