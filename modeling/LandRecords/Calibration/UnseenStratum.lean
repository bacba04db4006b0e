import LandRecords.Calibration.Novelty

/-! What the detector says of a stratum, compared with the policy's own test and
with the score computed on its own. A map without any prototype is where the
three part: there every stratum passes for a familiar one. -/
namespace LandRecords.Calibration

open CentroidDistanceNoveltyModel

variable {ν : Type} [Numeric ν] (model : CentroidDistanceNoveltyModel ν)
  (features : NoveltyFeatures ν) (policy : Option (NoveltyPolicy ν))

def RejectsUnseen : Prop :=
  model.prototypes.lookup features.canonicalStratum = none →
    (model.activePolicy policy).rejectUnseenStrata = true →
    ∃ r, model.evaluateNovelty features policy = .ok r ∧ r.isOutsideRegime = true

def VerdictFollowsPolicy : Prop :=
  ∀ r, model.evaluateNovelty features policy = .ok r →
    r.isOutsideRegime = (model.activePolicy policy).isOutsideRegime r.noveltyScore
      (model.prototypes.lookup features.canonicalStratum).isSome

/-- The reported score is the one `score_novelty` computes, exceptions included. -/
def ScoreAgrees : Prop :=
  ∀ embedding, features.embedding = some embedding →
    (∀ prototype, model.prototypes.lookup features.canonicalStratum = some prototype →
      embedding.length = prototype.length) →
    (model.evaluateNovelty features policy).map NoveltyResult.noveltyScore =
      scoreNovelty embedding features.canonicalStratum (some model.prototypes)

structure ConsistentVerdict : Prop where
  unseen : RejectsUnseen model features policy
  verdict : VerdictFollowsPolicy model features policy
  score : ScoreAgrees model features policy

/-- The stratum has a prototype; or others have one, and the policy rejects unseen
strata or has a threshold below one; or there is no prototype at all, the policy
accepts unseen strata and no embedding is given. -/
def JudgedConsistently : Prop :=
  (model.prototypes.lookup features.canonicalStratum).isSome = true ∨
    (model.prototypes ≠ [] ∧ ((model.activePolicy policy).rejectUnseenStrata = true ∨
      Numeric.lt (model.activePolicy policy).noveltyThreshold Numeric.one = true)) ∨
    (model.prototypes = [] ∧ (model.activePolicy policy).rejectUnseenStrata = false ∧
      features.embedding = none)

variable {model features policy}

theorem stratumIsKnown_eq (stratum : Text) :
    model.stratumIsKnown stratum = (model.prototypes.lookup stratum).isSome := by
  unfold stratumIsKnown
  split
  · rfl
  · rename_i hempty
    rw [not_not.mp hempty]
    rfl

/-! ## The paths of the evaluation -/

theorem new_zero_eq :
    NoveltyResult.new (Numeric.zero : ν) false "in_regime".toList none model.modelVersion
      model.configVersion = .ok ⟨Numeric.zero, false, "in_regime".toList, none, model.modelVersion,
        model.configVersion, NoveltyResult.postInit_zero⟩ :=
  Raised.checked_eq _

theorem unseenStratum_eq (stratum : Text) :
    model.unseenStratum features stratum = .ok ⟨Numeric.one, true, "unseen_stratum".toList,
      some (generateClusterId features stratum), model.modelVersion, model.configVersion,
      NoveltyResult.postInit_one⟩ :=
  Raised.checked_eq _

/-- Without any prototype the answer is the same for every stratum. -/
theorem evaluateNovelty_empty (hempty : model.prototypes = []) :
    model.evaluateNovelty features policy = .ok ⟨Numeric.zero, false, "in_regime".toList, none,
      model.modelVersion, model.configVersion, NoveltyResult.postInit_zero⟩ := by
  have hknown : model.stratumIsKnown features.canonicalStratum = false := by
    rw [stratumIsKnown_eq, hempty]
    rfl
  unfold evaluateNovelty
  simp only [hempty, hknown, ne_eq, not_true_eq_false, false_and, if_false, or_true, if_true]
  cases features.embedding <;> exact new_zero_eq

theorem evaluateNovelty_unseen (hsome : model.prototypes ≠ [])
    (hunseen : model.prototypes.lookup features.canonicalStratum = none) :
    model.evaluateNovelty features policy =
      model.unseenStratum features features.canonicalStratum := by
  have hknown : model.stratumIsKnown features.canonicalStratum = false := by
    rw [stratumIsKnown_eq, hunseen]
    rfl
  unfold evaluateNovelty
  simp only [hknown, hsome, hunseen]
  split
  · rfl
  · cases features.embedding <;> simp

theorem evaluateNovelty_known {prototype : List ν}
    (hseen : model.prototypes.lookup features.canonicalStratum = some prototype) :
    model.evaluateNovelty features policy =
      match features.embedding with
      | some embedding => model.measured features (model.activePolicy policy)
          features.canonicalStratum embedding prototype
      | none => NoveltyResult.new Numeric.zero false "in_regime".toList none
          model.modelVersion model.configVersion := by
  have hknown : model.stratumIsKnown features.canonicalStratum = true := by
    rw [stratumIsKnown_eq, hseen]
    rfl
  unfold evaluateNovelty
  simp only [hknown, hseen]
  cases features.embedding <;> simp

theorem centroidScore_clamped {embedding prototype : List ν} {score : ν}
    (h : centroidScore embedding prototype = .ok score) : ∃ a, score = Numeric.clamp a := by
  obtain ⟨_, _, h⟩ := Raised.bind_eq_ok.mp h
  obtain ⟨_, _, h⟩ := Raised.bind_eq_ok.mp h
  obtain ⟨_, _, h⟩ := Raised.bind_eq_ok.mp h
  obtain ⟨_, _, h⟩ := Raised.bind_eq_ok.mp h
  obtain ⟨normalizedDist, _, h⟩ := Raised.bind_eq_ok.mp h
  exact ⟨normalizedDist, (Except.ok.inj h).symm⟩

section Measured

variable {embedding prototype : List ν} {active : NoveltyPolicy ν} {stratum : Text}

theorem measured_of_score {score : ν} (hlength : embedding.length = prototype.length)
    (hscore : centroidScore embedding prototype = .ok score) :
    ∃ r, model.measured features active stratum embedding prototype = .ok r ∧
      r.noveltyScore = score ∧ r.isOutsideRegime = active.isOutsideRegime score true := by
  obtain ⟨a, rfl⟩ := centroidScore_clamped hscore
  unfold measured
  simp only [hlength, beq_self_eq_true, Raised.require_true, Raised.ok_bind, hscore]
  exact ⟨_, Raised.checked_eq (NoveltyResult.postInit_clamp a), rfl, rfl⟩

theorem measured_error {e : Raised} (hlength : embedding.length = prototype.length)
    (hscore : centroidScore embedding prototype = .error e) :
    model.measured features active stratum embedding prototype = .error e := by
  unfold measured
  simp only [hlength, beq_self_eq_true, Raised.require_true, Raised.ok_bind, hscore,
    Raised.error_bind]

theorem length_eq_of_measured {r : NoveltyResult ν}
    (h : model.measured features active stratum embedding prototype = .ok r) :
    embedding.length = prototype.length := by
  obtain ⟨_, hrequired, _⟩ := Raised.bind_eq_ok.mp h
  exact beq_iff_eq.mp (Raised.require_eq_ok.mp hrequired)

theorem measured_verdict {r : NoveltyResult ν}
    (h : model.measured features active stratum embedding prototype = .ok r) :
    r.isOutsideRegime = active.isOutsideRegime r.noveltyScore true := by
  have hlength := length_eq_of_measured h
  cases hscore : centroidScore embedding prototype with
  | error e =>
    rw [measured_error hlength hscore] at h
    exact nomatch h
  | ok score =>
    obtain ⟨r', hr', hvalue, hverdict⟩ := measured_of_score hlength hscore
    rw [h] at hr'
    cases hr'
    rw [hverdict, hvalue]

theorem measured_score (hlength : embedding.length = prototype.length) :
    (model.measured features active stratum embedding prototype).map NoveltyResult.noveltyScore =
      centroidScore embedding prototype := by
  cases hscore : centroidScore embedding prototype with
  | error e => rw [measured_error hlength hscore, Raised.map_error]
  | ok score =>
    obtain ⟨r, hr, hvalue, _⟩ : ∃ r, model.measured features active stratum embedding prototype =
        .ok r ∧ r.noveltyScore = score ∧ _ := measured_of_score hlength hscore
    rw [hr, Raised.map_ok, hvalue]

end Measured

/-! ## The score on its own -/

theorem scoreNovelty_unseen {embedding : List ν} (hembedding : features.embedding = some embedding)
    (hunseen : model.prototypes.lookup features.canonicalStratum = none) :
    scoreNovelty embedding features.canonicalStratum (some model.prototypes) =
      .ok Numeric.one := by
  unfold scoreNovelty
  rw [features.checkEmbedding_eq hembedding]
  simp [hunseen]

theorem scoreNovelty_known {embedding prototype : List ν}
    (hembedding : features.embedding = some embedding)
    (hseen : model.prototypes.lookup features.canonicalStratum = some prototype)
    (hlength : embedding.length = prototype.length) :
    scoreNovelty embedding features.canonicalStratum (some model.prototypes) =
      centroidScore embedding prototype := by
  unfold scoreNovelty
  rw [features.checkEmbedding_eq hembedding]
  simp [hseen, hlength]

/-! ## The three parts for each kind of prototype map -/

theorem consistent_of_known {prototype : List ν}
    (hseen : model.prototypes.lookup features.canonicalStratum = some prototype) :
    ConsistentVerdict model features policy where
  unseen hunseen := by
    rw [hseen] at hunseen
    exact nomatch hunseen
  verdict r hr := by
    rw [evaluateNovelty_known hseen] at hr
    rw [hseen]
    cases hembedding : features.embedding with
    | some embedding =>
      rw [hembedding] at hr
      exact measured_verdict hr
    | none =>
      rw [hembedding] at hr
      rw [← Except.ok.inj (new_zero_eq.symm.trans hr)]
      exact ((model.activePolicy policy).isOutsideRegime_zero true).symm ▸ by simp
  score embedding hembedding hmatching := by
    rw [evaluateNovelty_known hseen, hembedding]
    rw [scoreNovelty_known hembedding hseen (hmatching prototype hseen)]
    exact measured_score (hmatching prototype hseen)

/-- Where other strata have prototypes, an unseen one is outside the regime with a
score of one, which the policy agrees with unless it tolerates every score. -/
theorem consistent_iff_of_unseen (hsome : model.prototypes ≠ [])
    (hunseen : model.prototypes.lookup features.canonicalStratum = none) :
    ConsistentVerdict model features policy ↔
      (model.activePolicy policy).rejectUnseenStrata = true ∨
        Numeric.lt (model.activePolicy policy).noveltyThreshold Numeric.one = true := by
  have heval : model.evaluateNovelty features policy = _ :=
    (evaluateNovelty_unseen hsome hunseen).trans (unseenStratum_eq _)
  have hpolicy : (model.activePolicy policy).isOutsideRegime Numeric.one false = true ↔
      (model.activePolicy policy).rejectUnseenStrata = true ∨
        Numeric.lt (model.activePolicy policy).noveltyThreshold Numeric.one = true := by
    unfold NoveltyPolicy.isOutsideRegime
    cases (model.activePolicy policy).rejectUnseenStrata <;> simp
  rw [← hpolicy]
  constructor
  · intro h
    have hverdict := h.verdict _ heval
    rw [hunseen] at hverdict
    exact hverdict.symm
  · intro h
    refine ⟨fun _ _ => ⟨_, heval, rfl⟩, ?_, ?_⟩
    · intro r hr
      rw [← Except.ok.inj (heval.symm.trans hr), hunseen]
      exact h.symm
    · intro embedding hembedding _
      rw [heval, scoreNovelty_unseen hembedding hunseen]
      rfl

theorem consistent_iff_of_empty (hempty : model.prototypes = []) :
    ConsistentVerdict model features policy ↔
      (model.activePolicy policy).rejectUnseenStrata = false ∧ features.embedding = none := by
  have heval : model.evaluateNovelty features policy = _ := evaluateNovelty_empty hempty
  have hunseen : model.prototypes.lookup features.canonicalStratum = none := by
    rw [hempty]
    rfl
  constructor
  · intro h
    constructor
    · by_contra hreject
      obtain ⟨r, hr, houtside⟩ := h.unseen hunseen (Bool.of_not_eq_false hreject)
      rw [← Except.ok.inj (heval.symm.trans hr)] at houtside
      exact nomatch houtside
    · cases hembedding : features.embedding with
      | none => rfl
      | some embedding =>
        have hscore := h.score embedding hembedding fun prototype hseen => by
          rw [hunseen] at hseen
          exact nomatch hseen
        rw [heval, scoreNovelty_unseen hembedding hunseen] at hscore
        exact absurd (Except.ok.inj hscore) Numeric.zero_ne_one
  · rintro ⟨haccept, hnone⟩
    refine ⟨?_, ?_, ?_⟩
    · intro _ hreject
      rw [haccept] at hreject
      exact nomatch hreject
    · intro r hr
      rw [← Except.ok.inj (heval.symm.trans hr), hunseen]
      exact (((model.activePolicy policy).isOutsideRegime_zero false).trans (by simp [haccept])).symm
    · intro embedding hembedding
      rw [hnone] at hembedding
      exact nomatch hembedding

theorem consistentVerdict_iff (model : CentroidDistanceNoveltyModel ν)
    (features : NoveltyFeatures ν) (policy : Option (NoveltyPolicy ν)) :
    ConsistentVerdict model features policy ↔ JudgedConsistently model features policy := by
  unfold JudgedConsistently
  cases hseen : model.prototypes.lookup features.canonicalStratum with
  | some prototype => simp [consistent_of_known hseen]
  | none =>
    by_cases hempty : model.prototypes = []
    · rw [consistent_iff_of_empty hempty]
      simp [hempty]
    · rw [consistent_iff_of_unseen hempty hseen]
      simp [hempty]

def untrainedModel : CentroidDistanceNoveltyModel Float where
  prototypes := []
  policy := NoveltyPolicy.default
  modelVersion := "novelty_v1.0.0".toList
  configVersion := []

def unseenFeatures : NoveltyFeatures Float where
  embedding := none
  stratum := "survey_number|latin|printed|good|default".toList
  fieldClass := []
  script := []
  docType := []
  printOrHandwriting := []
  legibilityBand := "medium".toList
  writerClusterId := []
  layoutCertainty := none
  valid := rfl

theorem untrainedModel_accepts_unseen :
    ¬ ConsistentVerdict untrainedModel unseenFeatures none := by
  intro h
  obtain ⟨r, hr, houtside⟩ := h.unseen rfl rfl
  rw [← Except.ok.inj ((evaluateNovelty_empty rfl).symm.trans hr)] at houtside
  exact nomatch houtside

end LandRecords.Calibration
