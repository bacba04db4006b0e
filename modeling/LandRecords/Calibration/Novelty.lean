import LandRecords.Base.Numeric

/-! The novelty detector. An extraction is judged before its confidence is
looked at: against the prototype embedding of its stratum, or, where the stratum
has none, by whether the policy rejects strata it has not seen. -/
namespace LandRecords.Calibration

open Raised (require checked)

def stratumKey (fieldClass script printOrHandwriting legibilityBand writerClusterId : Text) : Text :=
  Text.join ['|'] [fieldClass, script, printOrHandwriting, legibilityBand, writerClusterId]

/-- `value or default` for a text. -/
def orDefault (value default : Text) : Text := if value = [] then default else value

section Checks

variable {ν : Type} [Numeric ν]

def checkUnitInterval (field range : Text) (value : ν) : Except Raised Unit := do
  require (← Numeric.isFinite value) (.valueError
    (field ++ " must be a finite real number, got ".toList ++ Numeric.render value))
  require (Numeric.le Numeric.zero value && Numeric.le value Numeric.one)
    (.valueError (field ++ range ++ Numeric.render value))

theorem checkUnitInterval_eq_ok {field range : Text} {value : ν} :
    checkUnitInterval field range value = .ok () ↔ Numeric.isFinite value = .ok true ∧
      Numeric.le Numeric.zero value = true ∧ Numeric.le value Numeric.one = true := by
  constructor
  · intro h
    obtain ⟨finite, hfinite, hrest⟩ := Raised.bind_eq_ok.mp h
    obtain ⟨_, hrequired, hbounds⟩ := Raised.bind_eq_ok.mp hrest
    rw [Raised.require_eq_ok.mp hrequired] at hfinite
    exact ⟨hfinite, Bool.and_eq_true_iff.mp (Raised.require_eq_ok.mp hbounds)⟩
  · rintro ⟨hfinite, hzero, hone⟩
    simp [checkUnitInterval, hfinite, hzero, hone]

/-- `for idx, val in enumerate(embedding)`: every value is finite. -/
def checkFinite : Nat → List ν → Except Raised Unit
  | _, [] => .ok ()
  | idx, val :: rest => do
      require (← Numeric.isFinite val) (.valueError ("embedding[".toList ++ (toString idx).toList ++
        "] must be a finite real number, got ".toList ++ Numeric.render val))
      checkFinite (idx + 1) rest

def checkEmbedding (embedding : List ν) : Except Raised Unit := do
  require (!embedding.isEmpty)
    (.valueError "embedding must be a non-empty list of finite real numbers".toList)
  checkFinite 0 embedding

end Checks

section Policy

variable {ν : Type} [Numeric ν]

def NoveltyPolicy.postInit (noveltyThreshold : ν) : Except Raised Unit :=
  checkUnitInterval "novelty_threshold".toList " must be within [0.0, 1.0], got ".toList
    noveltyThreshold

structure NoveltyPolicy (ν : Type) [Numeric ν] where
  noveltyThreshold : ν
  rejectUnseenStrata : Bool
  valid : NoveltyPolicy.postInit noveltyThreshold = .ok ()

theorem NoveltyPolicy.postInit_half : NoveltyPolicy.postInit (Numeric.half : ν) = .ok () :=
  checkUnitInterval_eq_ok.mpr
    ⟨Numeric.isFinite_half, Numeric.zero_le_half, Numeric.half_le_one⟩

/-- `NoveltyPolicy()`. -/
def NoveltyPolicy.default : NoveltyPolicy ν := ⟨Numeric.half, true, NoveltyPolicy.postInit_half⟩

def NoveltyPolicy.isOutsideRegime (policy : NoveltyPolicy ν) (noveltyScore : ν)
    (stratumIsKnown : Bool) : Bool :=
  if policy.rejectUnseenStrata && !stratumIsKnown then true
  else Numeric.lt policy.noveltyThreshold noveltyScore

theorem NoveltyPolicy.threshold_bounds (policy : NoveltyPolicy ν) :
    Numeric.le Numeric.zero policy.noveltyThreshold = true ∧
      Numeric.le policy.noveltyThreshold Numeric.one = true :=
  (checkUnitInterval_eq_ok.mp policy.valid).2

/-- No policy takes a score of zero for a novelty. -/
theorem NoveltyPolicy.isOutsideRegime_zero (policy : NoveltyPolicy ν) (stratumIsKnown : Bool) :
    policy.isOutsideRegime Numeric.zero stratumIsKnown =
      (policy.rejectUnseenStrata && !stratumIsKnown) := by
  unfold NoveltyPolicy.isOutsideRegime
  rw [Numeric.not_lt_of_le _ _ policy.threshold_bounds.1]
  cases policy.rejectUnseenStrata && !stratumIsKnown <;> rfl

end Policy

section Features

variable {ν : Type} [Numeric ν]

def NoveltyFeatures.postInit (embedding : Option (List ν)) (layoutCertainty : Option ν) :
    Except Raised Unit := do
  match embedding with
  | none => .ok ()
  | some embedding => checkEmbedding embedding
  match layoutCertainty with
  | none => .ok ()
  | some layoutCertainty =>
      checkUnitInterval "layout_certainty".toList " must be in [0.0, 1.0], got ".toList
        layoutCertainty

structure NoveltyFeatures (ν : Type) [Numeric ν] where
  embedding : Option (List ν)
  stratum : Text
  fieldClass : Text
  script : Text
  docType : Text
  printOrHandwriting : Text
  legibilityBand : Text
  writerClusterId : Text
  layoutCertainty : Option ν
  valid : NoveltyFeatures.postInit embedding layoutCertainty = .ok ()

def NoveltyFeatures.canonicalStratum (features : NoveltyFeatures ν) : Text :=
  if features.stratum ≠ [] then features.stratum
  else
    stratumKey (orDefault features.fieldClass "default".toList)
      (orDefault features.script "default".toList)
      (orDefault features.printOrHandwriting "printed".toList)
      (orDefault features.legibilityBand "medium".toList)
      (orDefault features.writerClusterId "default".toList)

theorem NoveltyFeatures.checkEmbedding_eq (features : NoveltyFeatures ν) {embedding : List ν}
    (h : features.embedding = some embedding) : checkEmbedding embedding = .ok () := by
  have hvalid := features.valid
  unfold NoveltyFeatures.postInit at hvalid
  rw [h] at hvalid
  obtain ⟨_, hembedding, _⟩ := Raised.bind_eq_ok.mp hvalid
  exact hembedding

end Features

section Result

variable {ν : Type} [Numeric ν]

def NoveltyResult.postInit (noveltyScore : ν) : Except Raised Unit :=
  checkUnitInterval "novelty_score".toList " must be in [0.0, 1.0], got ".toList noveltyScore

structure NoveltyResult (ν : Type) [Numeric ν] where
  noveltyScore : ν
  isOutsideRegime : Bool
  regimeReason : Text
  clusterId : Option Text
  modelVersion : Text
  configVersion : Text
  valid : NoveltyResult.postInit noveltyScore = .ok ()

/-- Every clamped score may be reported. -/
theorem NoveltyResult.postInit_clamp (a : ν) :
    NoveltyResult.postInit (Numeric.clamp a) = .ok () :=
  checkUnitInterval_eq_ok.mpr
    ⟨Numeric.isFinite_clamp a, Numeric.zero_le_clamp a, Numeric.clamp_le_one a⟩

theorem NoveltyResult.postInit_zero : NoveltyResult.postInit (Numeric.zero : ν) = .ok () :=
  checkUnitInterval_eq_ok.mpr
    ⟨Numeric.isFinite_zero, Numeric.zero_le_zero, Numeric.zero_le_one⟩

theorem NoveltyResult.postInit_one : NoveltyResult.postInit (Numeric.one : ν) = .ok () :=
  checkUnitInterval_eq_ok.mpr
    ⟨Numeric.isFinite_one, Numeric.zero_le_one, Numeric.one_le_one⟩

/-- `NoveltyResult(...)`. -/
def NoveltyResult.new (noveltyScore : ν) (isOutsideRegime : Bool) (regimeReason : Text)
    (clusterId : Option Text) (modelVersion configVersion : Text) :
    Except Raised (NoveltyResult ν) :=
  checked (NoveltyResult.postInit noveltyScore) fun valid =>
    ⟨noveltyScore, isOutsideRegime, regimeReason, clusterId, modelVersion, configVersion, valid⟩

end Result

/-! ## The detector over stratum prototypes -/

section Detector

variable {ν : Type} [Numeric ν]

structure CentroidDistanceNoveltyModel (ν : Type) [Numeric ν] where
  prototypes : List (Text × List ν)
  policy : NoveltyPolicy ν
  modelVersion : Text
  configVersion : Text

/-- The distance of an embedding from a prototype, per dimension and cut to the unit
interval. -/
def centroidScore (embedding prototype : List ν) : Except Raised ν := do
  let squares ← (embedding.zip prototype).mapM fun (e, p) => do
    Numeric.square (← Numeric.sub e p)
  let distSq ← Numeric.sum squares
  let normalizedDist ← Numeric.div (← Numeric.sqrt distSq)
    (← Numeric.sqrt (Numeric.ofNat prototype.length))
  return Numeric.clamp normalizedDist

namespace CentroidDistanceNoveltyModel

def generateClusterId (features : NoveltyFeatures ν) (stratum : Text) : Text :=
  if features.writerClusterId ≠ [] ∧ features.writerClusterId ≠ "default".toList then
    "novelty:writer:".toList ++ features.writerClusterId
  else if features.docType ≠ [] ∧ features.script ≠ [] then
    "novelty:doc:".toList ++ features.docType ++ ':' :: features.script
  else "novelty:stratum:".toList ++ stratum

variable (model : CentroidDistanceNoveltyModel ν)

def activePolicy (policy : Option (NoveltyPolicy ν)) : NoveltyPolicy ν :=
  policy.getD model.policy

/-- `stratum in self.prototypes if self.prototypes else False`. -/
def stratumIsKnown (stratum : Text) : Bool :=
  if model.prototypes ≠ [] then (model.prototypes.lookup stratum).isSome else false

def unseenStratum (features : NoveltyFeatures ν) (stratum : Text) :
    Except Raised (NoveltyResult ν) :=
  NoveltyResult.new Numeric.one true "unseen_stratum".toList
    (some (generateClusterId features stratum)) model.modelVersion model.configVersion

def measured (features : NoveltyFeatures ν) (policy : NoveltyPolicy ν) (stratum : Text)
    (embedding prototype : List ν) : Except Raised (NoveltyResult ν) := do
  require (embedding.length == prototype.length) (.valueError
    ("Embedding dimension mismatch: expected ".toList ++ (toString prototype.length).toList ++
      ", got ".toList ++ (toString embedding.length).toList))
  let score ← centroidScore embedding prototype
  let isOutside := policy.isOutsideRegime score true
  NoveltyResult.new score isOutside
    (if isOutside then "embedding_distance_exceeded".toList else "in_regime".toList)
    (if isOutside then some (generateClusterId features stratum) else none)
    model.modelVersion model.configVersion

def evaluateNovelty (features : NoveltyFeatures ν) (policy : Option (NoveltyPolicy ν)) :
    Except Raised (NoveltyResult ν) :=
  let policy := model.activePolicy policy
  let stratum := features.canonicalStratum
  let known := model.stratumIsKnown stratum
  if model.prototypes ≠ [] ∧ known = false ∧ policy.rejectUnseenStrata = true then
    model.unseenStratum features stratum
  else
    match features.embedding, known, model.prototypes.lookup stratum with
    | some embedding, true, some prototype =>
        model.measured features policy stratum embedding prototype
    | _, _, _ =>
        if known = true ∨ model.prototypes = [] then
          NoveltyResult.new Numeric.zero false "in_regime".toList none
            model.modelVersion model.configVersion
        else model.unseenStratum features stratum

end CentroidDistanceNoveltyModel

def scoreNovelty (embedding : List ν) (stratum : Text) (prototypes : Option (List (Text × List ν))) :
    Except Raised ν := do
  checkEmbedding embedding
  match prototypes.bind (List.lookup stratum) with
  | none => return Numeric.one
  | some proto =>
      require (embedding.length == proto.length) (.valueError
        ("Dimension mismatch: expected ".toList ++ (toString proto.length).toList ++
          ", got ".toList ++ (toString embedding.length).toList))
      centroidScore embedding proto

end Detector

end LandRecords.Calibration
