import LandRecords.Base.PlaneTurns
import LandRecords.Masking.Views
import Mathlib

/-! Boxes on the original scan: the points of a deskewed page are turned back about the centres of
the two images, and the box on the scan is the least one around what that takes the field to. -/
namespace LandRecords.Masking

open Plane

section Exact

variable {K : Type} [Field K] [LinearOrder K]

/-- Exact arithmetic, with whatever the angle's cosine and sine are. -/
def fieldArithmetic (radians cos sin : K → K) : Arithmetic K where
  add a b := .ok (a + b)
  sub a b := .ok (a - b)
  mul a b := .ok (a * b)
  halve a := .ok (a / 2)
  radians a := .ok (radians a)
  cos a := .ok (cos a)
  sin a := .ok (sin a)
  lt a b := decide (a < b)

end Exact

section Extremes

variable {K : Type} [LinearOrder K] {arithmetic : Arithmetic K}

theorem least_isLeast (h : ∀ a b, arithmetic.lt a b = decide (a < b)) (first : K) (rest : List K) :
    IsLeast { n | n ∈ first :: rest } (least arithmetic first rest) := by
  induction rest generalizing first with
  | nil => simp [least]
  | cons n rest ih =>
    have hstep : least arithmetic first (n :: rest) = least arithmetic (min n first) rest := by
      simp only [least, List.foldl_cons, h, decide_eq_true_eq, min_def_lt]
    rw [hstep]
    have ⟨hmem, hle⟩ := ih (min n first)
    have hmin := hle List.mem_cons_self
    constructor
    · cases List.mem_cons.mp hmem with
      | inl heq =>
        rw [heq]
        cases min_choice n first with
        | inl hn => simp [hn]
        | inr hfirst => simp [hfirst]
      | inr hrest => simp [hrest]
    · intro m hm
      simp only [Set.mem_ofPred_eq, List.mem_cons] at hm
      rcases hm with rfl | rfl | hrest
      · exact hmin.trans (min_le_right _ _)
      · exact hmin.trans (min_le_left _ _)
      · exact hle (List.mem_cons_of_mem _ hrest)

theorem greatest_isGreatest (h : ∀ a b, arithmetic.lt a b = decide (a < b)) (first : K)
    (rest : List K) : IsGreatest { n | n ∈ first :: rest } (greatest arithmetic first rest) :=
  @least_isLeast Kᵒᵈ _ { arithmetic with lt := fun a b => arithmetic.lt b a } (fun a b => h b a)
    first rest

end Extremes

theorem isNotNone_of_item {ν : Type} {value held : Value ν} {key : Text}
    (h : item value key = .ok held) : isNotNone value = true := by
  cases value with
  | none => cases h
  | number n => rfl
  | text text => rfl
  | list items => rfl
  | dict entries => rfl

section Scans

variable {K : Type} [Field K] [LinearOrder K] {radians cos sin : K → K}

/-- The entries of a recorded transform. -/
structure DeskewTransform (K : Type) where
  angleDegrees : K
  originalSize : K × K
  processedSize : K × K

def jsonPair (pair : K × K) : Value K := .list [.number pair.1, .number pair.2]

/-- The transform is recorded in the column. -/
structure DeskewTransform.RecordedIn (transform : DeskewTransform K) (value : Value K) : Prop where
  angleDegrees : item value "angle_degrees".toList = .ok (.number transform.angleDegrees)
  originalSize : item value "original_size".toList = .ok (jsonPair transform.originalSize)
  processedSize : item value "processed_size".toList = .ok (jsonPair transform.processedSize)

/-- The box is recorded in the column. -/
structure Bbox.RecordedIn (bbox : Bbox K) (value : Value K) : Prop where
  x : item value "x".toList = .ok (.number bbox.x)
  y : item value "y".toList = .ok (.number bbox.y)
  w : item value "w".toList = .ok (.number bbox.w)
  h : item value "h".toList = .ok (.number bbox.h)

def Bbox.toJson (bbox : Bbox K) : Value K :=
  .dict [("x".toList, .number bbox.x), ("y".toList, .number bbox.y), ("w".toList, .number bbox.w),
    ("h".toList, .number bbox.h)]

/-- The JSON column that `record_provenance` fills. -/
def DeskewTransform.toJson (transform : DeskewTransform K) : Value K :=
  .dict [("angle_degrees".toList, .number transform.angleDegrees),
    ("original_size".toList, jsonPair transform.originalSize),
    ("processed_size".toList, jsonPair transform.processedSize)]

omit [Field K] [LinearOrder K] in
theorem Bbox.recordedIn_toJson (bbox : Bbox K) : bbox.RecordedIn bbox.toJson :=
  ⟨rfl, rfl, rfl, rfl⟩

omit [Field K] [LinearOrder K] in
theorem DeskewTransform.recordedIn_toJson (transform : DeskewTransform K) :
    transform.RecordedIn transform.toJson :=
  ⟨rfl, rfl, rfl⟩

/-- The points of a box, whatever the signs of its extents. -/
def Bbox.points (bbox : Bbox K) : Set (K × K) :=
  box (bbox.x, bbox.y) (bbox.x + bbox.w, bbox.y + bbox.h)

def Bbox.corners (bbox : Bbox K) : List (K × K) :=
  Plane.corners (bbox.x, bbox.y) (bbox.x + bbox.w, bbox.y + bbox.h)

def center (size : K × K) : K × K := (size.1 / 2, size.2 / 2)

namespace DeskewTransform

variable (transform : DeskewTransform K)

/-- The transform that `map_point_to_original` is given. -/
def affine : AffineTransform K where
  angleDegrees := .number transform.angleDegrees
  originalSize := [.number transform.originalSize.1, .number transform.originalSize.2]
  processedSize := [.number transform.processedSize.1, .number transform.processedSize.2]

/-- The rotation that deskews the scan: counter-clockwise where `y` runs downwards, from the
centre of the scan to that of the page it gives. -/
def rotate (radians cos sin : K → K) : K × K → K × K :=
  turn (cos (radians transform.angleDegrees)) (-sin (radians transform.angleDegrees))
    (center transform.originalSize) (center transform.processedSize)

def toOriginal (radians cos sin : K → K) : K × K → K × K :=
  turn (cos (radians transform.angleDegrees)) (sin (radians transform.angleDegrees))
    (center transform.processedSize) (center transform.originalSize)

end DeskewTransform

variable {transform : DeskewTransform K} {bbox : Bbox K}

theorem mapPointToOriginal_eq (x y : K) :
    mapPointToOriginal (fieldArithmetic radians cos sin) transform.affine (.number x) (.number y) =
      .ok (transform.toOriginal radians cos sin (x, y)) := by
  have heq : transform.toOriginal radians cos sin (x, y) =
      ((x - transform.processedSize.1 / 2) * cos (radians transform.angleDegrees) -
          (y - transform.processedSize.2 / 2) * sin (radians transform.angleDegrees) +
          transform.originalSize.1 / 2,
        (x - transform.processedSize.1 / 2) * sin (radians transform.angleDegrees) +
          (y - transform.processedSize.2 / 2) * cos (radians transform.angleDegrees) +
          transform.originalSize.2 / 2) := by
    ext
    · simp only [DeskewTransform.toOriginal, turn, center]
      ring
    · simp only [DeskewTransform.toOriginal, turn, center]
      ring
  rw [heq]
  rfl

def scanBox (radians cos sin : K → K) (transform : DeskewTransform K) (bbox : Bbox K) : Bbox K :=
  let arithmetic := fieldArithmetic radians cos sin
  let mapped := transform.toOriginal radians cos sin
  let first := mapped (bbox.x, bbox.y)
  let rest := [mapped (bbox.x + bbox.w, bbox.y), mapped (bbox.x, bbox.y + bbox.h),
    mapped (bbox.x + bbox.w, bbox.y + bbox.h)]
  let left := least arithmetic first.1 (rest.map Prod.fst)
  let top := least arithmetic first.2 (rest.map Prod.snd)
  { x := left
    y := top
    w := greatest arithmetic first.1 (rest.map Prod.fst) - left
    h := greatest arithmetic first.2 (rest.map Prod.snd) - top }

theorem originalBboxFor_eq {bboxValue transformValue : Value K} (hbbox : bbox.RecordedIn bboxValue)
    (htransform : transform.RecordedIn transformValue) :
    originalBboxFor (fieldArithmetic radians cos sin) bboxValue transformValue =
      .ok (some (scanBox radians cos sin transform bbox)) := by
  have hcorner := @mapPointToOriginal_eq K _ _ radians cos sin transform
  unfold DeskewTransform.affine at hcorner
  have hplus : ∀ m n : K, plus (fieldArithmetic radians cos sin) (.number m) (.number n) =
      .ok (.number (m + n)) := fun _ _ => rfl
  unfold originalBboxFor
  rw [isNotNone_of_item hbbox.x, isNotNone_of_item htransform.angleDegrees,
    htransform.angleDegrees, htransform.originalSize, htransform.processedSize,
    hbbox.x, hbbox.y, hbbox.w, hbbox.h]
  simp only [Bool.not_true, Bool.or_self, Bool.false_eq_true, if_false, Raised.ok_bind, tuple,
    jsonPair, hplus, hcorner]
  rfl

/-! ## The least box around the field -/

section Bounds

theorem scanBox_left : IsLeast { n | n ∈ bbox.corners.map fun p =>
    (transform.toOriginal radians cos sin p).1 } (scanBox radians cos sin transform bbox).x :=
  least_isLeast (fun _ _ => rfl) _ _

theorem scanBox_top : IsLeast { n | n ∈ bbox.corners.map fun p =>
    (transform.toOriginal radians cos sin p).2 } (scanBox radians cos sin transform bbox).y :=
  least_isLeast (fun _ _ => rfl) _ _

theorem scanBox_right : IsGreatest { n | n ∈ bbox.corners.map fun p =>
    (transform.toOriginal radians cos sin p).1 }
    ((scanBox radians cos sin transform bbox).x + (scanBox radians cos sin transform bbox).w) := by
  simp only [scanBox, add_sub_cancel]
  exact greatest_isGreatest (fun _ _ => rfl) _ _

theorem scanBox_bottom : IsGreatest { n | n ∈ bbox.corners.map fun p =>
    (transform.toOriginal radians cos sin p).2 }
    ((scanBox radians cos sin transform bbox).y + (scanBox radians cos sin transform bbox).h) := by
  simp only [scanBox, add_sub_cancel]
  exact greatest_isGreatest (fun _ _ => rfl) _ _

variable [IsStrictOrderedRing K]

theorem scanBox_covers {p : K × K} (hp : p ∈ bbox.points) :
    transform.toOriginal radians cos sin p ∈ (scanBox radians cos sin transform bbox).points := by
  apply turn_mem_box _ _ hp
  · intro corner hcorner
    have hmem := List.mem_map_of_mem
      (f := fun p => (transform.toOriginal radians cos sin p).1) hcorner
    exact ⟨scanBox_left.2 hmem, scanBox_right.2 hmem⟩
  · intro corner hcorner
    have hmem := List.mem_map_of_mem
      (f := fun p => (transform.toOriginal radians cos sin p).2) hcorner
    exact ⟨scanBox_top.2 hmem, scanBox_bottom.2 hmem⟩

omit [IsStrictOrderedRing K] in
/-- A box with all points of the field has those of the box on the scan. -/
theorem scanBox_subset {other : Bbox K}
    (h : ∀ p ∈ bbox.points, transform.toOriginal radians cos sin p ∈ other.points) :
    (scanBox radians cos sin transform bbox).points ⊆ other.points := by
  have hcorners : ∀ corner ∈ bbox.corners,
      transform.toOriginal radians cos sin corner ∈ other.points :=
    fun corner hcorner => h corner (corners_subset_box corner hcorner)
  have hfst : ∀ n ∈ bbox.corners.map (fun p => (transform.toOriginal radians cos sin p).1),
      n ∈ Set.uIcc other.x (other.x + other.w) :=
    List.forall_mem_map.mpr fun corner hcorner => (hcorners corner hcorner).1
  have hsnd : ∀ n ∈ bbox.corners.map (fun p => (transform.toOriginal radians cos sin p).2),
      n ∈ Set.uIcc other.y (other.y + other.h) :=
    List.forall_mem_map.mpr fun corner hcorner => (hcorners corner hcorner).2
  exact Set.prod_mono (Set.uIcc_subset_uIcc (hfst _ scanBox_left.1) (hfst _ scanBox_right.1))
    (Set.uIcc_subset_uIcc (hsnd _ scanBox_top.1) (hsnd _ scanBox_bottom.1))

end Bounds

end Scans

theorem originalBbox_least {K : Type} [Field K] [LinearOrder K] [IsStrictOrderedRing K]
    {radians cos sin : K → K} {transform : DeskewTransform K}
    (hangle : cos (radians transform.angleDegrees) * cos (radians transform.angleDegrees) +
      sin (radians transform.angleDegrees) * sin (radians transform.angleDegrees) = 1) :
    (∀ x y, mapPointToOriginal (fieldArithmetic radians cos sin) transform.affine (.number x)
      (.number y) = .ok (transform.toOriginal radians cos sin (x, y))) ∧
    (∀ p, transform.toOriginal radians cos sin (transform.rotate radians cos sin p) = p) ∧
    (transform.toOriginal radians cos sin).Bijective ∧
    (∀ p q, squaredDistance (transform.toOriginal radians cos sin p)
      (transform.toOriginal radians cos sin q) = squaredDistance p q) ∧
    ∀ bbox bboxValue transformValue, Bbox.RecordedIn bbox bboxValue →
      transform.RecordedIn transformValue →
      ∃ original, originalBboxFor (fieldArithmetic radians cos sin) bboxValue transformValue =
        .ok (some original) ∧
        (∀ p ∈ bbox.points, transform.toOriginal radians cos sin p ∈ original.points) ∧
        ∀ other : Bbox K,
          (∀ p ∈ bbox.points, transform.toOriginal radians cos sin p ∈ other.points) →
          original.points ⊆ other.points := by
  refine ⟨mapPointToOriginal_eq, fun p => turn_forth hangle, turn_bijective hangle,
    fun p q => squaredDistance_turn hangle, ?_⟩
  intro bbox bboxValue transformValue hbbox htransform
  exact ⟨_, originalBboxFor_eq hbbox htransform, fun p => scanBox_covers,
    fun other => scanBox_subset⟩

/-- A page that was rotated by ten degrees, with the box of one of its fields. -/
theorem originalBbox_least_sample :
    ∃ original, originalBboxFor
      (fieldArithmetic (fun degrees => degrees * Real.pi / 180) Real.cos Real.sin)
      (Bbox.toJson ⟨100, 200, 300, 40⟩)
      (DeskewTransform.toJson ⟨10, (1000, 1400), (1030, 1440)⟩) = .ok (some original) ∧
      DeskewTransform.toOriginal ⟨10, (1000, 1400), (1030, 1440)⟩
        (fun degrees => degrees * Real.pi / 180) Real.cos Real.sin (250, 220) ∈
          original.points := by
  have hangle : Real.cos (10 * Real.pi / 180) * Real.cos (10 * Real.pi / 180) +
      Real.sin (10 * Real.pi / 180) * Real.sin (10 * Real.pi / 180) = 1 := by
    rw [← sq, ← sq, Real.cos_sq_add_sin_sq]
  have ⟨_, _, _, _, hbox⟩ := @originalBbox_least ℝ _ _ _ (fun degrees => degrees * Real.pi / 180)
    Real.cos Real.sin ⟨10, (1000, 1400), (1030, 1440)⟩ hangle
  have ⟨original, hreturn, hcovers, _⟩ := hbox ⟨100, 200, 300, 40⟩ _ _ (Bbox.recordedIn_toJson _)
    (DeskewTransform.recordedIn_toJson _)
  refine ⟨original, hreturn, hcovers (250, 220) ?_⟩
  constructor
  · exact Set.mem_uIcc_of_le (by norm_num) (by norm_num)
  · exact Set.mem_uIcc_of_le (by norm_num) (by norm_num)

end LandRecords.Masking
