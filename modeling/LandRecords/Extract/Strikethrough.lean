import LandRecords.Base.Payload
import LandRecords.Base.Rounding
import Mathlib

/-! Strikethrough: the strokes of a page against the box of a value. A stroke that touches
the box cancels the entry, and one that comes near it sends the entry to review. -/
namespace LandRecords.Extract

section Segments

variable {K : Type*} [CommRing K] [LinearOrder K]

def ccw (a b c : K × K) : Bool := (c.2 - a.2) * (b.1 - a.1) > (b.2 - a.2) * (c.1 - a.1)

def segmentsCross (p1 p2 q1 q2 : K × K) : Bool :=
  ccw p1 q1 q2 != ccw p2 q1 q2 && ccw p1 p2 q1 != ccw p1 p2 q2

def rectEdges (rx1 ry1 rx2 ry2 : K) : List ((K × K) × (K × K)) :=
  [((rx1, ry1), (rx2, ry1)),
    ((rx2, ry1), (rx2, ry2)),
    ((rx2, ry2), (rx1, ry2)),
    ((rx1, ry2), (rx1, ry1))]

def lineIntersectsRect (x1 y1 x2 y2 rx1 ry1 rx2 ry2 : K) : Bool :=
  if max x1 x2 < rx1 ∨ min x1 x2 > rx2 then false
  else if max y1 y2 < ry1 ∨ min y1 y2 > ry2 then false
  else if (rx1 ≤ x1 ∧ x1 ≤ rx2) ∧ ry1 ≤ y1 ∧ y1 ≤ ry2 then true
  else if (rx1 ≤ x2 ∧ x2 ≤ rx2) ∧ ry1 ≤ y2 ∧ y2 ≤ ry2 then true
  else (rectEdges rx1 ry1 rx2 ry2).any fun edge =>
    segmentsCross (x1, y1) (x2, y2) edge.1 edge.2

end Segments

def validEntryStatuses : List Text :=
  ["unknown".toList, "live".toList, "cancelled".toList, "superseded".toList, "amended".toList]

structure StrokeSegment where
  x1 : ℚ
  y1 : ℚ
  x2 : ℚ
  y2 : ℚ
  thickness : ℚ := 1
  confidence : ℚ := 1

/-- An item of the page's strokes: a segment, a dictionary, or something that is skipped. -/
inductive PageStroke where
  | segment (stroke : StrokeSegment)
  | dict (entries : Dict ℚ)
  | other

structure CancellationResult where
  isCancelled : Bool
  isAmbiguous : Bool
  entryStatus : Text
  intersectingStrokes : List StrokeSegment
  rationale : Text

section Classification

variable (conversions : Conversions ℚ)

/-- `float(d.get(key, default))`. -/
def floatOf (d : Dict ℚ) (key : String) (default : ℚ) : Except Raised ℚ :=
  (d.getD key.toList (.number default)).float conversions

def readStroke (d : Dict ℚ) : Except Raised StrokeSegment := do
  let x1 ← floatOf conversions d "x1" 0
  let y1 ← floatOf conversions d "y1" 0
  let x2 ← floatOf conversions d "x2" 0
  let y2 ← floatOf conversions d "y2" 0
  let thickness ← floatOf conversions d "thickness" 1
  let confidence ← floatOf conversions d "confidence" 1
  return { x1, y1, x2, y2, thickness, confidence }

def readStrokes : List PageStroke → Except Raised (List StrokeSegment)
  | [] => .ok []
  | .segment stroke :: rest => return stroke :: (← readStrokes rest)
  | .dict entries :: rest => return (← readStroke conversions entries) :: (← readStrokes rest)
  | .other :: rest => readStrokes rest

/-- A bounding box with its width and height. -/
structure Box where
  x : ℚ
  y : ℚ
  w : ℚ
  h : ℚ

def readBox : Value ℚ → Except Raised Box
  | .dict bbox => do
      let x ← floatOf conversions bbox "x" 0
      let y ← floatOf conversions bbox "y" 0
      let w ← floatOf conversions bbox "w" 0
      let h ← floatOf conversions bbox "h" 0
      return { x, y, w, h }
  | _ => .error .attributeError

def hits (box : Box) (buffer : ℚ) (stroke : StrokeSegment) : Bool :=
  lineIntersectsRect stroke.x1 stroke.y1 stroke.x2 stroke.y2 (box.x - buffer) (box.y - buffer)
    (box.x + box.w + buffer) (box.y + box.h + buffer)

def knownStatus (currentStatus : Text) : Text :=
  if currentStatus ∈ validEntryStatuses then currentStatus else "unknown".toList

def classified (currentStatus : Text) (bufferPx : ℚ) (directHits bufferHits : List StrokeSegment) :
    CancellationResult :=
  if directHits ≠ [] then {
    isCancelled := true
    isAmbiguous := false
    entryStatus :=
      if currentStatus ≠ "superseded".toList then "cancelled".toList else "superseded".toList
    intersectingStrokes := directHits
    rationale := "Detected ".toList ++ (toString directHits.length).toList ++
      " direct geometric strikethrough stroke(s) across value bounding box.".toList }
  else if bufferHits ≠ [] then {
    isCancelled := false
    isAmbiguous := true
    entryStatus := "unknown".toList
    intersectingStrokes := bufferHits
    rationale := "Detected ".toList ++ (toString bufferHits.length).toList ++
      " ambiguous stroke(s) within ".toList ++ conversions.repr (.number bufferPx) ++
      "px proximity buffer. Routing for manual review.".toList }
  else {
    isCancelled := false
    isAmbiguous := false
    entryStatus := currentStatus
    intersectingStrokes := []
    rationale := "No geometric strokes intersect value region.".toList }

def classifyEntryCancellation (bbox : Value ℚ) (pageStrokes : List PageStroke)
    (currentStatus : Text) (bufferPx : ℚ) : Except Raised CancellationResult := do
  let currentStatus := knownStatus currentStatus
  if bbox.truthy = false ∨ pageStrokes = [] then
    return {
      isCancelled := false
      isAmbiguous := false
      entryStatus := currentStatus
      intersectingStrokes := []
      rationale := "No page strokes found intersecting or near bounding box.".toList }
  let box ← readBox conversions bbox
  let strokes ← readStrokes conversions pageStrokes
  let directHits := strokes.filter (hits box 0)
  let bufferHits := strokes.filter fun stroke => !hits box 0 stroke && hits box bufferPx stroke
  return classified conversions currentStatus bufferPx directHits bufferHits

def defaultBufferPx : ℚ := 4

def detectStrikethrough (bbox : Value ℚ) (pageStrokes : List PageStroke) : Except Raised Bool := do
  let res ← classifyEntryCancellation conversions bbox pageStrokes "unknown".toList defaultBufferPx
  return res.isCancelled || res.isAmbiguous

end Classification

end LandRecords.Extract
