import LandRecords.Base.Cuts
import LandRecords.Base.FloatFormat
import LandRecords.Base.OrderBy
import LandRecords.Base.Text
import Mathlib

/-! Ruled tables of a page: the grid cut from lines or token edges, the tokens put into its
cells, the spans of the cells, and the cells read back as a grid or as an OCR result. What is
computed is rounded to a format of floats. -/
namespace LandRecords.Ocr

open Text

structure BoundingBox where
  x : ℚ
  y : ℚ
  w : ℚ
  h : ℚ
deriving DecidableEq

structure OCRCandidate where
  value : Text
  confidence : ℚ
deriving DecidableEq

structure OCRToken where
  text : Text
  confidence : ℚ
  bbox : Option BoundingBox := none
  topK : List OCRCandidate := []
deriving DecidableEq

structure OCRResult where
  pageId : Text
  tokens : List OCRToken
  fullText : Text
  engineId : Text
  modelVersion : Text
  configVersion : Text
deriving DecidableEq

inductive Axis where
  | x
  | y
deriving DecidableEq

namespace BoundingBox

def low (b : BoundingBox) : Axis → ℚ
  | .x => b.x
  | .y => b.y

def size (b : BoundingBox) : Axis → ℚ
  | .x => b.w
  | .y => b.h

def high (b : BoundingBox) (axis : Axis) : ℚ := b.low axis + b.size axis

section Computed

variable (floats : FloatFormat)

/-- The far edge as it is computed: `x + w`, or `y + h`. -/
def far (b : BoundingBox) (axis : Axis) : ℚ := floats.add (b.low axis) (b.size axis)

def anchor (b : BoundingBox) (axis : Axis) : ℚ :=
  floats.add (b.low axis) (min 5 (floats.div (b.size axis) 2))

def holds (b token : BoundingBox) : Bool :=
  b.low .x ≤ token.anchor floats .x && token.anchor floats .x ≤ b.far floats .x &&
    (b.low .y ≤ token.anchor floats .y && token.anchor floats .y ≤ b.far floats .y)

end Computed

end BoundingBox

structure TableCell where
  rowIndex : ℕ
  colIndex : ℕ
  bbox : BoundingBox
  rowSpan : ℕ := 1
  colSpan : ℕ := 1
  text : Text := []
  tokens : List OCRToken := []
  confidence : ℚ := 1
deriving DecidableEq

structure TableStructure where
  tableId : Text
  bbox : BoundingBox
  numRows : ℕ
  numCols : ℕ
  cells : List TableCell
  confidence : ℚ := 1
deriving DecidableEq

/-- The position is among those that `to_grid` fills with the cell. -/
def TableCell.covers (cell : TableCell) (r c : ℕ) : Bool :=
  cell.rowIndex ≤ r && r < cell.rowIndex + cell.rowSpan &&
    (cell.colIndex ≤ c && c < cell.colIndex + cell.colSpan)

def TableStructure.toGrid (table : TableStructure) : List (List (Option TableCell)) :=
  table.cells.foldl
    (fun grid cell => grid.mapIdx fun r row => row.mapIdx fun c old =>
      if cell.covers r c then some cell else old)
    (List.replicate table.numRows (List.replicate table.numCols none))

def TableCell.labelled (cell : TableCell) : Text :=
  "[R".toList ++ (toString cell.rowIndex).toList ++ "C".toList ++
    (toString cell.colIndex).toList ++ "] ".toList ++ cell.text

def TableStructure.toOcrResult (table : TableStructure) (pageId : Text)
    (engineId : Text := "table_extractor".toList) (modelVersion : Text := "table-v1".toList)
    (configVersion : Text := "v1".toList) : OCRResult :=
  let sortedCells := orderBy (fun cell => toLex (cell.rowIndex, cell.colIndex)) table.cells
  let filled := sortedCells.filter fun cell => cell.text ≠ []
  { pageId := pageId
    tokens := filled.map fun cell =>
      { text := cell.labelled, confidence := cell.confidence, bbox := some cell.bbox,
        topK := [⟨cell.text, cell.confidence⟩] }
    fullText := join "\n".toList (filled.map TableCell.labelled)
    engineId := engineId
    modelVersion := modelVersion
    configVersion := configVersion }

def boxesOf (ocrTokens : List OCRToken) : List BoundingBox := ocrTokens.filterMap OCRToken.bbox

section Extraction

variable (floats : FloatFormat)

def tableBboxOf (ocrTokens : List OCRToken) : Option BoundingBox → BoundingBox
  | some tableBbox => tableBbox
  | none =>
      if ocrTokens = [] then ⟨0, 0, 1000, 1000⟩
      else
        let minX := ((boxesOf ocrTokens).map (·.low .x)).min?.getD 0
        let minY := ((boxesOf ocrTokens).map (·.low .y)).min?.getD 0
        let maxX := ((boxesOf ocrTokens).map (·.far floats .x)).max?.getD 1000
        let maxY := ((boxesOf ocrTokens).map (·.far floats .y)).max?.getD 1000
        ⟨minX, minY, floats.sub maxX minX, floats.sub maxY minY⟩

/-- `c - last >= line_tolerance_px`. -/
def FarEnough (lineTolerancePx last c : ℚ) : Prop := lineTolerancePx ≤ floats.sub c last

instance (lineTolerancePx : ℚ) : DecidableRel (FarEnough floats lineTolerancePx) := fun last c =>
  inferInstanceAs (Decidable (lineTolerancePx ≤ floats.sub c last))

/-- `_cluster_coordinates`. No lines at all count as no lines given. -/
def clusterCoordinates (lineTolerancePx : ℚ) (explicit : Option (List ℚ))
    (tokens : List OCRToken) (axis : Axis) (tableBbox : BoundingBox) : List ℚ :=
  let lines := explicit.getD []
  let rawCoords :=
    if lines ≠ [] then lines
    else tableBbox.low axis :: tableBbox.far floats axis ::
      (boxesOf tokens).flatMap fun b => [b.low axis, b.far floats axis]
  let clustered := Cuts.cluster (FarEnough floats lineTolerancePx) (Cuts.sortedSet rawCoords)
  if clustered.length < 2 then [tableBbox.low axis, tableBbox.far floats axis] else clustered

def gridCell (xBounds yBounds : List ℚ) (r c : ℕ) : TableCell :=
  let x1 := xBounds.getD c 0
  let y1 := yBounds.getD r 0
  let w := floats.sub (xBounds.getD (c + 1) 0) x1
  let h := floats.sub (yBounds.getD (r + 1) 0) y1
  { rowIndex := r, colIndex := c, bbox := ⟨x1, y1, w, h⟩ }

def stripCount (bounds : List ℚ) : ℕ := max 1 (bounds.length - 1)

def gridCells (xBounds yBounds : List ℚ) : List TableCell :=
  (List.range (stripCount yBounds)).flatMap fun r =>
    (List.range (stripCount xBounds)).map (gridCell floats xBounds yBounds r)

def placeToken (t : OCRToken) (b : BoundingBox) : List TableCell → List TableCell
  | [] => []
  | cell :: cells =>
      if cell.bbox.holds floats b then { cell with tokens := cell.tokens ++ [t] } :: cells
      else cell :: placeToken t b cells

def associateToken (cells : List TableCell) (t : OCRToken) : List TableCell :=
  match t.bbox with
  | none => cells
  | some b => placeToken floats t b cells

def readingKey (t : OCRToken) : ℚ ×ₗ ℚ :=
  toLex ((t.bbox.map (·.y)).getD 0, (t.bbox.map (·.x)).getD 0)

def formatCell (cell : TableCell) : TableCell :=
  if cell.tokens = [] then cell
  else
    let tokens := orderBy readingKey cell.tokens
    { cell with
      tokens := tokens
      text := join " ".toList (tokens.map OCRToken.text)
      confidence := floats.roundTo 4 (floats.mean (tokens.map OCRToken.confidence)) }

def associateTokensToCells (tokens : List OCRToken) (cells : List TableCell) : List TableCell :=
  (tokens.foldl (associateToken floats) cells).map (formatCell floats)

def widenBy (xBounds : List ℚ) (cell : TableCell) (t : OCRToken) : TableCell :=
  match t.bbox with
  | none => cell
  | some b =>
      let colsSpanned := xBounds.countP fun x => cell.bbox.x < x && x < b.far floats .x
      if colsSpanned > 0 then { cell with colSpan := max cell.colSpan (1 + colsSpanned) } else cell

def detectMergedCells (xBounds : List ℚ) (cells : List TableCell) : List TableCell :=
  cells.map fun cell => cell.tokens.foldl (widenBy floats xBounds) cell

/-- `extract_table`, with the id that is given or drawn. -/
def extractTable (lineTolerancePx : ℚ) (ocrTokens : List OCRToken)
    (tableBbox : Option BoundingBox) (horizontalLines verticalLines : Option (List ℚ))
    (tableId : Text) : TableStructure :=
  let bbox := tableBboxOf floats ocrTokens tableBbox
  let yBounds := clusterCoordinates floats lineTolerancePx horizontalLines ocrTokens .y bbox
  let xBounds := clusterCoordinates floats lineTolerancePx verticalLines ocrTokens .x bbox
  let cells := detectMergedCells floats xBounds
    (associateTokensToCells floats ocrTokens (gridCells floats xBounds yBounds))
  let confs := (cells.filter fun cell => cell.tokens ≠ []).map TableCell.confidence
  { tableId := tableId
    bbox := bbox
    numRows := stripCount yBounds
    numCols := stripCount xBounds
    cells := cells
    confidence := floats.roundTo 4 (if confs ≠ [] then floats.mean confs else 1) }

end Extraction

end LandRecords.Ocr
