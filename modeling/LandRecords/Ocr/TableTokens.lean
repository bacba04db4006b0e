import LandRecords.Ocr.TableExtractor

/-! Which tokens a table keeps. A token is in a cell exactly when its start point lies between
the outer bounds on both axes, and a token in a cell is in the OCR result. -/
namespace LandRecords.Ocr

open Text

/-! ## Placing tokens -/

variable {floats : FloatFormat}

def takenBy (floats : FloatFormat) (boxes : List BoundingBox) (t : OCRToken) : Bool :=
  t.bbox.any fun b => boxes.any fun box => box.holds floats b

theorem placeToken_bbox (t : OCRToken) (b : BoundingBox) (cells : List TableCell) :
    (placeToken floats t b cells).map TableCell.bbox = cells.map TableCell.bbox := by
  induction cells with
  | nil => rfl
  | cons cell cells ih =>
    rw [placeToken]
    split
    · rfl
    · rw [List.map_cons, List.map_cons, ih]

theorem associateToken_bbox (cells : List TableCell) (t : OCRToken) :
    (associateToken floats cells t).map TableCell.bbox = cells.map TableCell.bbox := by
  unfold associateToken
  split
  · rfl
  · exact placeToken_bbox ..

theorem placeToken_perm (t : OCRToken) (b : BoundingBox) (cells : List TableCell) :
    ((placeToken floats t b cells).flatMap TableCell.tokens).Perm
      (cells.flatMap TableCell.tokens ++
        if (cells.map TableCell.bbox).any fun box => box.holds floats b then [t] else []) := by
  induction cells with
  | nil => simp [placeToken]
  | cons cell cells ih =>
    rw [placeToken, List.map_cons, List.any_cons]
    by_cases hholds : cell.bbox.holds floats b = true
    · simp only [hholds, if_true, Bool.true_or, List.flatMap_cons, List.append_assoc]
      exact List.Perm.append_left _ List.perm_append_comm
    · simp only [hholds, Bool.false_or, List.flatMap_cons, List.append_assoc]
      exact ih.append_left _

theorem associateToken_perm (cells : List TableCell) (t : OCRToken) :
    ((associateToken floats cells t).flatMap TableCell.tokens).Perm
      (cells.flatMap TableCell.tokens ++ [t].filter (takenBy floats (cells.map TableCell.bbox))) := by
  unfold associateToken
  cases hbox : t.bbox with
  | none => simp [takenBy, hbox]
  | some b =>
    have hfilter : [t].filter (takenBy floats (cells.map TableCell.bbox)) =
        if (cells.map TableCell.bbox).any fun box => box.holds floats b then [t] else [] := by
      rw [List.filter_singleton, takenBy, hbox, Option.any_some, cond_eq_ite]
    rw [hfilter]
    exact placeToken_perm t b cells

variable (floats) in
theorem associate_perm (tokens : List OCRToken) (cells : List TableCell) :
    ((tokens.foldl (associateToken floats) cells).flatMap TableCell.tokens).Perm
      (cells.flatMap TableCell.tokens ++ tokens.filter (takenBy floats (cells.map TableCell.bbox))) := by
  induction tokens generalizing cells with
  | nil => simp
  | cons t tokens ih =>
    have hstep := (ih (associateToken floats cells t)).trans
      ((associateToken_perm cells t).append_right _)
    rw [associateToken_bbox, List.append_assoc, ← List.filter_append] at hstep
    exact hstep

variable (floats) in
@[simp] theorem tokens_formatCell_perm (cell : TableCell) :
    (formatCell floats cell).tokens.Perm cell.tokens := by
  unfold formatCell
  split
  · exact List.Perm.refl _
  · exact orderBy_perm _ _

theorem text_formatCell {cell : TableCell} (h : cell.tokens ≠ []) :
    (formatCell floats cell).text = join " ".toList ((formatCell floats cell).tokens.map OCRToken.text) := by
  unfold formatCell
  rw [if_neg h]

theorem widenBy_eq (xBounds : List ℚ) (cell : TableCell) (t : OCRToken) :
    ∃ span, widenBy floats xBounds cell t = { cell with colSpan := span } := by
  unfold widenBy
  split
  · exact ⟨cell.colSpan, rfl⟩
  · dsimp only
    split
    · exact ⟨_, rfl⟩
    · exact ⟨cell.colSpan, rfl⟩

variable (floats) in
theorem foldl_widenBy_eq (xBounds : List ℚ) (tokens : List OCRToken) (cell : TableCell) :
    ∃ span, tokens.foldl (widenBy floats xBounds) cell = { cell with colSpan := span } := by
  induction tokens generalizing cell with
  | nil => exact ⟨cell.colSpan, rfl⟩
  | cons t tokens ih =>
    obtain ⟨first, hfirst⟩ := widenBy_eq xBounds cell t
    obtain ⟨span, hspan⟩ := ih (widenBy floats xBounds cell t)
    exact ⟨span, by rw [List.foldl_cons, hspan, hfirst]⟩

/-! ## The cells of a grid -/

theorem tokens_gridCells (floats : FloatFormat) (xBounds yBounds : List ℚ) :
    (gridCells floats xBounds yBounds).flatMap TableCell.tokens = [] := by
  rw [List.flatMap_eq_nil_iff]
  intro cell hcell
  obtain ⟨r, -, hcell⟩ := List.mem_flatMap.mp hcell
  obtain ⟨c, -, rfl⟩ := List.mem_map.mp hcell
  rfl

/-- The bounds that `extract_table` reads along an axis. -/
def gridBounds (floats : FloatFormat) (lineTolerancePx : ℚ) (ocrTokens : List OCRToken)
    (tableBbox : Option BoundingBox) (lines : Option (List ℚ)) (axis : Axis) : List ℚ :=
  clusterCoordinates floats lineTolerancePx lines ocrTokens axis (tableBboxOf floats ocrTokens tableBbox)

section Table

variable {lineTolerancePx : ℚ} {ocrTokens : List OCRToken}
  {tableBbox : Option BoundingBox} {horizontalLines verticalLines : Option (List ℚ)}
  {tableId : Text}

theorem mem_cells_extractTable {cell : TableCell}
    (h : cell ∈ (extractTable floats lineTolerancePx ocrTokens tableBbox horizontalLines verticalLines
      tableId).cells) :
    ∃ placed ∈ ocrTokens.foldl (associateToken floats)
        (gridCells floats (gridBounds floats lineTolerancePx ocrTokens tableBbox verticalLines .x)
          (gridBounds floats lineTolerancePx ocrTokens tableBbox horizontalLines .y)),
      ∃ span, cell = { formatCell floats placed with colSpan := span } := by
  obtain ⟨formatted, hformatted, rfl⟩ := List.mem_map.mp h
  obtain ⟨placed, hplaced, rfl⟩ := List.mem_map.mp hformatted
  exact ⟨placed, hplaced, foldl_widenBy_eq ..⟩

theorem tokens_extractTable_perm (floats : FloatFormat) (lineTolerancePx : ℚ) (ocrTokens : List OCRToken)
    (tableBbox : Option BoundingBox) (horizontalLines verticalLines : Option (List ℚ))
    (tableId : Text) :
    ((extractTable floats lineTolerancePx ocrTokens tableBbox horizontalLines verticalLines
        tableId).cells.flatMap TableCell.tokens).Perm
      (ocrTokens.filter (takenBy floats
        ((gridCells floats (gridBounds floats lineTolerancePx ocrTokens tableBbox verticalLines .x)
          (gridBounds floats lineTolerancePx ocrTokens tableBbox horizontalLines .y)).map
            TableCell.bbox))) := by
  have hplaced := associate_perm floats ocrTokens
    (gridCells floats (gridBounds floats lineTolerancePx ocrTokens tableBbox verticalLines .x)
      (gridBounds floats lineTolerancePx ocrTokens tableBbox horizontalLines .y))
  rw [tokens_gridCells, List.nil_append] at hplaced
  refine List.Perm.trans ?_ hplaced
  change ((detectMergedCells _ _ (associateTokensToCells _ _ _)).flatMap TableCell.tokens).Perm _
  rw [detectMergedCells, associateTokensToCells, List.flatMap_map, List.flatMap_map]
  apply List.Perm.flatMap_left
  intro cell _
  obtain ⟨span, hspan⟩ := foldl_widenBy_eq floats
    (gridBounds floats lineTolerancePx ocrTokens tableBbox verticalLines .x) (formatCell floats cell).tokens
    (formatCell floats cell)
  change ((formatCell floats cell).tokens.foldl (widenBy floats (gridBounds ..))
    (formatCell floats cell)).tokens.Perm _
  rw [hspan]
  exact tokens_formatCell_perm floats cell

end Table

/-! ## A grid from token edges

The edges are exact from here on. -/

def InStrip (bounds : List ℚ) (v : ℚ) : Prop :=
  ∃ i < stripCount bounds, bounds.getD i 0 ≤ v ∧ v ≤ bounds.getD (i + 1) 0

theorem holds_gridCell {xBounds yBounds : List ℚ} {r c : ℕ} {b : BoundingBox} :
    (gridCell .rational xBounds yBounds r c).bbox.holds .rational b = true ↔
      (xBounds.getD c 0 ≤ b.anchor .rational .x ∧ b.anchor .rational .x ≤ xBounds.getD (c + 1) 0) ∧
        yBounds.getD r 0 ≤ b.anchor .rational .y ∧ b.anchor .rational .y ≤ yBounds.getD (r + 1) 0 := by
  simp [gridCell, BoundingBox.holds, BoundingBox.far, BoundingBox.low, BoundingBox.size]

theorem takenBy_gridCells {xBounds yBounds : List ℚ} {t : OCRToken} {b : BoundingBox}
    (hbox : t.bbox = some b) :
    takenBy .rational ((gridCells .rational xBounds yBounds).map TableCell.bbox) t = true ↔
      InStrip xBounds (b.anchor .rational .x) ∧ InStrip yBounds (b.anchor .rational .y) := by
  simp only [takenBy, hbox, Option.any_some, List.any_map, List.any_eq_true, Function.comp_apply,
    gridCells, List.mem_flatMap, List.mem_map, List.mem_range]
  constructor
  · rintro ⟨_, ⟨r, hr, c, hc, rfl⟩, hholds⟩
    obtain ⟨hx, hy⟩ := holds_gridCell.mp hholds
    exact ⟨⟨c, hc, hx⟩, r, hr, hy⟩
  · rintro ⟨⟨c, hc, hx⟩, r, hr, hy⟩
    exact ⟨_, ⟨r, hr, c, hc, rfl⟩, holds_gridCell.mpr ⟨hx, hy⟩⟩

/-- Every token has a box with coordinates and sizes that are not negative. -/
def Boxed (ocrTokens : List OCRToken) : Prop :=
  ∀ t ∈ ocrTokens, ∃ b, t.bbox = some b ∧ ∀ axis, 0 ≤ b.low axis ∧ 0 ≤ b.size axis

def tokenEdges (ocrTokens : List OCRToken) (axis : Axis) : List ℚ :=
  (boxesOf ocrTokens).flatMap fun b => [b.low axis, b.high axis]

/-- The edges of all tokens lie within the tolerance, or some cut is not before the coordinate. -/
def Reached (tolerance : ℚ) (edges : List ℚ) (v : ℚ) : Prop :=
  (∀ d ∈ edges, ∀ e ∈ edges, e - d < tolerance) ∨
    ∃ cut, Cuts.IsCut tolerance edges cut ∧ v ≤ cut

/-- Each token is in one cell, and the text of each is in the OCR result. -/
structure NoTokenLost (ocrTokens : List OCRToken) (table : TableStructure) : Prop where
  placed : (table.cells.flatMap TableCell.tokens).Perm ocrTokens
  reported : ∀ t ∈ ocrTokens, t.text ≠ [] → ∀ pageId engineId modelVersion configVersion,
    (∃ cell ∈ (table.toOcrResult pageId engineId modelVersion configVersion).tokens,
      t.text <:+: cell.text) ∧
    t.text <:+: (table.toOcrResult pageId engineId modelVersion configVersion).fullText

theorem Boxed.size_nonneg {ocrTokens : List OCRToken} (h : Boxed ocrTokens) {b : BoundingBox}
    (hb : b ∈ boxesOf ocrTokens) (axis : Axis) : 0 ≤ b.size axis := by
  obtain ⟨t, ht, hbox⟩ := List.mem_filterMap.mp hb
  obtain ⟨b', hbox', hsign⟩ := h t ht
  obtain rfl := Option.some.inj (hbox.symm.trans hbox')
  exact (hsign axis).2

theorem anchor_between {b : BoundingBox} {axis : Axis} (h : 0 ≤ b.size axis) :
    b.low axis ≤ b.anchor .rational axis ∧ b.anchor .rational axis ≤ b.high axis := by
  rw [BoundingBox.anchor, BoundingBox.high, FloatFormat.add_rational, FloatFormat.div_rational]
  constructor
  · have : 0 ≤ min 5 (b.size axis / 2) := by positivity
    linarith
  · have : min 5 (b.size axis / 2) ≤ b.size axis / 2 := min_le_right _ _
    linarith

theorem tableBboxOf_none {ocrTokens : List OCRToken} (hne : ocrTokens ≠ []) (axis : Axis) :
    (tableBboxOf .rational ocrTokens none).low axis =
        ((boxesOf ocrTokens).map (·.low axis)).min?.getD 0 ∧
      (tableBboxOf .rational ocrTokens none).high axis =
        ((boxesOf ocrTokens).map (·.high axis)).max?.getD 1000 := by
  cases axis <;>
    simp [tableBboxOf, hne, BoundingBox.far, BoundingBox.high, BoundingBox.low, BoundingBox.size]

theorem Boxed.tableBbox {ocrTokens : List OCRToken} (h : Boxed ocrTokens) (hne : ocrTokens ≠ [])
    (axis : Axis) :
    ((tableBboxOf .rational ocrTokens none).low axis ∈ (boxesOf ocrTokens).map (·.low axis) ∧
      ∀ b ∈ boxesOf ocrTokens, (tableBboxOf .rational ocrTokens none).low axis ≤ b.low axis) ∧
    (tableBboxOf .rational ocrTokens none).high axis ∈ (boxesOf ocrTokens).map (·.high axis) ∧
      ∀ b ∈ boxesOf ocrTokens, b.high axis ≤ (tableBboxOf .rational ocrTokens none).high axis := by
  have hboxes : boxesOf ocrTokens ≠ [] := by
    obtain ⟨t, ht⟩ := List.exists_mem_of_ne_nil _ hne
    obtain ⟨b, hbox, -⟩ := h t ht
    exact List.ne_nil_of_mem (List.mem_filterMap.mpr ⟨t, ht, hbox⟩)
  obtain ⟨least, hleast⟩ : ∃ m, ((boxesOf ocrTokens).map (·.low axis)).min? = some m := by
    rw [← Option.isSome_iff_exists, List.isSome_min?_iff]
    simpa using hboxes
  obtain ⟨greatest, hgreatest⟩ :
      ∃ m, ((boxesOf ocrTokens).map (·.high axis)).max? = some m := by
    rw [← Option.isSome_iff_exists, List.isSome_max?_iff]
    simpa using hboxes
  obtain ⟨hlow, hhigh⟩ := tableBboxOf_none hne axis
  rw [hlow, hhigh, hleast, hgreatest, Option.getD_some, Option.getD_some]
  obtain ⟨hleastMem, hleastLe⟩ := List.min?_eq_some_iff.mp hleast
  obtain ⟨hgreatestMem, hgreatestLe⟩ := List.max?_eq_some_iff.mp hgreatest
  exact ⟨⟨hleastMem, fun b hb => hleastLe _ (List.mem_map_of_mem hb)⟩, hgreatestMem,
    fun b hb => hgreatestLe _ (List.mem_map_of_mem hb)⟩

theorem mem_tokenEdges {ocrTokens : List OCRToken} {axis : Axis} {d : ℚ} :
    d ∈ tokenEdges ocrTokens axis ↔
      ∃ b ∈ boxesOf ocrTokens, d = b.low axis ∨ d = b.high axis := by
  simp [tokenEdges]

section Edges

variable {lineTolerancePx : ℚ} {ocrTokens : List OCRToken}

/-- The bounds are the cuts of the token edges, or the ends of the table's box. -/
theorem Boxed.gridBounds (h : Boxed ocrTokens) (hne : ocrTokens ≠ []) (htolerance : 0 < lineTolerancePx)
    (axis : Axis) :
    (∃ cuts, (∀ c, c ∈ cuts ↔ Cuts.IsCut lineTolerancePx (tokenEdges ocrTokens axis) c) ∧
        cuts.Pairwise (· < ·) ∧
        (cuts.length < 2 ↔ ∀ d ∈ tokenEdges ocrTokens axis, ∀ e ∈ tokenEdges ocrTokens axis,
          e - d < lineTolerancePx) ∧
        Ocr.gridBounds .rational lineTolerancePx ocrTokens none none axis =
          if cuts.length < 2 then [(tableBboxOf .rational ocrTokens none).low axis,
            (tableBboxOf .rational ocrTokens none).high axis] else cuts) := by
  have hsame : ∀ d, d ∈ Cuts.sortedSet ((tableBboxOf .rational ocrTokens none).low axis ::
      (tableBboxOf .rational ocrTokens none).high axis :: tokenEdges ocrTokens axis) ↔
        d ∈ tokenEdges ocrTokens axis := by
    intro d
    obtain ⟨⟨hlow, -⟩, hhigh, -⟩ := h.tableBbox hne axis
    obtain ⟨b, hb, hblow⟩ := List.mem_map.mp hlow
    obtain ⟨b', hb', hbhigh⟩ := List.mem_map.mp hhigh
    rw [Cuts.mem_sortedSet, List.mem_cons, List.mem_cons]
    constructor
    · rintro (rfl | rfl | hd)
      · exact mem_tokenEdges.mpr ⟨b, hb, .inl hblow.symm⟩
      · exact mem_tokenEdges.mpr ⟨b', hb', .inr hbhigh.symm⟩
      · exact hd
    · exact fun hd => .inr (.inr hd)
  have hincreasing := Cuts.sortedSet_increasing ((tableBboxOf .rational ocrTokens none).low axis ::
      (tableBboxOf .rational ocrTokens none).high axis :: tokenEdges ocrTokens axis)
  have hcuts : ∀ coords, Cuts.cluster (FarEnough .rational lineTolerancePx) coords =
      Cuts.cluster (Cuts.Tolerant lineTolerancePx) coords := Cuts.cluster_congr fun last c => by
    rw [FarEnough, Cuts.Tolerant, FloatFormat.sub_rational]
  refine ⟨Cuts.cluster (Cuts.Tolerant lineTolerancePx) _, fun c => ?_,
    hincreasing.sublist (Cuts.cluster_sublist _), ?_, ?_⟩
  · rw [Cuts.mem_cluster_iff htolerance hincreasing]
    exact ⟨.congr hsame, .congr fun d => (hsame d).symm⟩
  · rw [Cuts.length_cluster_lt_two_iff htolerance hincreasing]
    simp only [hsame]
  · rw [← hcuts]
    rfl

/-- A start point lies in a strip exactly when the cuts reach it. -/
theorem Boxed.inStrip_iff (h : Boxed ocrTokens) (htolerance : 0 < lineTolerancePx)
    {b : BoundingBox} (hb : b ∈ boxesOf ocrTokens) (axis : Axis) :
    InStrip (Ocr.gridBounds .rational lineTolerancePx ocrTokens none none axis) (b.anchor .rational axis) ↔
      Reached lineTolerancePx (tokenEdges ocrTokens axis) (b.anchor .rational axis) := by
  have hne : ocrTokens ≠ [] := by
    rintro rfl
    simp [boxesOf] at hb
  obtain ⟨cuts, hcuts, hincreasing, hfew, hbounds⟩ := h.gridBounds hne htolerance axis
  obtain ⟨⟨hlow, hlowLe⟩, hhigh, hhighLe⟩ := h.tableBbox hne axis
  obtain ⟨hbLow, hbHigh⟩ := anchor_between (h.size_nonneg hb axis)
  have hfrom := (hlowLe b hb).trans hbLow
  rw [hbounds]
  by_cases hlength : cuts.length < 2
  · rw [if_pos hlength]
    constructor
    · exact fun _ => .inl (hfew.mp hlength)
    · exact fun _ => ⟨0, by simp [stripCount], hfrom, hbHigh.trans (hhighLe b hb)⟩
  · rw [if_neg hlength]
    have hleast : Cuts.IsCut lineTolerancePx (tokenEdges ocrTokens axis)
        ((tableBboxOf .rational ocrTokens none).low axis) := by
      obtain ⟨first, hfirst, hfirstLow⟩ := List.mem_map.mp hlow
      refine .least (mem_tokenEdges.mpr ⟨first, hfirst, .inl hfirstLow.symm⟩) fun d hd => ?_
      obtain ⟨b', hb', rfl | rfl⟩ := mem_tokenEdges.mp hd
      · exact hlowLe b' hb'
      · obtain ⟨hstart, hend⟩ := anchor_between (h.size_nonneg hb' axis)
        exact (hlowLe b' hb').trans (hstart.trans hend)
    have hstrips : stripCount cuts = cuts.length - 1 := by
      rw [stripCount]
      omega
    rw [InStrip, hstrips, Cuts.exists_strip_iff (hincreasing.imp le_of_lt) (not_lt.mp hlength)]
    constructor
    · rintro ⟨-, cut, hcut, hle⟩
      exact .inr ⟨cut, (hcuts cut).mp hcut, hle⟩
    · rintro (hclose | ⟨cut, hcut, hle⟩)
      · exact absurd (hfew.mpr hclose) hlength
      · exact ⟨⟨_, (hcuts _).mpr hleast, hfrom⟩, cut, (hcuts cut).mpr hcut, hle⟩

end Edges

/-! ## The OCR result of a table -/

theorem text_infix_of_mem_tokens {lineTolerancePx : ℚ} {ocrTokens : List OCRToken}
    {tableBbox : Option BoundingBox} {horizontalLines verticalLines : Option (List ℚ)}
    {tableId : Text} {t : OCRToken} {cell : TableCell}
    (hcell : cell ∈ (extractTable .rational lineTolerancePx ocrTokens tableBbox horizontalLines verticalLines
      tableId).cells) (ht : t ∈ cell.tokens) : t.text <:+: cell.text := by
  obtain ⟨placed, -, span, rfl⟩ := mem_cells_extractTable hcell
  change t ∈ (formatCell .rational placed).tokens at ht
  change t.text <:+: (formatCell .rational placed).text
  have hne : placed.tokens ≠ [] :=
    List.ne_nil_of_mem ((tokens_formatCell_perm _ placed).mem_iff.mp ht)
  rw [text_formatCell hne]
  exact infix_join (List.mem_map_of_mem ht)

theorem mem_toOcrResult {table : TableStructure} {cell : TableCell} (hcell : cell ∈ table.cells)
    (htext : cell.text ≠ []) (pageId engineId modelVersion configVersion : Text) :
    (∃ reported ∈ (table.toOcrResult pageId engineId modelVersion configVersion).tokens,
        cell.text <:+: reported.text) ∧
      cell.text <:+: (table.toOcrResult pageId engineId modelVersion configVersion).fullText := by
  have hlabel : cell.text <:+: cell.labelled := (List.suffix_append _ _).isInfix
  have hfilled : cell ∈ (orderBy (fun cell => toLex (cell.rowIndex, cell.colIndex))
      table.cells).filter fun cell => cell.text ≠ [] := by simp [hcell, htext]
  constructor
  · exact ⟨_, List.mem_map_of_mem hfilled, hlabel⟩
  · exact hlabel.trans (infix_join (List.mem_map_of_mem hfilled))

/-- A table cut from its tokens loses none of them exactly when on both axes the cuts reach
their start points. -/
theorem noTokenLost_iff {lineTolerancePx : ℚ} {ocrTokens : List OCRToken} {tableId : Text}
    (hboxed : Boxed ocrTokens) (htolerance : 0 < lineTolerancePx) :
    NoTokenLost ocrTokens (extractTable .rational lineTolerancePx ocrTokens none none none tableId) ↔
      ∀ t ∈ ocrTokens, ∀ b ∈ t.bbox, ∀ axis,
        Reached lineTolerancePx (tokenEdges ocrTokens axis) (b.anchor .rational axis) := by
  have hperm := tokens_extractTable_perm .rational lineTolerancePx ocrTokens none none none tableId
  have htaken : ∀ t ∈ ocrTokens, ∀ b ∈ t.bbox,
      (takenBy .rational ((gridCells .rational (gridBounds .rational lineTolerancePx ocrTokens none none .x)
        (gridBounds .rational lineTolerancePx ocrTokens none none .y)).map TableCell.bbox) t = true ↔
        ∀ axis, Reached lineTolerancePx (tokenEdges ocrTokens axis) (b.anchor .rational axis)) := by
    intro t ht b hb
    have hmem : b ∈ boxesOf ocrTokens := List.mem_filterMap.mpr ⟨t, ht, hb⟩
    rw [takenBy_gridCells hb, hboxed.inStrip_iff htolerance hmem,
      hboxed.inStrip_iff htolerance hmem]
    constructor
    · rintro ⟨hx, hy⟩ (_ | _)
      · exact hx
      · exact hy
    · exact fun hreached => ⟨hreached .x, hreached .y⟩
  constructor
  · intro hkept t ht b hb
    have hlength := (hperm.symm.trans hkept.placed).length_eq
    rw [List.length_filter_eq_length_iff] at hlength
    exact (htaken t ht b hb).mp (hlength t ht)
  · intro hreached
    have hall : ocrTokens.filter (takenBy .rational ((gridCells .rational
        (gridBounds .rational lineTolerancePx ocrTokens none none .x)
        (gridBounds .rational lineTolerancePx ocrTokens none none .y)).map TableCell.bbox)) =
          ocrTokens := by
      rw [List.filter_eq_self]
      intro t ht
      obtain ⟨b, hb, -⟩ := hboxed t ht
      exact (htaken t ht b hb).mpr (hreached t ht b hb)
    rw [hall] at hperm
    refine ⟨hperm, fun t ht htext pageId engineId modelVersion configVersion => ?_⟩
    obtain ⟨cell, hcell, htcell⟩ := List.mem_flatMap.mp (hperm.mem_iff.mpr ht)
    have hinfix := text_infix_of_mem_tokens hcell htcell
    have hne : cell.text ≠ [] := by
      intro hnil
      rw [hnil, List.infix_nil] at hinfix
      exact htext hinfix
    obtain ⟨⟨reported, hreported, hin⟩, hfull⟩ :=
      mem_toOcrResult hcell hne pageId engineId modelVersion configVersion
    exact ⟨⟨reported, hreported, hinfix.trans hin⟩, hinfix.trans hfull⟩

def singleToken : OCRToken := ⟨"45/1".toList, 9 / 10, some ⟨0, 0, 10, 10⟩, []⟩

def narrowToken : OCRToken := ⟨"7".toList, 9 / 10, some ⟨12, 0, 5, 10⟩, []⟩

theorem singleToken_kept :
    NoTokenLost [singleToken] (extractTable .rational 8 [singleToken] none none none "t".toList) := by
  refine (noTokenLost_iff ?_ (by norm_num)).mpr ?_
  · intro t ht
    obtain rfl := List.mem_singleton.mp ht
    exact ⟨_, rfl, fun axis => by cases axis <;> decide +kernel⟩
  · intro t ht b hb axis
    obtain rfl := List.mem_singleton.mp ht
    obtain rfl := Option.some.inj hb
    have hedges : tokenEdges [singleToken] axis = [0, 10] := by cases axis <;> decide +kernel
    have hanchor : BoundingBox.anchor .rational ⟨0, 0, 10, 10⟩ axis ≤ 10 := by cases axis <;> decide +kernel
    rw [hedges]
    refine .inr ⟨10, .next (.least (c := 0) ?_ ?_) ?_ ?_ ?_, hanchor⟩ <;> norm_num

/-- The edges 12 and 17 are both dropped after the cut at 10, so the token right of it is in no
cell and not in the result. -/
theorem narrowToken_lost :
    ¬ NoTokenLost [singleToken, narrowToken]
        (extractTable .rational 8 [singleToken, narrowToken] none none none "t".toList) ∧
      ((extractTable .rational 8 [singleToken, narrowToken] none none none
        "t".toList).toOcrResult "p".toList).fullText = "[R0C0] 45/1".toList := by
  constructor
  · intro hkept
    have hlength := hkept.placed.length_eq
    revert hlength
    decide +kernel
  · decide +kernel

end LandRecords.Ocr
