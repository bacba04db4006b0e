import LandRecords.Ocr.TableTokens

/-! Merged cells in the grid of a table. A cell that is wider than its column comes before the
cells it spans, so the grid shows these in its place. -/
namespace LandRecords.Ocr

/-! ## The grid of a list of cells -/

/-- The cell at a position of `to_grid`. -/
def TableStructure.gridAt (table : TableStructure) (r c : ℕ) : Option TableCell :=
  (table.toGrid[r]?.bind fun row => row[c]?).join

def ReadingOrder (cells : List TableCell) : Prop :=
  cells.Pairwise fun earlier later => later.covers earlier.rowIndex earlier.colIndex = false

theorem getElem?_foldl_cells (cells : List TableCell) (grid : List (List (Option TableCell)))
    (r c : ℕ) :
    ((cells.foldl (fun grid cell => grid.mapIdx fun r row => row.mapIdx fun c old =>
        if cell.covers r c then some cell else old) grid)[r]?.bind fun row => row[c]?) =
      (grid[r]?.bind fun row => row[c]?).map fun old =>
        cells.foldl (fun old cell => if cell.covers r c then some cell else old) old := by
  induction cells generalizing grid with
  | nil => simp
  | cons cell cells ih =>
    rw [List.foldl_cons, ih]
    cases hrow : grid[r]? with
    | none => simp [hrow]
    | some row =>
      cases hold : row[c]? with
      | none => simp [hrow, hold]
      | some old => simp [hrow, hold]

theorem gridAt_eq {table : TableStructure} {r c : ℕ} (hr : r < table.numRows)
    (hc : c < table.numCols) :
    table.gridAt r c =
      table.cells.foldl (fun old cell => if cell.covers r c then some cell else old) none := by
  rw [TableStructure.gridAt, TableStructure.toGrid, getElem?_foldl_cells]
  simp [hr, hc]

theorem foldl_cells_eq_of_not_covers {cells : List TableCell} {r c : ℕ}
    (h : ∀ cell ∈ cells, cell.covers r c = false) (old : Option TableCell) :
    cells.foldl (fun old cell => if cell.covers r c then some cell else old) old = old := by
  induction cells with
  | nil => rfl
  | cons cell cells ih =>
    rw [List.forall_mem_cons] at h
    rw [List.foldl_cons, h.1, if_neg Bool.false_ne_true]
    exact ih h.2

theorem gridAt_home {table : TableStructure} (horder : ReadingOrder table.cells)
    {cell : TableCell} (hcell : cell ∈ table.cells)
    (hself : cell.covers cell.rowIndex cell.colIndex = true)
    (hr : cell.rowIndex < table.numRows) (hc : cell.colIndex < table.numCols) :
    table.gridAt cell.rowIndex cell.colIndex = some cell := by
  rw [gridAt_eq hr hc]
  obtain ⟨before, after, hsplit⟩ := List.append_of_mem hcell
  rw [ReadingOrder, hsplit, List.pairwise_append, List.pairwise_cons] at horder
  rw [hsplit, List.foldl_append, List.foldl_cons, hself, if_pos rfl]
  exact foldl_cells_eq_of_not_covers horder.2.1.1 _

/-! ## The cells of a table -/

variable {floats : FloatFormat}

def startsIn (floats : FloatFormat) (cells : List TableCell) (cell : TableCell) (t : OCRToken) :
    Bool :=
  t.bbox.any fun b => cells.find? (fun other => other.bbox.holds floats b) = some cell

def TableCell.withTokens (cell : TableCell) (tokens : List OCRToken) : TableCell :=
  { cell with tokens := tokens }

theorem placeToken_map {cells : List TableCell} (hnodup : cells.Nodup)
    (held : TableCell → List OCRToken) (t : OCRToken) (b : BoundingBox) :
    placeToken floats t b (cells.map fun cell => cell.withTokens (held cell)) =
      cells.map fun cell => cell.withTokens (held cell ++
        if cells.find? (fun other => other.bbox.holds floats b) = some cell then [t] else []) := by
  induction cells with
  | nil => rfl
  | cons cell cells ih =>
    rw [List.nodup_cons] at hnodup
    have hbox : (cell.withTokens (held cell)).bbox = cell.bbox := rfl
    rw [List.map_cons, placeToken, hbox, List.find?_cons]
    by_cases hholds : cell.bbox.holds floats b = true
    · rw [if_pos hholds, hholds, List.map_cons]
      congr 1
      · simp [TableCell.withTokens]
      · apply List.map_congr_left
        intro other hother
        have hne : cell ≠ other := fun h => hnodup.1 (h ▸ hother)
        simp [hne]
    · rw [if_neg hholds, Bool.eq_false_iff.mpr hholds, List.map_cons, ih hnodup.2]
      congr 1
      have habsent : cells.find? (fun other => other.bbox.holds floats b) ≠ some cell :=
        fun h => hnodup.1 (List.mem_of_find?_eq_some h)
      simp [habsent]

variable (floats) in
theorem foldl_associateToken {cells : List TableCell} (hnodup : cells.Nodup)
    (tokens : List OCRToken) (held : TableCell → List OCRToken) :
    tokens.foldl (associateToken floats) (cells.map fun cell => cell.withTokens (held cell)) =
      cells.map fun cell => cell.withTokens (held cell ++ tokens.filter (startsIn floats cells cell)) := by
  induction tokens generalizing held with
  | nil => simp
  | cons t tokens ih =>
    have hstep : associateToken floats (cells.map fun cell => cell.withTokens (held cell)) t =
        cells.map fun cell => cell.withTokens (held cell ++ [t].filter (startsIn floats cells cell)) := by
      unfold associateToken
      cases hbox : t.bbox with
      | none => simp [startsIn, hbox]
      | some b =>
        dsimp only
        rw [placeToken_map hnodup]
        apply List.map_congr_left
        intro cell _
        rw [List.filter_singleton, startsIn, hbox, Option.any_some, cond_eq_ite]
        simp
    rw [List.foldl_cons, hstep, ih]
    apply List.map_congr_left
    intro cell _
    rw [List.append_assoc, ← List.filter_append]
    rfl

section Bounds

variable {xBounds yBounds : List ℚ} {tokens : List OCRToken}

theorem mem_gridCells {cell : TableCell} :
    cell ∈ gridCells floats xBounds yBounds ↔
      ∃ r < stripCount yBounds, ∃ c < stripCount xBounds, gridCell floats xBounds yBounds r c = cell := by
  simp only [gridCells, List.mem_flatMap, List.mem_map, List.mem_range]

theorem nodup_gridCells : (gridCells floats xBounds yBounds).Nodup := by
  rw [gridCells, List.nodup_flatMap]
  constructor
  · intro r _
    refine List.Nodup.map ?_ List.nodup_range
    intro c c' h
    exact congrArg TableCell.colIndex h
  · refine List.nodup_range.imp fun hne cell hcell hcell' => hne ?_
    obtain ⟨c, -, rfl⟩ := List.mem_map.mp hcell
    obtain ⟨c', -, h⟩ := List.mem_map.mp hcell'
    exact (congrArg TableCell.rowIndex h).symm

def filledCell (floats : FloatFormat) (xBounds yBounds : List ℚ) (tokens : List OCRToken)
    (r c : ℕ) : TableCell :=
  let cell := gridCell floats xBounds yBounds r c
  let placed := cell.withTokens
    (tokens.filter (startsIn floats (gridCells floats xBounds yBounds) cell))
  (formatCell floats placed).tokens.foldl (widenBy floats xBounds) (formatCell floats placed)

theorem detectMergedCells_eq :
    detectMergedCells floats xBounds (associateTokensToCells floats tokens (gridCells floats xBounds yBounds)) =
      (List.range (stripCount yBounds)).flatMap fun r =>
        (List.range (stripCount xBounds)).map (filledCell floats xBounds yBounds tokens r) := by
  have hempty : gridCells floats xBounds yBounds =
      (gridCells floats xBounds yBounds).map fun cell => cell.withTokens [] := by
    conv_lhs => rw [← List.map_id (gridCells floats xBounds yBounds)]
    apply List.map_congr_left
    intro cell hcell
    obtain ⟨r, -, c, -, rfl⟩ := mem_gridCells.mp hcell
    rfl
  have hplaced := foldl_associateToken floats
    (@nodup_gridCells floats xBounds yBounds) tokens fun _ => []
  rw [← hempty] at hplaced
  rw [detectMergedCells, associateTokensToCells, hplaced, List.map_map, List.map_map]
  conv_lhs => rw [gridCells, List.map_flatMap]
  simp only [List.map_map]
  rfl

/-- A filled cell is the grid's cell with the tokens that start in it, and perhaps wider. -/
theorem filledCell_eq (r c : ℕ) :
    ∃ held text confidence span, filledCell floats xBounds yBounds tokens r c =
        { gridCell floats xBounds yBounds r c with
          tokens := held, text := text, confidence := confidence, colSpan := span } ∧
      held.Perm (tokens.filter
        (startsIn floats (gridCells floats xBounds yBounds) (gridCell floats xBounds yBounds r c))) := by
  let placed := (gridCell floats xBounds yBounds r c).withTokens
    (tokens.filter (startsIn floats (gridCells floats xBounds yBounds) (gridCell floats xBounds yBounds r c)))
  have hformat : ∃ text confidence, formatCell floats placed =
      { placed with tokens := (formatCell floats placed).tokens, text := text, confidence := confidence } := by
    unfold formatCell
    split
    · exact ⟨placed.text, placed.confidence, rfl⟩
    · exact ⟨_, _, rfl⟩
  obtain ⟨text, confidence, hformat⟩ := hformat
  obtain ⟨span, hspan⟩ := foldl_widenBy_eq floats xBounds (formatCell floats placed).tokens
    (formatCell floats placed)
  have hperm := tokens_formatCell_perm floats placed
  refine ⟨(formatCell floats placed).tokens, text, confidence, span, ?_, hperm⟩
  change (formatCell floats placed).tokens.foldl (widenBy floats xBounds) (formatCell floats placed) = _
  rw [hspan]
  conv_lhs => rw [hformat]
  rfl

@[simp] theorem rowIndex_filledCell (r c : ℕ) :
    (filledCell floats xBounds yBounds tokens r c).rowIndex = r := by
  obtain ⟨_, _, _, _, hcell, -⟩ := @filledCell_eq floats xBounds yBounds tokens r c
  rw [hcell]
  rfl

@[simp] theorem colIndex_filledCell (r c : ℕ) :
    (filledCell floats xBounds yBounds tokens r c).colIndex = c := by
  obtain ⟨_, _, _, _, hcell, -⟩ := @filledCell_eq floats xBounds yBounds tokens r c
  rw [hcell]
  rfl

@[simp] theorem rowSpan_filledCell (r c : ℕ) :
    (filledCell floats xBounds yBounds tokens r c).rowSpan = 1 := by
  obtain ⟨_, _, _, _, hcell, -⟩ := @filledCell_eq floats xBounds yBounds tokens r c
  rw [hcell]
  rfl

theorem mem_tokens_filledCell {r c : ℕ} {t : OCRToken} :
    t ∈ (filledCell floats xBounds yBounds tokens r c).tokens ↔
      t ∈ tokens ∧
        startsIn floats (gridCells floats xBounds yBounds) (gridCell floats xBounds yBounds r c) t := by
  obtain ⟨held, _, _, _, hcell, hperm⟩ := @filledCell_eq floats xBounds yBounds tokens r c
  rw [hcell]
  exact hperm.mem_iff.trans List.mem_filter

theorem colSpan_widenBy (cell : TableCell) (t : OCRToken) {i : ℕ} (hi : 0 < i) :
    i < (widenBy floats xBounds cell t).colSpan ↔ i < cell.colSpan ∨
      ∃ b ∈ t.bbox, i ≤ xBounds.countP fun x => cell.bbox.x < x && x < b.far floats .x := by
  unfold widenBy
  cases hbox : t.bbox with
  | none => simp
  | some b =>
    dsimp only
    simp only [Option.mem_some_iff, exists_eq_left']
    split
    · simp only [lt_max_iff]
      omega
    · omega

/-- A cell is widened over what some token of it reaches. -/
theorem colSpan_foldl_widenBy (cell : TableCell) (held : List OCRToken) {i : ℕ} (hi : 0 < i) :
    i < (held.foldl (widenBy floats xBounds) cell).colSpan ↔ i < cell.colSpan ∨
      ∃ t ∈ held, ∃ b ∈ t.bbox,
        i ≤ xBounds.countP fun x => cell.bbox.x < x && x < b.far floats .x := by
  induction held generalizing cell with
  | nil => simp
  | cons t held ih =>
    have hsame : (widenBy floats xBounds cell t).bbox = cell.bbox := by
      obtain ⟨span, hspan⟩ := widenBy_eq xBounds cell t
      rw [hspan]
    rw [List.foldl_cons, ih, hsame, colSpan_widenBy cell t hi]
    simp only [List.mem_cons, exists_eq_or_imp, or_assoc]

theorem le_colSpan_foldl_widenBy (cell : TableCell) (held : List OCRToken) :
    cell.colSpan ≤ (held.foldl (widenBy floats xBounds) cell).colSpan := by
  induction held generalizing cell with
  | nil => exact le_rfl
  | cons t held ih =>
    refine le_trans ?_ (ih (widenBy floats xBounds cell t))
    unfold widenBy
    split
    · exact le_rfl
    · dsimp only
      split
      · exact le_max_left _ _
      · exact le_rfl

theorem colSpan_filledCell_pos (r c : ℕ) :
    0 < (filledCell floats xBounds yBounds tokens r c).colSpan := by
  refine lt_of_lt_of_le ?_ (le_colSpan_foldl_widenBy _ _)
  unfold formatCell
  split <;> exact Nat.one_pos

theorem covers_filledCell (r c : ℕ) :
    (filledCell floats xBounds yBounds tokens r c).covers r c = true := by
  have hpos := @colSpan_filledCell_pos floats xBounds yBounds tokens r c
  simp [TableCell.covers, hpos]

theorem colSpan_filledCell {r c i : ℕ} (hi : 0 < i) :
    i < (filledCell floats xBounds yBounds tokens r c).colSpan ↔
      ∃ t ∈ tokens, startsIn floats (gridCells floats xBounds yBounds) (gridCell floats xBounds yBounds r c) t ∧
        ∃ b ∈ t.bbox, i ≤ xBounds.countP fun x => xBounds.getD c 0 < x && x < b.far floats .x := by
  let placed := (gridCell floats xBounds yBounds r c).withTokens
    (tokens.filter (startsIn floats (gridCells floats xBounds yBounds) (gridCell floats xBounds yBounds r c)))
  have hformat : (formatCell floats placed).colSpan = 1 ∧
      (formatCell floats placed).bbox.x = xBounds.getD c 0 := by
    unfold formatCell
    split <;> exact ⟨rfl, rfl⟩
  have hmem : ∀ t, t ∈ (formatCell floats placed).tokens ↔
      t ∈ tokens ∧
        startsIn floats (gridCells floats xBounds yBounds) (gridCell floats xBounds yBounds r c) t :=
    fun t => (tokens_formatCell_perm floats placed).mem_iff.trans List.mem_filter
  change i < ((formatCell floats placed).tokens.foldl (widenBy floats xBounds)
    (formatCell floats placed)).colSpan ↔ _
  rw [colSpan_foldl_widenBy _ _ hi, hformat.1, hformat.2]
  simp only [hmem, and_assoc, Nat.not_lt.mpr hi, false_or]

end Bounds

/-! ## The table -/

/-- Each position that a cell spans in its row shows the cell, unless it is the home of another
cell with tokens. -/
def SpansShown (table : TableStructure) : Prop :=
  ∀ cell ∈ table.cells, ∀ i < cell.colSpan, cell.colIndex + i < table.numCols →
    table.gridAt cell.rowIndex (cell.colIndex + i) = some cell ∨
      ∃ other ∈ table.cells, other ≠ cell ∧ other.rowIndex = cell.rowIndex ∧
        other.colIndex = cell.colIndex + i ∧ other.tokens ≠ []

/-- A token that starts in a column and reaches over the left cut of a later one finds a token
that starts there in its row. -/
def ReachesFilled (floats : FloatFormat) (xBounds yBounds : List ℚ) (ocrTokens : List OCRToken) : Prop :=
  ∀ t ∈ ocrTokens, ∀ b ∈ t.bbox, ∀ r c,
    startsIn floats (gridCells floats xBounds yBounds) (gridCell floats xBounds yBounds r c) t →
    ∀ next, c < next → next < stripCount xBounds → xBounds.getD next 0 < b.far floats .x →
      ∃ u ∈ ocrTokens,
        startsIn floats (gridCells floats xBounds yBounds) (gridCell floats xBounds yBounds r next) u

theorem startsIn_mem {cells : List TableCell} {cell : TableCell} {t : OCRToken}
    (h : startsIn floats cells cell t) : cell ∈ cells := by
  obtain ⟨b, -, hfound⟩ := (Option.any_eq_true _ _).mp h
  exact List.mem_of_find?_eq_some (of_decide_eq_true hfound)

theorem gridBounds_increasing {lineTolerancePx : ℚ} {ocrTokens : List OCRToken}
    {tableBbox : Option BoundingBox} {lines : Option (List ℚ)} {axis : Axis}
    (h : 1 < stripCount (gridBounds floats lineTolerancePx ocrTokens tableBbox lines axis)) :
    (gridBounds floats lineTolerancePx ocrTokens tableBbox lines axis).Pairwise (· < ·) := by
  obtain ⟨raw, hraw⟩ : ∃ raw, gridBounds floats lineTolerancePx ocrTokens tableBbox lines axis =
      if (Cuts.cluster (FarEnough floats lineTolerancePx) (Cuts.sortedSet raw)).length < 2 then
        [(tableBboxOf floats ocrTokens tableBbox).low axis,
          (tableBboxOf floats ocrTokens tableBbox).far floats axis]
      else Cuts.cluster (FarEnough floats lineTolerancePx) (Cuts.sortedSet raw) := ⟨_, rfl⟩
  rw [hraw] at h ⊢
  split
  · rename_i hfew
    rw [if_pos hfew] at h
    simp [stripCount] at h
  · exact (Cuts.sortedSet_increasing raw).sublist (Cuts.cluster_sublist _)

section Table

variable {lineTolerancePx : ℚ} {ocrTokens : List OCRToken} {tableBbox : Option BoundingBox}
  {horizontalLines verticalLines : Option (List ℚ)} {tableId : Text}

theorem mem_extractTable {cell : TableCell} :
    cell ∈ (extractTable floats lineTolerancePx ocrTokens tableBbox horizontalLines verticalLines
        tableId).cells ↔
      ∃ r < stripCount (gridBounds floats lineTolerancePx ocrTokens tableBbox horizontalLines .y),
        ∃ c < stripCount (gridBounds floats lineTolerancePx ocrTokens tableBbox verticalLines .x),
          filledCell floats (gridBounds floats lineTolerancePx ocrTokens tableBbox verticalLines .x)
            (gridBounds floats lineTolerancePx ocrTokens tableBbox horizontalLines .y) ocrTokens r c =
              cell := by
  change cell ∈ detectMergedCells _ _ (associateTokensToCells _ _ (gridCells _ _ _)) ↔ _
  rw [detectMergedCells_eq]
  simp only [List.mem_flatMap, List.mem_map, List.mem_range]
  rfl

theorem readingOrder_extractTable :
    ReadingOrder (extractTable floats lineTolerancePx ocrTokens tableBbox horizontalLines verticalLines
      tableId).cells := by
  change ReadingOrder (detectMergedCells _ _ (associateTokensToCells _ _ (gridCells _ _ _)))
  rw [detectMergedCells_eq, ReadingOrder, List.pairwise_flatMap]
  constructor
  · intro r _
    rw [List.pairwise_map]
    refine List.pairwise_lt_range.imp fun hlt => ?_
    simp [TableCell.covers, hlt.not_ge]
  · refine List.pairwise_lt_range.imp fun hlt earlier hearlier later hlater => ?_
    obtain ⟨c, -, rfl⟩ := List.mem_map.mp hearlier
    obtain ⟨c', -, rfl⟩ := List.mem_map.mp hlater
    simp [TableCell.covers, hlt.not_ge]

theorem gridAt_extractTable {r c : ℕ}
    (hr : r < stripCount (gridBounds floats lineTolerancePx ocrTokens tableBbox horizontalLines .y))
    (hc : c < stripCount (gridBounds floats lineTolerancePx ocrTokens tableBbox verticalLines .x)) :
    (extractTable floats lineTolerancePx ocrTokens tableBbox horizontalLines verticalLines
        tableId).gridAt r c =
      some (filledCell floats (gridBounds floats lineTolerancePx ocrTokens tableBbox verticalLines .x)
        (gridBounds floats lineTolerancePx ocrTokens tableBbox horizontalLines .y) ocrTokens r c) := by
  have hcell := (@mem_extractTable floats lineTolerancePx ocrTokens tableBbox horizontalLines
    verticalLines tableId _).mpr ⟨r, hr, c, hc, rfl⟩
  have hhome := gridAt_home readingOrder_extractTable hcell
  rw [rowIndex_filledCell, colIndex_filledCell] at hhome
  exact hhome (covers_filledCell r c) hr hc

theorem lt_colSpan_iff {r c i : ℕ} (hi : 0 < i)
    (hcols : c + i < stripCount (gridBounds floats lineTolerancePx ocrTokens tableBbox verticalLines .x)) :
    i < (filledCell floats (gridBounds floats lineTolerancePx ocrTokens tableBbox verticalLines .x)
        (gridBounds floats lineTolerancePx ocrTokens tableBbox horizontalLines .y) ocrTokens r c).colSpan ↔
      ∃ t ∈ ocrTokens,
        startsIn floats (gridCells floats (gridBounds floats lineTolerancePx ocrTokens tableBbox verticalLines .x)
            (gridBounds floats lineTolerancePx ocrTokens tableBbox horizontalLines .y))
          (gridCell floats (gridBounds floats lineTolerancePx ocrTokens tableBbox verticalLines .x)
            (gridBounds floats lineTolerancePx ocrTokens tableBbox horizontalLines .y) r c) t ∧
        ∃ b ∈ t.bbox,
          (gridBounds floats lineTolerancePx ocrTokens tableBbox verticalLines .x).getD (c + i) 0 <
            b.far floats .x := by
  have hincreasing := gridBounds_increasing (lt_of_le_of_lt (by omega : 1 ≤ c + i) hcols)
  rw [stripCount] at hcols
  have hlength : c + i < (gridBounds floats lineTolerancePx ocrTokens tableBbox verticalLines .x).length := by
    omega
  rw [colSpan_filledCell hi]
  simp only [Cuts.le_countP_between_iff hincreasing hi hlength]

/-- Merged cells show in the grid exactly when no token reaches into a column of its row where
none starts: an empty cell is never covered. -/
theorem spansShown_iff :
    SpansShown (extractTable floats lineTolerancePx ocrTokens tableBbox horizontalLines verticalLines
        tableId) ↔
      ReachesFilled floats (gridBounds floats lineTolerancePx ocrTokens tableBbox verticalLines .x)
        (gridBounds floats lineTolerancePx ocrTokens tableBbox horizontalLines .y) ocrTokens := by
  constructor
  · intro hshown t ht b hb r c hstarts next hnext hcols hreach
    obtain ⟨r', hr, c', hc, hcell⟩ := mem_gridCells.mp (startsIn_mem hstarts)
    obtain rfl : r' = r := congrArg TableCell.rowIndex hcell
    obtain rfl : c' = c := congrArg TableCell.colIndex hcell
    obtain ⟨i, hi, rfl⟩ : ∃ i, 0 < i ∧ next = c' + i := ⟨next - c', by omega, by omega⟩
    have hspan : i < (filledCell floats (gridBounds floats lineTolerancePx ocrTokens tableBbox verticalLines .x)
        (gridBounds floats lineTolerancePx ocrTokens tableBbox horizontalLines .y) ocrTokens r' c').colSpan :=
      (lt_colSpan_iff hi hcols).mpr ⟨t, ht, hstarts, b, hb, hreach⟩
    have hshow := hshown _ (mem_extractTable.mpr ⟨r', hr, c', hc, rfl⟩) i hspan
    rw [rowIndex_filledCell, colIndex_filledCell, gridAt_extractTable hr hcols] at hshow
    rcases hshow hcols with hsame | ⟨other, hother, -, hrow, hcol, hfilled⟩
    · have hindex := congrArg TableCell.colIndex (Option.some.inj hsame)
      rw [colIndex_filledCell, colIndex_filledCell] at hindex
      omega
    · obtain ⟨r, -, c, -, rfl⟩ := mem_extractTable.mp hother
      rw [rowIndex_filledCell] at hrow
      rw [colIndex_filledCell] at hcol
      subst hrow hcol
      obtain ⟨u, hu⟩ := List.exists_mem_of_ne_nil _ hfilled
      exact ⟨u, mem_tokens_filledCell.mp hu⟩
  · intro hreaches cell hcell i hi hcols
    obtain ⟨r, hr, c, hc, rfl⟩ := mem_extractTable.mp hcell
    rw [colIndex_filledCell] at hcols ⊢
    rw [rowIndex_filledCell]
    rcases Nat.eq_zero_or_pos i with rfl | hpos
    · exact .inl (gridAt_extractTable hr hc)
    · right
      obtain ⟨t, ht, hstarts, b, hb, hreach⟩ := (lt_colSpan_iff hpos hcols).mp hi
      obtain ⟨u, hu, hustarts⟩ := hreaches t ht b hb r c hstarts (c + i) (by omega) hcols hreach
      refine ⟨_, mem_extractTable.mpr ⟨r, hr, c + i, hcols, rfl⟩, ?_, rowIndex_filledCell r (c + i),
        colIndex_filledCell r (c + i), List.ne_nil_of_mem (mem_tokens_filledCell.mpr ⟨hu, hustarts⟩)⟩
      intro hsame
      have hindex := congrArg TableCell.colIndex hsame
      rw [colIndex_filledCell, colIndex_filledCell] at hindex
      omega

end Table

def wideHeading : OCRToken := ⟨"Khata".toList, 9 / 10, some ⟨10, 10, 150, 20⟩, []⟩

/-- The heading's cell spans both columns, and the grid still shows the empty second cell. -/
theorem wideHeading_notShown :
    ¬ SpansShown (extractTable .binary64 8 [wideHeading] none (some [0, 40]) (some [0, 100, 200])
      "t".toList) := by
  unfold SpansShown
  decide +kernel

def besideHeading : OCRToken := ⟨"1/2".toList, 9 / 10, some ⟨110, 10, 20, 20⟩, []⟩

/-- With a token in the second column, the heading's span covers nothing that is empty. -/
theorem besideHeading_shown :
    SpansShown (extractTable .binary64 8 [wideHeading, besideHeading] none (some [0, 40])
      (some [0, 100, 200]) "t".toList) ∧
    ReachesFilled .binary64
      (gridBounds .binary64 8 [wideHeading, besideHeading] none (some [0, 100, 200]) .x)
      (gridBounds .binary64 8 [wideHeading, besideHeading] none (some [0, 40]) .y)
      [wideHeading, besideHeading] := by
  have hshown : SpansShown (extractTable .binary64 8 [wideHeading, besideHeading] none
      (some [0, 40]) (some [0, 100, 200]) "t".toList) := by
    unfold SpansShown
    decide +kernel
  exact ⟨hshown, spansShown_iff.mp hshown⟩

def tokensAtCut : List OCRToken :=
  [⟨"Khata".toList, 9 / 10, some ⟨3, 0, 50, 10⟩, []⟩,
    ⟨"1/2".toList, 9 / 10, some ⟨Binary64.fl (57 / 10), 1, Binary64.fl (98 / 10), 5⟩, []⟩]

def tableAtCut (floats : FloatFormat) : TableStructure :=
  extractTable floats 8 tokensAtCut none (some [0, 40])
    (some [Binary64.fl (23 / 10), Binary64.fl (106 / 10), 60]) "t".toList

-- the right edge of the first column is computed, and is not the cut
example : (tableAtCut .binary64).cells.map (fun cell => cell.tokens.length) = [2, 0] ∧
    (tableAtCut .rational).cells.map (fun cell => cell.tokens.length) = [1, 1] := by
  decide +kernel

end LandRecords.Ocr
