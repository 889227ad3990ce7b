import Georaster.Proofs.Analysis.Extremes
import Georaster.Proofs.Raster.Walk
/-!
# Row-major order of the cells of a grid

Two descriptions of the row-major order of a grid meet here. The cell of index `i` in a grid of
`n` columns lies at row `i / n` and column `i % n` (`Cell.ofDivMod`); a `CellIterator` walks the
grid with a cursor that moves one column on and wraps to the first column of the next row.

* Stepping the cell of index `k` gives the cell of index `k + 1` (`Cell.increment_ofDivMod`).
  With its cursor on the cell of index `k`, a walk yields that cell and moves the cursor on; with
  the cursor on the index past the last cell it yields nothing and stays
  (`CellIterator.Bounded.next_seek`). So `j` calls from index `k` yield the cells of indices `k`
  to `k + j - 1` while there are any, and nothing after them
  (`CellIterator.Bounded.nexts_seek`).
* While the number of cells is a coordinate, the size hint with the cursor on index `k` is the
  number of cells from `k` on (`CellIterator.Bounded.sizeHint_seek`).
* In a grid of positive coordinate width, the index of a cell and the cell of an index are
  inverse between the cells of the grid's columns whose row is a coordinate and the indices below
  `2 ^ 31` rows (`Cell.ofIndex_index`, `Cell.index_ofIndex`).

`CellIterator.walks_row_major` puts these together for the walk that `forRowsCols` sets up.
-/

namespace Georaster

namespace Coord

theorem mul_of_fits {a b : Int} (h : fits (a * b) = true) : mul a b = .ok (a * b) :=
  (checked_eq_ok_iff _ _ _).mpr ⟨h, rfl⟩

end Coord

/-! ### Cells of indices -/

namespace Cell

variable {cols : Int}

/-- The cell of index `k` lies in row `k / n`, at column `k % n`. -/
@[simp] theorem ofDivMod_row (k : Nat) : (ofDivMod k cols).row = ((k / cols.toNat : Nat) : Int) :=
  rfl

@[simp] theorem ofDivMod_col (k : Nat) : (ofDivMod k cols).col = ((k % cols.toNat : Nat) : Int) :=
  rfl

/-- The cell of row `q` and column `r` is the cell of index `q * n + r`. -/
theorem ofDivMod_mul_add {q r : Nat} (hr : r < cols.toNat) :
    ofDivMod (q * cols.toNat + r) cols = ⟨q, r⟩ := by
  obtain ⟨hdiv, hmod⟩ := SparseRaster.div_mod_index (k := q) hr
  simp only [ofDivMod, hdiv, hmod]

/-- In a grid of positive width every index is that of a row and a column. -/
theorem exists_ofDivMod (hn : 0 < cols.toNat) (k : Nat) :
    ∃ q r, r < cols.toNat ∧ k = q * cols.toNat + r ∧ ofDivMod k cols = ⟨q, r⟩ := by
  have hr : k % cols.toNat < cols.toNat := Nat.mod_lt k hn
  have hk : k = k / cols.toNat * cols.toNat + k % cols.toNat := (Nat.div_add_mod' k _).symm
  exact ⟨_, _, hr, hk, (congrArg (ofDivMod · cols) hk).trans (ofDivMod_mul_add hr)⟩

/-- Stepping the cell of index `k` gives the cell of index `k + 1`, while the next row is a
coordinate. -/
theorem increment_ofDivMod (hc : 0 < cols) (hcw : cols < 2 ^ 31) {q r : Nat}
    (hr : r < cols.toNat) (hq : q + 1 < 2 ^ 31) :
    (ofDivMod (q * cols.toNat + r) cols).increment cols =
      .ok (ofDivMod (q * cols.toNat + r + 1) cols) := by
  rw [ofDivMod_mul_add hr]
  unfold increment
  dsimp only
  rw [Coord.add_of_fits (Coord.fits_iff.mpr ⟨by omega, by omega⟩), ok_bind]
  by_cases hwrap : cols ≤ (r : Int) + 1
  · -- the last column: the first column of the next row
    have hnext : q * cols.toNat + r + 1 = (q + 1) * cols.toNat + 0 := by
      rw [Nat.add_mul, Nat.one_mul]
      omega
    rw [if_pos hwrap, Coord.add_of_fits (Coord.fits_iff.mpr ⟨by omega, by omega⟩), ok_bind,
      hnext, ofDivMod_mul_add (by omega)]
    rfl
  · -- a column further along the same row
    have hnext : q * cols.toNat + r + 1 = q * cols.toNat + (r + 1) := by omega
    rw [if_neg hwrap, hnext, ofDivMod_mul_add (by omega)]
    rfl

/-- In a grid of positive coordinate width, a cell of the grid's columns whose row is a
coordinate has an index below `2 ^ 31` rows, whose cell it is. -/
theorem ofIndex_index (hc : 0 < cols) (hcw : cols < 2 ^ 31) {c : Cell} (hr : 0 ≤ c.row)
    (hrw : c.row < 2 ^ 31) (h0 : 0 ≤ c.col) (h1 : c.col < cols) :
    c.index cols = .ok (c.position cols) ∧ c.position cols < 2 ^ 31 * cols.toNat ∧
      ofIndex (c.position cols) cols = .ok c := by
  have hcol : c.col.toNat < cols.toNat := by omega
  have hrows : (c.row.toNat + 1) * cols.toNat ≤ 2 ^ 31 * cols.toNat :=
    Nat.mul_le_mul_right _ (by omega)
  have hlt : c.position cols < 2 ^ 31 * cols.toNat := by
    rw [Nat.add_mul, Nat.one_mul] at hrows
    unfold position
    omega
  have hword : 2 ^ 31 * cols.toNat < wordSize := by
    have : 2 ^ 31 * cols.toNat < 2 ^ 31 * 2 ^ 31 := Nat.mul_lt_mul_of_pos_left (by omega) (by omega)
    simp only [wordSize]
    omega
  obtain ⟨hdiv, -⟩ := SparseRaster.div_mod_index (k := c.row.toNat) hcol
  refine ⟨index_eq_position hr h0 (by omega) (by simp only [wordSize]; omega) (by omega), hlt,
    ?_⟩
  rw [ofIndex_eq hc hcw (by unfold position; omega), position, ofDivMod_mul_add hcol,
    Int.toNat_of_nonneg hr, Int.toNat_of_nonneg h0]

/-- In a grid of positive coordinate width, the cell of an index below `2 ^ 31` rows lies in the
grid's columns, its row is a coordinate, and its index is the index. -/
theorem index_ofIndex (hc : 0 < cols) (hcw : cols < 2 ^ 31) {i : Nat}
    (hi : i < 2 ^ 31 * cols.toNat) :
    ofIndex i cols = .ok (ofDivMod i cols) ∧ (ofDivMod i cols).index cols = .ok i ∧
      0 ≤ (ofDivMod i cols).row ∧ (ofDivMod i cols).row < 2 ^ 31 ∧
      0 ≤ (ofDivMod i cols).col ∧ (ofDivMod i cols).col < cols := by
  have hn0 : 0 < cols.toNat := by omega
  have hq : i / cols.toNat < 2 ^ 31 := (Nat.div_lt_iff_lt_mul hn0).mpr (by omega)
  have hword : i < wordSize := by
    have : 2 ^ 31 * cols.toNat < 2 ^ 31 * 2 ^ 31 := Nat.mul_lt_mul_of_pos_left (by omega) (by omega)
    simp only [wordSize]
    omega
  refine ⟨ofIndex_eq hc hcw hq, index_ofDivMod (by omega) (by simp only [wordSize]; omega) hword,
    ?_⟩
  obtain ⟨q, r, hr, rfl, hcell⟩ := exists_ofDivMod hn0 i
  rw [hcell]
  dsimp only
  rw [(SparseRaster.div_mod_index hr).1] at hq
  refine ⟨Int.natCast_nonneg q, ?_, Int.natCast_nonneg r, ?_⟩ <;> omega

/-- In a grid of `cols` columns, the index of a cell and the cell of an index are inverse between
the cells of the grid's columns whose row is a coordinate and the indices below `2 ^ 31` rows. -/
structure IndexRoundTrip (cols : Int) : Prop where
  /-- A cell has an index in range, whose cell it is. -/
  ofIndex_index : ∀ c : Cell, 0 ≤ c.row → c.row < 2 ^ 31 → 0 ≤ c.col → c.col < cols →
    ∃ i, c.index cols = .ok i ∧ i < 2 ^ 31 * cols.toNat ∧ ofIndex i cols = .ok c
  /-- An index in range has a cell, whose index it is. -/
  index_ofIndex : ∀ i, i < 2 ^ 31 * cols.toNat →
    ∃ c, ofIndex i cols = .ok c ∧ 0 ≤ c.row ∧ c.row < 2 ^ 31 ∧ 0 ≤ c.col ∧
      c.col < cols ∧ c.index cols = .ok i

theorem indexRoundTrip (hc : 0 < cols) (hcw : cols < 2 ^ 31) : IndexRoundTrip cols := by
  refine ⟨fun c h0 hrw h1 h2 => ?_, fun i hi => ?_⟩
  · obtain ⟨hidx, hlt, hof⟩ := ofIndex_index hc hcw h0 hrw h1 h2
    exact ⟨_, hidx, hlt, hof⟩
  · obtain ⟨hof, hidx, h0, hrw, h1, h2⟩ := index_ofIndex hc hcw hi
    exact ⟨_, hof, h0, hrw, h1, h2, hidx⟩

end Cell

/-! ### The cells of a grid by index -/

namespace GridSize

/-- The `k`-th cell of a grid is the cell of index `k`, while there is one. -/
theorem getElem?_cells (s : GridSize) (k : Nat) :
    s.cells[k]? = if k < s.cellCount then some (Cell.ofDivMod k s.cols) else none := by
  rw [GridSize.cells_eq, List.getElem?_map]
  by_cases hk : k < s.cellCount
  · rw [List.getElem?_range (n := s.rows.toNat * s.cols.toNat) hk, if_pos hk]
    rfl
  · rw [List.getElem?_eq_none (by rw [List.length_range]; exact Nat.le_of_not_lt hk), if_neg hk]
    rfl

/-- The cells of a grid whose counts are coordinates are the cells of its indices below the
number of cells, each found by `Cell.ofIndex`. -/
theorem mapM_ofIndex (s : GridSize) (hr : s.rows < 2 ^ 31) (hc : s.cols < 2 ^ 31) :
    (List.range s.cellCount).mapM (Cell.ofIndex · s.cols) = .ok s.cells := by
  rw [GridSize.cells_eq]
  refine mapM_eq_ok_map fun k hk => ?_
  have hk : k < s.rows.toNat * s.cols.toNat := List.mem_range.mp hk
  have hpos : 0 < s.cols.toNat := Nat.pos_of_ne_zero fun h => by simp [h] at hk
  have hq : k / s.cols.toNat < s.rows.toNat := (Nat.div_lt_iff_lt_mul hpos).mpr hk
  exact Cell.ofIndex_eq (by omega) hc (by omega)

end GridSize

/-! ### Walking the grid -/

namespace CellIterator

/-- The items of `n` calls of `next` in turn, and the walk after them. -/
def nexts : Nat → CellIterator → Outcome (List (Option Cell) × CellIterator)
  | 0, it => pure ([], it)
  | n + 1, it => do
    let (x, it') ← it.next
    let (xs, it'') ← nexts n it'
    pure (x :: xs, it'')

/-- The grid walked. -/
def grid (it : CellIterator) : GridSize := ⟨it.rows, it.cols⟩

/-- The walk with its cursor on the cell of index `k`. -/
def seek (it : CellIterator) (k : Nat) : CellIterator :=
  { it with current := Cell.ofDivMod k it.cols }

/-- A walk as `forRowsCols` sets it up over coordinate counts: its counts are coordinates, and a
grid without columns is walked as one without rows. -/
structure Bounded (it : CellIterator) : Prop where
  rows_lt : it.rows < 2 ^ 31
  cols_lt : it.cols < 2 ^ 31
  rows_nonpos : it.cols ≤ 0 → it.rows ≤ 0

variable {it : CellIterator}

@[simp] theorem seek_rows (k : Nat) : (it.seek k).rows = it.rows := rfl

@[simp] theorem seek_cols (k : Nat) : (it.seek k).cols = it.cols := rfl

@[simp] theorem seek_current (k : Nat) : (it.seek k).current = Cell.ofDivMod k it.cols := rfl

/-- Past the last row, `next` yields nothing and the walk stays. -/
theorem next_of_le (h : it.rows ≤ it.current.row) : it.next = .ok (none, it) := by
  rw [next, if_pos h]
  rfl

/-- Before the last row, `next` yields the cursor's cell and steps the cursor. -/
theorem next_of_lt (h : it.current.row < it.rows) {c : Cell}
    (hc : it.current.increment it.cols = .ok c) :
    it.next = .ok (some it.current, { it with current := c }) := by
  rw [next, if_neg (Int.not_le.mpr h), hc]
  rfl

/-- Past the last row no cell is left. -/
theorem sizeHint_of_le (h : it.rows ≤ it.current.row) : it.sizeHint = .ok (0, some 0) := by
  rw [sizeHint, if_pos h]
  rfl

/-- Before the last row, the cells left are the rows from the cursor's on times the columns, less
the cursor's column, while each step of that count is a coordinate. -/
theorem sizeHint_of_lt (h : it.current.row < it.rows)
    (hrows : Coord.fits (it.rows - it.current.row) = true)
    (hcells : Coord.fits ((it.rows - it.current.row) * it.cols) = true)
    (hleft : Coord.fits ((it.rows - it.current.row) * it.cols - it.current.col) = true) :
    it.sizeHint = .ok ((((it.rows - it.current.row) * it.cols - it.current.col) %
      (wordSize : Int)).toNat, some ((((it.rows - it.current.row) * it.cols - it.current.col) %
      (wordSize : Int)).toNat)) := by
  rw [sizeHint, if_neg (Int.not_le.mpr h), Coord.sub_of_fits hrows, ok_bind,
    Coord.mul_of_fits hcells, ok_bind, Coord.sub_of_fits hleft, ok_bind]
  rfl

theorem forRowsCols_eq_seek (rows cols : Int) :
    forRowsCols rows cols = (forRowsCols rows cols).seek 0 := by
  simp [forRowsCols, seek, Cell.ofDivMod]

theorem bounded_forRowsCols {rows cols : Int} (hr : Coord.fits rows = true)
    (hc : Coord.fits cols = true) : (forRowsCols rows cols).Bounded := by
  rw [Coord.fits_iff] at hr hc
  refine ⟨?_, hc.2, fun hc0 => ?_⟩ <;> simp only [forRowsCols] at *
  · split <;> omega
  · rw [if_neg (by omega)]

/-- The walk set up by `forRowsCols` walks the grid of the given counts, with no cell when there
are no columns. -/
theorem grid_forRowsCols (rows cols : Int) :
    (forRowsCols rows cols).grid.cells = GridSize.cells ⟨rows, cols⟩ ∧
      (forRowsCols rows cols).grid.cellCount = GridSize.cellCount ⟨rows, cols⟩ := by
  unfold forRowsCols grid
  split
  · exact ⟨rfl, rfl⟩
  · have h0 : cols.toNat = 0 := by omega
    simp [GridSize.cells, h0]

/-- The number of cells of a walked grid is its rows times its columns. -/
theorem cellCount_grid_eq (hr : 0 ≤ it.rows) (hc : 0 ≤ it.cols) :
    ((it.grid.cellCount : Nat) : Int) = it.rows * it.cols := by
  simp only [grid, GridSize.cellCount, Nat.cast_mul, Int.toNat_of_nonneg hr, Int.toNat_of_nonneg hc]

/-- With the cursor on the index past the last cell, the cursor is past the last row. -/
theorem Bounded.rows_le_seek_cellCount (h : it.Bounded) :
    it.rows ≤ (it.seek it.grid.cellCount).current.row := by
  rw [seek_current, Cell.ofDivMod_row]
  by_cases hc : 0 < it.cols
  · have hrow : it.grid.cellCount / it.cols.toNat = it.rows.toNat :=
      Nat.mul_div_cancel _ (show 0 < it.cols.toNat by omega)
    rw [hrow]
    omega
  · have hrow : it.grid.cellCount / it.cols.toNat = 0 := by
      rw [show it.cols.toNat = 0 by omega, Nat.div_zero]
    have := h.rows_nonpos (by omega)
    rw [hrow]
    omega

/-- An index below the number of cells of a walked grid is that of a row and a column of the
grid. -/
theorem exists_row_col_of_lt {k : Nat} (hk : k < it.grid.cellCount) :
    ∃ q r, r < it.cols.toNat ∧ q < it.rows.toNat ∧ k = q * it.cols.toNat + r ∧
      Cell.ofDivMod k it.cols = ⟨q, r⟩ := by
  have hn : 0 < it.cols.toNat := Nat.pos_of_ne_zero fun h0 => by
    simp [grid, GridSize.cellCount, h0] at hk
  obtain ⟨q, r, hr, rfl, hcell⟩ := Cell.exists_ofDivMod hn k
  refine ⟨q, r, hr, ?_, rfl, hcell⟩
  by_contra hq
  have : it.rows.toNat * it.cols.toNat ≤ q * it.cols.toNat := Nat.mul_le_mul_right _ (by omega)
  simp only [grid, GridSize.cellCount] at hk
  omega

/-- One call of `next`: with the cursor on the cell of index `k`, the walk yields the `k`-th
cell of the grid, if there is one, and moves the cursor on, up to the index past the last cell. -/
theorem Bounded.next_seek (h : it.Bounded) {k : Nat} (hk : k ≤ it.grid.cellCount) :
    (it.seek k).next = .ok (it.grid.cells[k]?, it.seek (min (k + 1) it.grid.cellCount)) := by
  rw [GridSize.getElem?_cells]
  rcases Nat.lt_or_eq_of_le hk with hlt | rfl
  · -- a cell is left: it is yielded and the cursor steps to the next index
    obtain ⟨q, r, hr, hq, rfl, hcell⟩ := exists_row_col_of_lt hlt
    have hstay : (it.seek (q * it.cols.toNat + r)).current.row <
        (it.seek (q * it.cols.toNat + r)).rows := by
      rw [seek_rows, seek_current, hcell]
      dsimp only
      omega
    have hinc := Cell.increment_ofDivMod (q := q) (by omega) h.cols_lt hr
      (by have := h.rows_lt; omega)
    rw [next_of_lt hstay hinc, if_pos hlt, Nat.min_eq_left (by omega)]
    rfl
  · -- no cell is left: nothing is yielded and the walk stays
    rw [next_of_le h.rows_le_seek_cellCount, if_neg (Nat.lt_irrefl _), Nat.min_eq_right (by omega)]

/-- Past the last cell of a grid there is no cell. -/
theorem map_getElem?_cells_of_le (s : GridSize) {m : Nat} (hm : s.cellCount ≤ m) (j : Nat) :
    (List.range' m j).map (s.cells[·]?) = List.replicate j none := by
  rw [List.eq_replicate_iff]
  refine ⟨by simp, fun o ho => ?_⟩
  obtain ⟨i, hi, rfl⟩ := List.mem_map.mp ho
  rw [GridSize.getElem?_cells, if_neg (by rw [List.mem_range'_1] at hi; omega)]

/-- A run of `next`: from the cursor on index `k`, `j` calls yield the cells of the grid of
indices `k` to `k + j - 1`, nothing past the last cell, and leave the cursor on index
`k + j`, or on the index past the last cell. -/
theorem Bounded.nexts_seek (h : it.Bounded) :
    ∀ (j : Nat) {k : Nat}, k ≤ it.grid.cellCount →
      nexts j (it.seek k) = .ok ((List.range' k j).map (it.grid.cells[·]?),
        it.seek (min (k + j) it.grid.cellCount))
  | 0, k, hk => by
    simp [nexts, Nat.min_eq_left hk]
  | j + 1, k, hk => by
    have hrest := h.nexts_seek j (k := min (k + 1) it.grid.cellCount) (Nat.min_le_right _ _)
    simp only [nexts, h.next_seek hk, ok_bind, hrest, pure_eq_ok, List.range'_succ, List.map_cons]
    rcases Nat.lt_or_eq_of_le hk with hlt | rfl
    · rw [Nat.min_eq_left (by omega : k + 1 ≤ it.grid.cellCount),
        show k + 1 + j = k + (j + 1) by omega]
    · -- past the last cell every call yields nothing and the cursor stays
      rw [Nat.min_eq_right (by omega), Nat.min_eq_right (by omega), Nat.min_eq_right (by omega),
        map_getElem?_cells_of_le _ (Nat.le_succ _), map_getElem?_cells_of_le _ le_rfl]

/-- While the number of cells is a coordinate, counting the cells left from row `q` and column
`r` of the grid takes only coordinates, and the count is positive. -/
theorem fits_cellsLeft {rows cols : Int} {q r : Nat} (hr : r < cols.toNat) (hq : q < rows.toNat)
    (hrw : rows < 2 ^ 31) (hf : Coord.fits (rows * cols) = true) :
    Coord.fits (rows - q) = true ∧ Coord.fits ((rows - q) * cols) = true ∧
      Coord.fits ((rows - q) * cols - r) = true ∧ 0 < (rows - q) * cols - r := by
  have hc : 0 < cols := by omega
  have hle : (rows - q) * cols ≤ rows * cols := Int.mul_le_mul_of_nonneg_right (by omega) hc.le
  -- at least the row of the cursor is left
  have hlast : cols ≤ (rows - q) * cols := by
    have := Int.mul_le_mul_of_nonneg_right (show (1 : Int) ≤ rows - q by omega) hc.le
    rwa [Int.one_mul] at this
  have hfits := Coord.fits_iff.mp hf
  exact ⟨Coord.fits_iff.mpr ⟨by omega, by omega⟩, Coord.fits_iff.mpr ⟨by omega, by omega⟩,
    Coord.fits_iff.mpr ⟨by omega, by omega⟩, by omega⟩

/-- While the number of cells is a coordinate, the size hint with the cursor on index `k` counts
the cells from `k` on. -/
theorem Bounded.sizeHint_seek (h : it.Bounded) (hf : Coord.fits (it.rows * it.cols) = true)
    {k : Nat} (hk : k ≤ it.grid.cellCount) :
    (it.seek k).sizeHint =
      .ok (it.grid.cellCount - k, some (it.grid.cellCount - k)) := by
  rcases Nat.lt_or_eq_of_le hk with hlt | rfl
  · -- a cell is left: the rows from the cursor's on, times the columns, less the cursor's column
    obtain ⟨q, r, hr, hq, rfl, hcell⟩ := exists_row_col_of_lt hlt
    have hc : 0 < it.cols := by omega
    have hcount := cellCount_grid_eq (by omega) hc.le
    have hleft : (it.rows - q) * it.cols - r = it.rows * it.cols - (q * it.cols + r) := by ring
    obtain ⟨hrowsLeft, hcells, hleftFits, hpos⟩ := fits_cellsLeft hr hq h.rows_lt hf
    have hword := Coord.fits_iff.mp hleftFits
    have hcur : (it.seek (q * it.cols.toNat + r)).current = ⟨q, r⟩ := by
      rw [seek_current, hcell]
    rw [sizeHint_of_lt (by rw [hcur, seek_rows]; dsimp only; omega)
      (by rw [hcur]; exact hrowsLeft) (by rw [hcur]; exact hcells) (by rw [hcur]; exact hleftFits),
      hcur, seek_rows, seek_cols]
    dsimp only
    rw [hleft, Int.emod_eq_of_lt (by omega) (by simp only [wordSize]; omega)]
    have hnat : (it.rows * it.cols - (q * it.cols + r)).toNat =
        it.grid.cellCount - (q * it.cols.toNat + r) := by
      have hk : ((q * it.cols.toNat + r : Nat) : Int) = q * it.cols + r := by
        push_cast
        rw [Int.toNat_of_nonneg hc.le]
      omega
    rw [hnat]
  · -- no cell is left
    rw [sizeHint_of_le h.rows_le_seek_cellCount, Nat.sub_self]

/-! ### The walk over a grid -/

/-- The walk over a grid of `rows` by `cols` cells: the cells of the grid are those of its indices
below the number of cells; the `k`-th call of `next` yields the `k`-th cell while there is one and
nothing after the last; and while the number of cells is a coordinate, the size hint after `k`
calls counts the cells left. -/
structure WalksGrid (rows cols : Int) : Prop where
  /-- The cells of the grid are those of its indices, in order. -/
  cells_eq : (List.range (GridSize.cellCount ⟨rows, cols⟩)).mapM (Cell.ofIndex · cols) =
    .ok (GridSize.cells ⟨rows, cols⟩)
  /-- `k` calls yield the first `k` cells, then nothing, and leave a walk whose size hint is the
  number of cells left. -/
  nexts_eq : ∀ k, ∃ it, (forRowsCols rows cols).nexts k =
      .ok ((List.range k).map ((GridSize.cells ⟨rows, cols⟩)[·]?), it) ∧
    (Coord.fits (rows * cols) = true →
      it.sizeHint = .ok (GridSize.cellCount ⟨rows, cols⟩ - k,
        some (GridSize.cellCount ⟨rows, cols⟩ - k)))

/-- The walk over a grid whose counts are coordinates yields its cells in row-major order, the
cells of indices `0` to `max rows 0 * max cols 0 - 1`, then nothing at every later call, and its
size hint counts the cells left after every call while the number of cells is a coordinate. In a
grid with columns, the index of a cell and the cell of an index are inverse. -/
theorem walks_row_major (rows cols : Int) (hr : Coord.fits rows = true)
    (hc : Coord.fits cols = true) :
    WalksGrid rows cols ∧ (0 < cols → Cell.IndexRoundTrip cols) := by
  have hb := bounded_forRowsCols hr hc
  obtain ⟨hcells, hcount⟩ := grid_forRowsCols rows cols
  have hrw := (Coord.fits_iff.mp hr).2
  have hcw := (Coord.fits_iff.mp hc).2
  refine ⟨⟨GridSize.mapM_ofIndex ⟨rows, cols⟩ hrw hcw, fun k => ?_⟩,
    fun hpos => Cell.indexRoundTrip hpos hcw⟩
  -- the walk starts with its cursor on the cell of index zero
  have hrun := hb.nexts_seek k (k := 0) (Nat.zero_le _)
  rw [← forRowsCols_eq_seek, Nat.zero_add, ← List.range_eq_range', hcells] at hrun
  refine ⟨_, hrun, fun hf => ?_⟩
  have hf' : Coord.fits ((forRowsCols rows cols).rows * (forRowsCols rows cols).cols) = true := by
    unfold forRowsCols
    split
    · exact hf
    · simp [Coord.fits]
  have hleft : GridSize.cellCount ⟨rows, cols⟩ - min k (GridSize.cellCount ⟨rows, cols⟩) =
      GridSize.cellCount ⟨rows, cols⟩ - k := by
    omega
  rw [hb.sizeHint_seek hf' (Nat.min_le_right _ _), hcount, hleft]

/-- The walk over a grid of two rows and three columns. -/
theorem walks_row_major_two_by_three :
    Coord.fits 2 = true ∧ Coord.fits 3 = true ∧
      (WalksGrid 2 3 ∧ (0 < (3 : Int) → Cell.IndexRoundTrip 3)) :=
  ⟨by decide, by decide, walks_row_major 2 3 (by decide) (by decide)⟩

example : ((forRowsCols 2 3).nexts 7).map Prod.fst =
    .ok [some ⟨0, 0⟩, some ⟨0, 1⟩, some ⟨0, 2⟩, some ⟨1, 0⟩, some ⟨1, 1⟩, some ⟨1, 2⟩,
      none] := by
  rfl

end CellIterator

end Georaster
