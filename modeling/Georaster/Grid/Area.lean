import Georaster.Grid.Cell
/-!
# Rectangular areas

An area is a rectangle of cells given by its top-left cell and its numbers of rows and columns;
a count that is not positive makes it empty. Areas are cut to a grid in two ways:

* `Area.square size center radius` is the square of cells within `radius` rows and columns of
  `center`, clipped to the grid; a negative radius gives an empty area at the centre.
* `Area.clipRect size topLeft rows cols` is the rectangle starting at `topLeft`, clipped to the
  grid; a top-left cell outside the grid gives an empty area there.

`Area.fits` is the condition for walking an area over a row-major buffer: the area lies in the
columns of the grid and its last cell has an index below the buffer length.

The last cell, containment and the clipped square count in coordinates (`Coord`), so each of
them aborts when a bound it computes leaves the coordinate range.
-/

namespace Georaster

/-- A rectangle of cells. -/
structure Area where
  /-- The first cell. -/
  topLeft : Cell
  /-- The number of rows. -/
  rows : Int
  /-- The number of columns. -/
  cols : Int
  deriving DecidableEq, Repr, Inhabited

namespace Area

/-- The area that covers a whole grid. -/
def full (s : GridSize) : Area := ⟨⟨0, 0⟩, s.rows, s.cols⟩

/-- Whether the area holds no cell. -/
def isEmpty (a : Area) : Bool := decide (a.rows ≤ 0 ∨ a.cols ≤ 0)

/-- The last cell of the area, the invalid cell for an empty area. -/
def bottomRight (a : Area) : Outcome Cell :=
  if a.isEmpty then pure Cell.invalid
  else do
    let row ← Coord.sub (← Coord.add a.topLeft.row a.rows) 1
    let col ← Coord.sub (← Coord.add a.topLeft.col a.cols) 1
    pure ⟨row, col⟩

/-- The number of cells. -/
def cellCount (a : Area) : Nat := if a.isEmpty then 0 else a.rows.toNat * a.cols.toNat

/-- Whether the cell lies in the area. The conditions are tried in turn: not empty, not above,
not left of it, above the end row, left of the end column; each end is computed only when
the conditions before it hold. -/
def contains (a : Area) (c : Cell) : Outcome Bool :=
  if a.isEmpty || decide (c.row < a.topLeft.row ∨ c.col < a.topLeft.col) then pure false
  else do
    let endRow ← Coord.add a.topLeft.row a.rows
    if endRow ≤ c.row then pure false
    else do pure (decide (c.col < (← Coord.add a.topLeft.col a.cols)))

/-- The square of cells within `radius` of `center`, clipped to a grid of size `s`. Its
bounds are computed top, left, bottom, right. -/
def square (s : GridSize) (center : Cell) (radius : Int) : Outcome Area :=
  if radius < 0 then pure ⟨center, 0, 0⟩
  else do
    let top := max (← Coord.sub center.row radius) 0
    let left := max (← Coord.sub center.col radius) 0
    let bottom := min (← Coord.add center.row radius) (← Coord.sub s.rows 1)
    let right := min (← Coord.add center.col radius) (← Coord.sub s.cols 1)
    if bottom < top ∨ right < left then pure ⟨⟨top, left⟩, 0, 0⟩
    else pure ⟨⟨top, left⟩, bottom - top + 1, right - left + 1⟩

/-- The rectangle of `rows` by `cols` cells from `topLeft`, clipped to a grid of size `s`. -/
def clipRect (s : GridSize) (topLeft : Cell) (rows cols : Int) : Area :=
  if !topLeft.isIn s then ⟨topLeft, 0, 0⟩
  else
    ⟨topLeft, max (min rows (s.rows - topLeft.row)) 0, max (min cols (s.cols - topLeft.col)) 0⟩

/-- Whether the area can be walked over a row-major buffer of `len` values and `gridCols`
columns: an empty area always can; otherwise the area starts at a valid cell, ends before the
last column, and its last cell has an index below `len`. -/
def fits (a : Area) (gridCols : Int) (len : Nat) : Outcome Bool :=
  if a.isEmpty then pure true
  else do
    let br ← a.bottomRight
    pure (decide (0 ≤ a.topLeft.row ∧ 0 ≤ a.topLeft.col ∧ br.col < gridCols) &&
      decide (br.row.toNat * gridCols.toNat + br.col.toNat < len))

/-- The structural description of the area: its top-left cell's fields, then the counts. -/
def describe (a : Area) : String :=
  s!"RasterArea \x7b top_left: Cell \x7b row: {a.topLeft.row}, col: {a.topLeft.col} \x7d, " ++
    s!"rows: {a.rows}, cols: {a.cols} \x7d"

end Area

end Georaster
