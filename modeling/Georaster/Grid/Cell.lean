import Georaster.Grid.Size
import Georaster.Error
import Georaster.Binary.Arith
/-!
# Cells

A cell is a position `(row, col)` in a grid; rows count downward from the top, columns to the
right. A cell with a negative coordinate is invalid, and `(-1, -1)` is the invalid cell that
marks "no position".

Cells are numbered in row-major order: the index of `(r, c)` in a grid of `n` columns is
`r * n + c`. The index is a machine word, so a grid width is read modulo `2 ^ 64` and a product
or sum past the word aborts, as does the index of an invalid cell; the cell of an index divides
by the width and aborts for width zero.

Coordinates are 32-bit signed integers, and arithmetic on them is checked (`Coord.add`,
`Coord.sub`, `Coord.mul`): a result outside that range aborts. So stepping past the last
column or row, and the distance between cells farther apart than a coordinate can count, abort.

A `CellIterator` walks the cells of a grid in row-major order with a cursor cell; its size hint
counts the cells left in coordinate arithmetic, so it aborts on a grid with more cells than a
coordinate can count.
-/

namespace Georaster

/-- A position in a grid. -/
structure Cell where
  /-- The row, counted from the top. -/
  row : Int
  /-- The column, counted from the left. -/
  col : Int
  deriving DecidableEq, Repr, Inhabited

/-- An outcome that aborts with the given text. -/
def abort {α : Type} (text : String) : Outcome α := .error (.abort text)

/-- The size of a machine word, `2 ^ 64`. -/
def wordSize : Nat := 18446744073709551616

/-- An integer reduced to a 32-bit signed value, as a narrowing conversion of a word does. -/
def wrapToInt32 (n : Nat) : Int :=
  let r : Nat := n % 4294967296
  if r < 2147483648 then (r : Int) else (r : Int) - 4294967296

namespace Coord

/-- Whether an integer is a coordinate: a 32-bit signed integer. -/
def fits (n : Int) : Bool := decide (-2147483648 ≤ n ∧ n < 2147483648)

/-- The result of an arithmetic step named `step` if it is a coordinate; otherwise aborts. -/
def checked (step : String) (n : Int) : Outcome Int :=
  if fits n then .ok n else abort s!"attempt to {step} with overflow"

/-- The sum of two coordinates, which must be a coordinate. -/
def add (a b : Int) : Outcome Int := checked "add" (a + b)

/-- The difference of two coordinates, which must be a coordinate. -/
def sub (a b : Int) : Outcome Int := checked "subtract" (a - b)

/-- The product of two coordinates, which must be a coordinate. -/
def mul (a b : Int) : Outcome Int := checked "multiply" (a * b)

/-- A checked step gives the exact result exactly when it is a coordinate. -/
theorem checked_eq_ok_iff (step : String) (n m : Int) :
    checked step n = .ok m ↔ fits n = true ∧ n = m := by
  unfold checked abort
  by_cases h : fits n = true <;> simp [h, eq_comm]

end Coord

namespace Cell

/-- The invalid cell `(-1, -1)`. -/
def invalid : Cell := ⟨-1, -1⟩

/-- Whether both coordinates are nonnegative. -/
def isValid (c : Cell) : Bool := decide (0 ≤ c.row ∧ 0 ≤ c.col)

/-- Whether the cell lies in a grid of the given size. -/
def isIn (c : Cell) (s : GridSize) : Bool := c.isValid && decide (c.row < s.rows ∧ c.col < s.cols)

/-- The text `(row, col)`. -/
def display (c : Cell) : String := s!"({c.row}, {c.col})"

/-- The next cell in row-major order in a grid of `cols` columns: one column on, or the first
column of the next row once the column reaches `cols`. -/
def increment (c : Cell) (cols : Int) : Outcome Cell := do
  let col ← Coord.add c.col 1
  if cols ≤ col then pure ⟨← Coord.add c.row 1, 0⟩ else pure ⟨c.row, col⟩

/-- The row-major index of the cell in a grid of `cols` columns. -/
def index (c : Cell) (cols : Int) : Outcome Nat :=
  if !c.isValid then abort s!"Index requested for invalid cell {c.display}"
  else
    let width := (cols % (wordSize : Int)).toNat
    let start := c.row.toNat * width
    if wordSize ≤ start then abort "attempt to multiply with overflow"
    else if wordSize ≤ start + c.col.toNat then abort "attempt to add with overflow"
    else .ok (start + c.col.toNat)

/-- The cell of a row-major index in a grid of `cols` columns. -/
def ofIndex (i : Nat) (cols : Int) : Outcome Cell :=
  let width := (cols % (wordSize : Int)).toNat
  if width = 0 then abort "attempt to divide by zero"
  else .ok ⟨wrapToInt32 (i / width), wrapToInt32 (i % width)⟩

/-- The Euclidean distance between the centres of two cells, in double precision. The column
offset is taken first, then the row offset; each must be a coordinate. -/
def distance (a b : Cell) : Outcome Binary64 := do
  let x : Binary64 := BinaryFloat.ofInt (← Coord.sub b.col a.col)
  let y : Binary64 := BinaryFloat.ofInt (← Coord.sub b.row a.row)
  pure (x * x + y * y).sqrt

/-- Cells are ordered by row, then by column. -/
def compare (a b : Cell) : Ordering :=
  (Ord.compare a.row b.row).then (Ord.compare a.col b.col)

instance : Ord Cell := ⟨compare⟩

end Cell

namespace GridSize

/-- The cells of a grid in row-major order; none when either count is not positive. -/
def cells (s : GridSize) : List Cell :=
  (List.range s.rows.toNat).flatMap fun (r : Nat) =>
    (List.range s.cols.toNat).map fun (c : Nat) => Cell.mk (r : Int) (c : Int)

end GridSize

/-- A walk over the cells of a grid in row-major order, from the top-left cell: the counts it
walks and the cursor, the cell it yields next. -/
structure CellIterator where
  /-- The number of rows walked. -/
  rows : Int
  /-- The number of columns. -/
  cols : Int
  /-- The next cell. -/
  current : Cell
  deriving DecidableEq, Repr

namespace CellIterator

/-- The walk over a grid of `rows` rows and `cols` columns. A grid without columns is walked as
one without rows. -/
def forRowsCols (rows cols : Int) : CellIterator :=
  ⟨if 0 < cols then rows else 0, cols, ⟨0, 0⟩⟩

/-- The next cell, with the cursor moved on one cell; once the cursor is past the last row, no
cell, and the walk stays where it is. -/
def next (it : CellIterator) : Outcome (Option Cell × CellIterator) :=
  if it.rows ≤ it.current.row then pure (none, it)
  else do
    let c ← it.current.increment it.cols
    pure (some it.current, { it with current := c })

/-- The number of cells left, given as both bounds of the size hint: the rows from the cursor's
on times the columns, less the columns before the cursor, in coordinate arithmetic and read as a
machine word. -/
def sizeHint (it : CellIterator) : Outcome (Nat × Option Nat) := do
  let remaining ← if it.rows ≤ it.current.row then pure 0 else do
    let rowsLeft ← Coord.sub it.rows it.current.row
    let cells ← Coord.mul rowsLeft it.cols
    let left ← Coord.sub cells it.current.col
    pure (left % (wordSize : Int)).toNat
  pure (remaining, some remaining)

end CellIterator

end Georaster
