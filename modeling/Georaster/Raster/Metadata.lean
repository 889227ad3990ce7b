import Georaster.Grid.Cell
import Georaster.Decimal.Layout
import Georaster.Error
/-!
# Raster metadata

The metadata of a raster are its size, its nodata value, and its georeference: the cell size
and the coordinates of the lower-left corner, with an optional EPSG projection code. The nodata
value is kept in double precision whatever the pixel type, so that it passes unchanged between
rasters of different types; whether the pixel type can hold it is checked where a raster is made.

Two metadata are equal when all fields are, where the floating-point fields compare as numbers
(so `-0 = 0`) except that two NaN nodata values are equal.
-/

namespace Georaster

/-- Describes a raster: its dimensions, its nodata value and its georeference. -/
structure Metadata where
  /-- The number of rows. -/
  rows : Int
  /-- The number of columns. -/
  cols : Int
  /-- The value that marks missing cells, if any. -/
  nodata : Option Binary64
  /-- The width and height of a cell. -/
  cellSize : Binary64
  /-- The x coordinate of the lower-left corner. -/
  xll : Binary64
  /-- The y coordinate of the lower-left corner. -/
  yll : Binary64
  /-- The EPSG code of the projection. -/
  projection : Option Int

namespace Metadata

/-- The positive zero of double precision. -/
def zero : Binary64 := BinaryFloat.zero false

/-- Metadata of the given dimensions, with no nodata value, zero georeference and no
projection. -/
def ofRowsCols (rows cols : Int) : Metadata := ⟨rows, cols, none, zero, zero, zero, none⟩

/-- The metadata of a raster without cells. -/
def default : Metadata := ofRowsCols 0 0

/-- Metadata of the given size and nodata value. -/
def sized (s : GridSize) (nodata : Option Binary64) : Metadata :=
  { ofRowsCols s.rows s.cols with nodata }

/-- The same metadata with another nodata value. -/
def withNodata (m : Metadata) (nodata : Option Binary64) : Metadata := { m with nodata }

/-- The nodata value set is the one read back. -/
@[simp] theorem withNodata_nodata (m : Metadata) (nodata : Option Binary64) :
    (m.withNodata nodata).nodata = nodata := rfl

/-- The same metadata with another cell size. -/
def withCellSize (m : Metadata) (cellSize : Binary64) : Metadata := { m with cellSize }

/-- The same metadata with another lower-left corner. -/
def withOrigin (m : Metadata) (xll yll : Binary64) : Metadata := { m with xll, yll }

/-- The same metadata with a projection. -/
def withProjection (m : Metadata) (epsg : Int) : Metadata := { m with projection := some epsg }

/-- The size of the raster. -/
def size (m : Metadata) : GridSize := ⟨m.rows, m.cols⟩

/-- Changing the nodata value keeps the dimensions. -/
@[simp] theorem withNodata_size (m : Metadata) (nodata : Option Binary64) :
    (m.withNodata nodata).size = m.size := rfl

/-- The number of cells. -/
def cellCount (m : Metadata) : Nat := m.size.cellCount

/-- Whether the cell lies in the raster. -/
def containsCell (m : Metadata) (c : Cell) : Bool := c.isIn m.size

/-- Half a cell. -/
def half : Binary64 := BinaryFloat.ofRatio false 1 2

/-- The x coordinate of the centre of a column: `xll + (col + 0.5) * cellSize`. -/
def centerX (m : Metadata) (col : Int) : Binary64 :=
  m.xll + (BinaryFloat.ofInt col + half) * m.cellSize

/-- The y coordinate of the centre of a row, rows counting down from the top:
`yll + (rows - row - 0.5) * cellSize`. -/
def centerY (m : Metadata) (row : Int) : Binary64 :=
  m.yll + (BinaryFloat.ofInt m.rows - BinaryFloat.ofInt row - half) * m.cellSize

/-- Checks that a buffer of `n` values fits the dimensions: both counts nonnegative and their
product `n`. -/
def checkDataSize (m : Metadata) (n : Nat) : Except RasterError Unit :=
  if m.rows < 0 ∨ m.cols < 0 ∨ m.cellCount ≠ n then
    .error (.invalidArgument
      s!"Raster data size does not match provided dimensions {n} vs {m.rows}x{m.cols}")
  else .ok ()

/-- Whether two nodata values are equal: both absent, or both present and equal as numbers
or both NaN. -/
def nodataEq : Option Binary64 → Option Binary64 → Bool
  | some a, some b => a.eq b || (a.isNaN && b.isNaN)
  | none, none => true
  | _, _ => false

/-- Whether two metadata are equal. -/
def eq (a b : Metadata) : Bool :=
  a.rows == b.rows && a.cols == b.cols && nodataEq a.nodata b.nodata &&
    a.cellSize.eq b.cellSize && a.xll.eq b.xll && a.yll.eq b.yll && a.projection == b.projection

/-- An optional value as `Some(v)` or `None`. -/
def optionText {α : Type} (text : α → String) : Option α → String
  | some a => "Some(" ++ text a ++ ")"
  | none => "None"

/-- The one-line description: dimensions and georeference with positional numbers, nodata and
projection as optional values, nodata in the general layout. -/
def display (m : Metadata) : String :=
  let pos := fun (x : Binary64) => FloatLayout.positional.render x
  s!"Meta rows: {m.rows} cols: {m.cols} xll: {pos m.xll} yll: {pos m.yll} " ++
    s!"cellsize: {pos m.cellSize} nodata: {optionText FloatLayout.general.render m.nodata} " ++
    s!"epsg: {optionText toString m.projection}"

end Metadata

end Georaster
