import Georaster.Nodata
import Georaster.Raster.Metadata
import Georaster.Raster.Buffer
/-!
# Sparse rasters

A sparse raster stores only its data cells, in compressed sparse rows: three lists, the
`rows + 1` row offsets, and the column and the value of each entry. The entries of row `k` are
those from offset `k` up to offset `k + 1`, in increasing order of column. A cell without an
entry is missing. An entry is data even when its value equals the nodata value, which a sparse
raster must have, in its pixel type.

Locating a cell divides its index by the number of columns, reads the two offsets of its row and
searches its column among the row's entries by bisection (`search`): a grid without columns
aborts on the division, and an index in a row past the last aborts on the offset it reads.
Reading every cell in order instead merges the entries with the grid (`cellsFrom`), with one
cursor on the next entry and one on the row that entry belongs to.

Building from entries sorted by index counts the entries of each row into the offset after it
and then sums the counts up; building from a function of the index collects the data cells row
by row; dropping entries compacts them row by row, rewriting every offset.
-/

namespace Georaster

/-- Where a column stands among the sorted columns of a row: at an entry holding it, or at the
position where it would be inserted. -/
inductive Slot where
  | found (pos : Nat)
  | vacant (pos : Nat)
  deriving DecidableEq, Repr

namespace Slot

/-- The slot `n` positions further on. -/
def shift (n : Nat) : Slot → Slot
  | found p => found (n + p)
  | vacant p => vacant (n + p)

end Slot

/-- Bisection for `x` over the `size` elements of `xs` from `base` on: the candidates are halved,
the upper half kept unless its first element is above `x`, until one is left. -/
def bisect (xs : List Int) (x : Int) (base size : Nat) : Nat :=
  if h : size ≤ 1 then base
  else
    let mid := base + size / 2
    bisect xs x (if x < xs.getD mid 0 then base else mid) (size - size / 2)
termination_by size
decreasing_by omega

/-- Searches a sorted list of columns for `x`: the position holding it, or the position where it
would be inserted. -/
def search (xs : List Int) (x : Int) : Slot :=
  if xs.isEmpty then .vacant 0
  else
    let base := bisect xs x 0 xs.length
    let y := xs.getD base 0
    if y = x then .found base else if y < x then .vacant (base + 1) else .vacant base

/-- A stored data cell. -/
structure SparseEntry where
  /-- The row-major index of the cell. -/
  index : Nat
  /-- The value of the cell. -/
  value : Pixel

/-- A raster that stores its data cells only, in compressed sparse rows. -/
structure SparseRaster where
  /-- The pixel type. -/
  type : PixelType
  /-- The metadata. -/
  metadata : Metadata
  /-- The nodata value in the pixel type. -/
  nodata : Pixel
  /-- Where the entries of each row start, and after the last row where they end. -/
  rowOffsets : List Nat
  /-- The column of each entry. -/
  colIndices : List Int
  /-- The value of each entry. -/
  values : List Pixel

namespace SparseRaster

/-- The nodata value that a sparse raster of type `t` takes from the metadata: it must be
usable by the type and present. -/
def nodataOf (t : PixelType) (m : Metadata) : Except RasterError Pixel := do
  t.validateNodata m.nodata
  match t.nodataValue m.nodata with
  | some v => pure v
  | none => .error (.invalidConfiguration "Sparse rasters must have a nodata value")

/-- A raster without data cells: every offset zero. -/
def empty (t : PixelType) (m : Metadata) : Except RasterError SparseRaster := do
  let n ← nodataOf t m
  m.checkDataSize m.cellCount
  pure ⟨t, m, n, List.replicate (m.rows.toNat + 1) 0, [], []⟩

/-- Each element plus all the elements before it. -/
def runningSums (counts : List Nat) : List Nat := (counts.scanl (· + ·) 0).tail

/-- A raster with the given entries, which must be cells of the raster in increasing order of
index. Each entry is counted in the offset after its row's, and the counts are then summed up.
(The entries are cells of the raster, so the grid has columns and every counted offset exists.) -/
def ofSortedEntries (t : PixelType) (m : Metadata) (entries : List SparseEntry) :
    Except RasterError SparseRaster := do
  let r ← empty t m
  let cols := m.cols.toNat
  let counts := entries.foldl (fun o e => o.modify (e.index / cols + 1) (· + 1)) r.rowOffsets
  pure { r with
    rowOffsets := runningSums counts
    colIndices := entries.map fun e => ((e.index % cols : Nat) : Int)
    values := entries.map (·.value) }

variable (r : SparseRaster)

/-- The number of cells. -/
def len : Nat := r.metadata.cellCount

/-- The number of columns as a machine word. -/
def width : Nat := (r.metadata.cols % (wordSize : Int)).toNat

/-- The offset at position `k`, zero past the end. -/
def offset (k : Nat) : Nat := r.rowOffsets.getD k 0

/-- The number of data cells. -/
def storedCount : Nat := r.values.length

/-- Whether a value marks nodata: equal to the nodata value, or NaN. -/
def isNodataValue (v : Pixel) : Bool := v.eq r.nodata || v.isNaN

/-- The row of the cell at an index and its slot among the entries: the entry holding it, or the
position where it would be inserted. -/
def position (i : Nat) : Outcome (Nat × Slot) := do
  let cols := r.width
  if cols = 0 then abort "attempt to divide by zero"
  else
    let row := i / cols
    let start ← Buffer.nth r.rowOffsets row
    let stop ← Buffer.nth r.rowOffsets (row + 1)
    let columns ← Buffer.slice r.colIndices start stop
    pure (row, (search columns ((i % cols : Nat) : Int)).shift start)

/-- The value of the cell at an index. -/
def value (i : Nat) : Outcome (Option Pixel) := do
  match (← r.position i).2 with
  | .found k => some <$> Buffer.nth r.values k
  | .vacant _ => pure none

/-- Whether the cell at an index is missing. -/
def isNodata (i : Nat) : Outcome Bool := do
  match (← r.position i).2 with
  | .found _ => pure false
  | .vacant _ => pure true

/-- The raster with the cell at an index set: a value is stored (even the nodata value), in place
or inserted with every later row shifted by one; none removes the entry, shifting back. (The
slot comes from `position`, so it lies within the entries.) -/
def setValue (i : Nat) (v : Option Pixel) : Outcome SparseRaster := do
  let (row, slot) ← r.position i
  let col : Int := ((i % r.width : Nat) : Int)
  match slot, v with
  | .found k, some x => pure { r with values := r.values.set k x }
  | .vacant k, some x => pure { r with
      rowOffsets := r.rowOffsets.mapIdx fun j o => if row < j then o + 1 else o
      colIndices := r.colIndices.insertIdx k col
      values := r.values.insertIdx k x }
  | .found k, none => pure { r with
      rowOffsets := r.rowOffsets.mapIdx fun j o => if row < j then o - 1 else o
      colIndices := r.colIndices.eraseIdx k
      values := r.values.eraseIdx k }
  | .vacant _, none => pure r

/-- The row of entry `entry`: the row cursor `row` moves on past every row whose entries end at or
before it; `rest` are the offsets from the end of row `row` on. -/
def skipEnded (entry : Nat) : Nat → List Nat → Nat
  | row, o :: rest => if o ≤ entry then skipEnded entry (row + 1) rest else row
  | row, [] => row

/-- The `n` cells from index `index` on, merged with the entries from `entry` on, whose row
cursor is `row`: the next entry gives the cell's value if it lies in the cell's row and column,
otherwise the cell is missing. -/
def cellsFrom : Nat → Nat → Nat → Nat → List (Option Pixel)
  | 0, _, _, _ => []
  | n + 1, index, entry, row =>
    if h : entry < r.values.length then
      let row := skipEnded entry row (r.rowOffsets.drop (row + 1))
      if row = index / r.width ∧
          ((r.colIndices.getD entry 0) % (wordSize : Int)).toNat = index % r.width then
        some r.values[entry] :: cellsFrom n (index + 1) (entry + 1) row
      else none :: cellsFrom n (index + 1) entry row
    else none :: cellsFrom n (index + 1) entry row

/-- The cells in row-major order, none for missing ones. -/
def toOptions : List (Option Pixel) := r.cellsFrom r.len 0 0 0

/-- The values of the data cells in row-major order. -/
def dataValues : List Pixel := r.values

/-- The number of missing cells. -/
def nodataCount : Nat := r.len - r.storedCount

/-- Whether some cell is missing. -/
def hasNodata : Bool := r.storedCount < r.len

/-- The stored cells with their position, row by row. -/
def storedCells : List (Cell × Pixel) :=
  (List.range r.metadata.rows.toNat).flatMap fun row =>
    ((r.colIndices.zip r.values).extract (r.offset row) (r.offset (row + 1))).map
      fun (c, v) => (⟨(row : Int), c⟩, v)

/-- Every cell, missing ones given the nodata value. -/
def withNodata : List Pixel := r.toOptions.map (·.getD r.nodata)

/-- No entry left, every offset zero. -/
def clear : SparseRaster := { r with rowOffsets := r.rowOffsets.map fun _ => 0, colIndices := [], values := [] }

/-- Every cell set to the value; a value that marks nodata leaves no data cell. -/
def fill (v : Pixel) : SparseRaster :=
  if r.isNodataValue v then r.clear
  else
    let rows := r.metadata.rows.toNat
    let cols := r.metadata.cols.toNat
    { r with
      rowOffsets := (List.range (rows + 1)).map (· * cols)
      colIndices := (List.range rows).flatMap fun _ => (List.range cols).map fun (c : Nat) => (c : Int)
      values := List.replicate r.len v }

/-- Every data cell set to the value. -/
def fillValues (v : Pixel) : SparseRaster := { r with values := r.values.map fun _ => v }

/-- Every cell made missing. -/
def fillWithNodata : SparseRaster := r.clear

/-- The entries whose value `keep` accepts, compacted row by row: for each row the kept entries
of its interval are appended, and the offset after the row becomes the number kept so far. -/
def retain (keep : Pixel → Bool) : SparseRaster :=
  let entries := r.colIndices.zip r.values
  let step := fun (acc : Nat × List (Int × Pixel) × List Nat) (row : Nat) =>
    let (entry, kept, offsets) := acc
    let rowEnd := r.offset (row + 1)
    let kept := kept ++ (entries.extract entry rowEnd).filter fun e => keep e.2
    (max entry rowEnd, kept, offsets.set (row + 1) kept.length)
  let (_, kept, offsets) := (List.range (r.rowOffsets.length - 1)).foldl step (0, [], r.rowOffsets)
  { r with rowOffsets := offsets, colIndices := kept.map (·.1), values := kept.map (·.2) }

/-- The data cells holding the value become missing. -/
def turnValueIntoNodata (v : Pixel) : SparseRaster := r.retain fun x => !x.eq v

/-- The raster with other metadata of the same dimensions and a usable nodata value. -/
def setMetadata (m : Metadata) : Except RasterError SparseRaster :=
  if m.rows ≠ r.metadata.rows ∨ m.cols ≠ r.metadata.cols then
    .error (.invalidArgument "Cannot change metadata: invalid size")
  else do
    let nodata ← nodataOf r.type m
    pure { r with metadata := m, nodata }

/-- The raster with another nodata value, which must be present and usable. -/
def setNodata (n : Option Binary64) : Except RasterError SparseRaster := do
  let m := r.metadata.withNodata n
  let nodata ← nodataOf r.type m
  pure { r with metadata := m, nodata }

/-- The raster with other dimensions (negative counts taken as zero) and no data cell. -/
def resize (rows cols : Int) : SparseRaster :=
  { r with
    metadata := { r.metadata with rows := max rows 0, cols := max cols 0 }
    rowOffsets := List.replicate ((max rows 0).toNat + 1) 0
    colIndices := []
    values := [] }

/-- Resized, then filled with the value. -/
def resizeAndFill (rows cols : Int) (v : Pixel) : SparseRaster := (r.resize rows cols).fill v

/-- Whether two rasters are equal: equal metadata and equal cells. -/
def eq (a b : SparseRaster) : Bool :=
  a.metadata.eq b.metadata && Pixel.eqOptionList a.toOptions b.toOptions

end SparseRaster

/-! ### Construction -/

namespace SparseRaster

/-- A raster without data cells. -/
def new (t : PixelType) (m : Metadata) : Except RasterError SparseRaster := empty t m

/-- A raster filled with the value. -/
def filledWith (t : PixelType) (m : Metadata) (v : Pixel) : Except RasterError SparseRaster :=
  (empty t m).map (·.fill v)

/-- A raster with every cell missing. -/
def filledWithNodata (t : PixelType) (m : Metadata) : Except RasterError SparseRaster := empty t m

/-- A raster of the given values in row-major order; values that mark nodata are not stored. -/
def ofList (t : PixelType) (m : Metadata) (values : List Pixel) :
    Except RasterError SparseRaster := do
  let nodata ← nodataOf t m
  m.checkDataSize values.length
  let entries := (values.zipIdx.filter fun (v, _) => !v.eq nodata && !v.isNaN).map
    fun (v, i) => SparseEntry.mk i v
  ofSortedEntries t m entries

/-- The data cells of each row given by a function of the index, as (column, value) pairs. -/
def rowsOfCells (rows cols : Nat) (cell : Nat → Option Pixel) : List (List (Int × Pixel)) :=
  (List.range rows).map fun row =>
    (List.range cols).filterMap fun c => (cell (row * cols + c)).map fun v => ((c : Int), v)

/-- A raster whose cell at each index is given by a function, none meaning missing; every
value given is stored. The data cells are collected row by row, each row's appended to the
entries and the offset after it set to the number of entries so far. -/
def ofCells (t : PixelType) (m : Metadata) (cell : Nat → Option Pixel) :
    Except RasterError SparseRaster := do
  let r ← empty t m
  let append := fun (acc : List Int × List Pixel × List Nat) (row : List (Int × Pixel) × Nat) =>
    let (cols, values, offsets) := acc
    let values := values ++ row.1.map (·.2)
    (cols ++ row.1.map (·.1), values, offsets.set (row.2 + 1) values.length)
  let (cols, values, offsets) :=
    (rowsOfCells m.rows.toNat m.cols.toNat cell).zipIdx.foldl append ([], [], r.rowOffsets)
  pure { r with rowOffsets := offsets, colIndices := cols, values }

/-- Keeps, of the entries with one index, the last. -/
def keepLast : List SparseEntry → List SparseEntry
  | a :: b :: rest => if a.index = b.index then keepLast (b :: rest) else a :: keepLast (b :: rest)
  | l => l

/-- A raster of listed cells and their values, the cells not listed missing. A cell outside the
raster is refused; of a cell listed more than once the last value counts. -/
def ofTriplets (t : PixelType) (m : Metadata) (triplets : List (Cell × Pixel)) :
    Except RasterError SparseRaster :=
  match triplets.find? fun (c, _) => !m.containsCell c with
  | some (c, _) =>
    .error (.invalidArgument s!"Cell {c.display} outside of raster {m.rows}x{m.cols}")
  | none =>
    let sorted := triplets.mergeSort fun a b => Cell.compare a.1 b.1 != .gt
    let entries := sorted.map fun (c, v) =>
      SparseEntry.mk (c.row.toNat * m.cols.toNat + c.col.toNat) v
    ofSortedEntries t m (keepLast entries)

/-- The raster of the data cells mapped by `op`, with another pixel type and nodata value; cells
that `op` maps to none become missing. Only the stored cells are visited. -/
def mapValues (r : SparseRaster) (t : PixelType) (nodata : Option Binary64)
    (op : Pixel → Option Pixel) :
    Except RasterError SparseRaster :=
  let cols := r.metadata.cols.toNat
  ofSortedEntries t (r.metadata.withNodata nodata)
    ((r.storedCells.zip (r.values.map op)).filterMap fun ((c, _), v) =>
      v.map (SparseEntry.mk (c.row.toNat * cols + c.col.toNat)))

end SparseRaster

end Georaster
