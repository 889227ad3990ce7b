import Georaster.Raster.Basic
/-!
# Rasters with a buffer

Dense and masked rasters store a value for every cell in a row-major buffer, and offer what a
sparse raster cannot: reading and writing the stored values directly, whatever they mean for
the cell; editing every cell through its view; and the operations that move values between
the buffer and the nodata marking (`initNodataValues`, `collapseData`, `replaceNodata`). Each
operation here gives none for a sparse raster.

A raw write changes the stored value only: in a dense raster the value written decides whether
the cell is missing, in a masked raster the mask does.
-/

namespace Georaster

namespace Raster

variable (r : Raster)

/-- The buffer of stored values; none for a sparse raster. -/
def buffer? : Option (Array Pixel) :=
  match r with
  | dense d => some d.data
  | masked m => some m.data
  | sparse _ => none

/-- The raster with another buffer; a sparse raster is kept. -/
def withBuffer (data : Array Pixel) : Raster :=
  match r with
  | dense d => dense { d with data }
  | masked m => masked { m with data }
  | sparse s => sparse s

/-- The stored value at an index, aborting past the end. -/
def rawGet? (i : Nat) : Option (Outcome Pixel) := r.buffer?.map (Buffer.get · i)

/-- The raster with the stored value at an index replaced, aborting past the end. -/
def rawSet? (i : Nat) (v : Pixel) : Option (Outcome Raster) :=
  r.buffer?.map fun b => (Buffer.set b i v).map r.withBuffer

/-- The stored value of a cell. -/
def rawCellGet? (c : Cell) : Option (Outcome Pixel) :=
  r.buffer?.map fun b => do Buffer.get b (← r.cellIndex c)

/-- The raster with the stored value of a cell replaced. -/
def rawCellSet? (c : Cell) (v : Pixel) : Option (Outcome Raster) :=
  r.buffer?.map fun b => do
    let i ← r.cellIndex c
    (Buffer.set b i v).map r.withBuffer

/-- The cells whose stored value marks nodata become missing (see each storage). -/
def initNodataValues? : Option Raster :=
  match r with
  | dense d => some (dense d.initNodataValues)
  | masked m => some (masked m.initNodataValues)
  | sparse _ => none

/-- The missing cells store the value that marks them (see each storage). -/
def collapseData? : Option Raster :=
  match r with
  | dense d => some (dense d.collapseData)
  | masked m => some (masked m.collapseData)
  | sparse _ => none

/-- The missing cells get the value and the raster has no nodata value afterwards. -/
def replaceNodata? (v : Pixel) : Option Raster :=
  match r with
  | dense d => some (dense (d.replaceNodata v))
  | masked m => some (masked (m.replaceNodata v))
  | sparse _ => none

/-- Resized, with another nodata value. -/
def resizeWithNodata? (rows cols : Int) (n : Option Binary64) :
    Option (Except RasterError Raster) :=
  match r with
  | dense d => some ((d.resizeWithNodata rows cols n).map dense)
  | masked m => some ((m.resizeWithNodata rows cols n).map masked)
  | sparse _ => none

/-- Visits every cell in order, records its view and applies the edit of the same position. -/
def editEach? (edits : List CellEdit) : Option (Outcome (List CellView × Raster)) :=
  match r with
  | dense d => some ((d.editEach edits).map fun (vs, d) => (vs, dense d))
  | masked m =>
    let (views, m) := m.editEach edits
    some (.ok (views, masked m))
  | sparse _ => none

end Raster

end Georaster
