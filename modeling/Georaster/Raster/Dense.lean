import Georaster.Nodata
import Georaster.Raster.Metadata
import Georaster.Raster.Buffer
import Georaster.Raster.CellEdit
/-!
# Dense rasters

A dense raster stores one value per cell in row-major order and marks missing cells in-band, as
the nodata policy of its pixel type and nodata value says: NaN for floating-point types, the
nodata value for integral types. An integral dense raster without nodata value therefore cannot
hold a missing cell: building one fails, and marking a cell as nodata aborts.

The raster keeps the policy it reads its buffer with (`DenseRaster.policy`). It is set from the
pixel type and the nodata value of the metadata whenever a raster is built, and again by every
operation that changes the nodata value, so the stored values always read through the policy of
the current metadata.
-/

namespace Georaster

/-- A raster that stores every cell, missing cells marked in-band. -/
structure DenseRaster where
  /-- The pixel type. -/
  type : PixelType
  /-- The metadata. -/
  metadata : Metadata
  /-- The cells in row-major order. -/
  data : Array Pixel
  /-- How the buffer marks missing cells: the policy of the pixel type and the nodata value. -/
  policy : NodataPolicy

namespace DenseRaster

variable (r : DenseRaster)

/-- The nodata value of the metadata in the pixel type, if it fits. -/
def nodataValue : Option Pixel := r.type.nodataValue r.metadata.nodata

/-- The number of cells. -/
def len : Nat := r.metadata.cellCount

/-- The value that marks a missing cell, or the error that there is none. -/
def missingValue : Except RasterError Pixel :=
  match r.policy.missingValue with
  | some v => .ok v
  | none => .error (.invalidConfiguration "Raster has no nodata value")

/-- Whether a missing cell can be stored. -/
def canRepresentNodata : Bool := r.policy.missingValue.isSome

/-- The cells in row-major order, none for missing ones. -/
def toOptions : List (Option Pixel) := r.data.toList.map r.policy.read

/-- The values of the data cells in row-major order. -/
def dataValues : List Pixel := r.data.toList.filter fun v => !r.policy.isMissing v

/-- The number of missing cells. -/
def nodataCount : Nat := r.data.toList.countP r.policy.isMissing

/-- Whether some cell is missing. -/
def hasNodata : Bool := r.data.any r.policy.isMissing

/-- The value of the cell at an index, aborting past the end. -/
def value (i : Nat) : Outcome (Option Pixel) := (Buffer.get r.data i).map r.policy.read

/-- Whether the cell at an index is missing, aborting past the end. -/
def isNodata (i : Nat) : Outcome Bool := (Buffer.get r.data i).map r.policy.isMissing

/-- The raster with the cell at an index set; a missing cell is stored as the policy says, and
aborts when the policy cannot store it. The value is decided before the index is checked. -/
def setValue (i : Nat) (v : Option Pixel) : Outcome DenseRaster := do
  let stored ← match v with
    | some x => pure x
    | none => match r.policy.missingValue with
      | some n => pure n
      | none => abort "Cannot mark a cell as nodata in a raster without nodata value"
  let data ← Buffer.set r.data i stored
  pure { r with data }

/-- Every cell set to the value, missing cells included. -/
def fill (v : Pixel) : DenseRaster := { r with data := Array.replicate r.data.size v }

/-- Every data cell set to the value; missing cells stay missing. -/
def fillValues (v : Pixel) : DenseRaster :=
  { r with data := r.data.map fun x => if r.policy.isMissing x then x else v }

/-- Every cell made missing; nothing changes when missing cells cannot be stored. -/
def fillWithNodata : DenseRaster :=
  match r.policy.missingValue with
  | some n => r.fill n
  | none => r

/-- For floating-point types, the cells holding the nodata value of the metadata become NaN,
unless that value is NaN itself. Integral types already read such cells as missing. -/
def initNodataValues : DenseRaster :=
  if !r.type.hasNaN then r
  else match r.nodataValue, r.policy.missingValue with
    | some s, some nan =>
      if s.isNaN then r else { r with data := r.data.map fun v => if v.eq s then nan else v }
    | _, _ => r

/-- For floating-point types with a nodata value, the NaN cells get the nodata value. -/
def collapseData : DenseRaster :=
  if !r.type.hasNaN then r
  else match r.nodataValue with
    | some s => { r with data := r.data.map fun v => if r.policy.isMissing v then s else v }
    | none => r

/-- The cells equal to the value become missing; fails when missing cells cannot be stored. -/
def turnValueIntoNodata (v : Pixel) : Except RasterError DenseRaster := do
  let n ← r.missingValue
  pure { r with data := r.data.map fun x => if x.eq v then n else x }

/-- The missing cells get the value, and the raster has no nodata value afterwards. -/
def replaceNodata (v : Pixel) : DenseRaster :=
  { r with
    data := r.data.map fun x => if r.policy.isMissing x then v else x
    metadata := r.metadata.withNodata none
    policy := r.type.policy none }

/-- The raster with other metadata of the same cell count and a nodata value that the pixel
type can use. -/
def setMetadata (m : Metadata) : Except RasterError DenseRaster :=
  if m.rows < 0 ∨ m.cols < 0 ∨ m.cellCount ≠ r.data.size then
    .error (.invalidArgument "Cannot change metadata: invalid size")
  else do
    r.type.validateNodata m.nodata
    pure { r with metadata := m, policy := r.type.policy m.nodata }

/-- The raster with another nodata value that the pixel type can use. -/
def setNodata (n : Option Binary64) : Except RasterError DenseRaster := do
  r.type.validateNodata n
  pure { r with metadata := r.metadata.withNodata n, policy := r.type.policy n }

/-- The raster with other dimensions (negative counts taken as zero); the buffer is cut or padded
with zeros. -/
def resize (rows cols : Int) : DenseRaster :=
  let metadata := { r.metadata with rows := max rows 0, cols := max cols 0 }
  { r with metadata, data := Buffer.resize r.data metadata.cellCount r.type.zero }

/-- Resized, with another nodata value that the pixel type can use. -/
def resizeWithNodata (rows cols : Int) (n : Option Binary64) : Except RasterError DenseRaster := do
  r.type.validateNodata n
  let s := r.resize rows cols
  pure { s with metadata := s.metadata.withNodata n, policy := r.type.policy n }

/-- Resized, then every cell set to the value. -/
def resizeAndFill (rows cols : Int) (v : Pixel) : DenseRaster := (r.resize rows cols).fill v

/-- The view of a stored value. -/
def view (raw : Pixel) : CellView :=
  let missing := r.policy.isMissing raw
  ⟨!missing, missing, r.policy.read raw, raw⟩

/-- One edit applied to a stored value: making a cell missing aborts when the policy cannot
store it. -/
def applyEdit (raw : Pixel) : CellEdit → Outcome Pixel
  | .keep => pure raw
  | .set v | .assign (some v) => pure v
  | .reset | .assign none => match r.policy.missingValue with
    | some n => pure n
    | none => abort "Cannot mark a cell as nodata in a raster without nodata value"
  | .addRaw v => pure (r.type.add raw v)

/-- Visits every cell in order, records its view and applies the edit of the same position
(cells past the end of the list are kept). -/
def editEach (edits : List CellEdit) : Outcome (List CellView × DenseRaster) := do
  let step := fun (acc : List CellView × Array Pixel) (i : Nat) => do
    let raw := acc.2.getD i r.type.zero
    let new ← r.applyEdit raw (edits.getD i .keep)
    pure (r.view raw :: acc.1, acc.2.setIfInBounds i new)
  let (views, data) ← (List.range r.data.size).foldlM step ([], r.data)
  pure (views.reverse, { r with data })

/-- Whether two rasters are equal: equal metadata and equal cells. -/
def eq (a b : DenseRaster) : Bool :=
  a.metadata.eq b.metadata && Pixel.eqOptionList a.toOptions b.toOptions

end DenseRaster

/-! ### Construction -/

namespace DenseRaster

/-- A raster of the given buffer, after checking the nodata value and the size. -/
def ofData (t : PixelType) (metadata : Metadata) (data : Array Pixel) :
    Except RasterError DenseRaster := do
  t.validateNodata metadata.nodata
  metadata.checkDataSize data.size
  pure ⟨t, metadata, data, t.policy metadata.nodata⟩

/-- A raster of zeros. -/
def new (t : PixelType) (metadata : Metadata) : Except RasterError DenseRaster :=
  ofData t metadata (Array.replicate metadata.cellCount t.zero)

/-- A raster with every cell set to the value; a value that marks nodata gives missing cells. -/
def filledWith (t : PixelType) (metadata : Metadata) (v : Pixel) : Except RasterError DenseRaster :=
  (ofData t metadata (Array.replicate metadata.cellCount v)).map initNodataValues

/-- A raster with every cell missing; fails when missing cells cannot be stored. -/
def filledWithNodata (t : PixelType) (metadata : Metadata) : Except RasterError DenseRaster := do
  let r ← new t metadata
  let n ← r.missingValue
  pure (r.fill n)

/-- A raster of the given values in row-major order; values that mark nodata give missing
cells. -/
def ofList (t : PixelType) (metadata : Metadata) (values : List Pixel) :
    Except RasterError DenseRaster :=
  (ofData t metadata values.toArray).map initNodataValues

/-- A raster whose cell at each index is given by a function, none meaning missing; fails when a
cell is missing and missing cells cannot be stored. -/
def ofCells (t : PixelType) (metadata : Metadata) (cell : Nat → Option Pixel) :
    Except RasterError DenseRaster := do
  t.validateNodata metadata.nodata
  let p := t.policy metadata.nodata
  match (List.range metadata.cellCount).mapM fun i => p.write (cell i) with
  | some data => ofData t metadata data.toArray
  | none => .error (.runtime "Raster without nodata value cannot represent nodata cells")

end DenseRaster

end Georaster
