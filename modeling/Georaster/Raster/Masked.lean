import Georaster.Nodata
import Georaster.Raster.Metadata
import Georaster.Raster.Buffer
import Georaster.Raster.CellEdit
/-!
# Masked rasters

A masked raster stores one value per cell and, beside it, a mask that flags the missing cells;
the mask alone decides which cells are missing, whatever value the buffer holds there. The mask
is either empty, meaning that no cell is missing, or as long as the buffer: it is allocated when
a first cell is marked and dropped when no cell is missing any more.

A value "marks nodata" when it is NaN or equals the nodata value of the metadata in the pixel
type; building a raster from values, or filling it, turns such values into missing cells.
-/

namespace Georaster

/-- A raster that stores every cell and flags the missing ones in a mask. -/
structure MaskedRaster where
  /-- The pixel type. -/
  type : PixelType
  /-- The metadata. -/
  metadata : Metadata
  /-- The cells in row-major order. -/
  data : Array Pixel
  /-- The missing cells, or empty when none is. -/
  mask : Array Bool

namespace MaskedRaster

variable (r : MaskedRaster)

/-- The nodata value of the metadata in the pixel type, if it fits. -/
def nodataValue : Option Pixel := r.type.nodataValue r.metadata.nodata

/-- The number of cells. -/
def len : Nat := r.metadata.cellCount

/-- Whether a value marks nodata: NaN, or the nodata value. -/
def isNodataValue (v : Pixel) : Bool :=
  (r.type.hasNaN && v.isNaN) || match r.nodataValue with
    | some n => n.eq v
    | none => false

/-- Whether the mask flags the cell at an index; an empty mask flags nothing. -/
def flagged (i : Nat) : Outcome Bool :=
  if r.mask.isEmpty then .ok false else Buffer.get r.mask i

/-- Whether the cell at an index is missing, aborting past the end of an allocated mask. -/
def isNodata (i : Nat) : Outcome Bool := r.flagged i

/-- The value of the cell at an index, aborting past the end. -/
def value (i : Nat) : Outcome (Option Pixel) := do
  if (← r.flagged i) then pure none else (Buffer.get r.data i).map some

/-- The cell at index `i` as an optional value, reading past the end as data. -/
def cellAt (i : Nat) : Option Pixel :=
  if r.mask.getD i false then none else r.data[i]?

/-- The cells in row-major order, none for missing ones. -/
def toOptions : List (Option Pixel) := (List.range r.data.size).map r.cellAt

/-- The values of the data cells in row-major order. -/
def dataValues : List Pixel := r.toOptions.filterMap id

/-- The number of missing cells. -/
def nodataCount : Nat := r.mask.toList.count true

/-- Whether some cell is missing. -/
def hasNodata : Bool := r.mask.any id

/-- The mask, allocated with no cell flagged if it was empty and the raster has cells. -/
def ensureMask : MaskedRaster :=
  if r.mask.isEmpty && !r.data.isEmpty then { r with mask := Array.replicate r.data.size false }
  else r

/-- The cell at an index made data, if the mask is allocated. -/
def markAsData (i : Nat) : Outcome MaskedRaster :=
  if r.mask.isEmpty then .ok r
  else do
    let mask ← Buffer.set r.mask i false
    pure { r with mask }

/-- The cell made data, if the mask is allocated; the cell is located by its index. -/
def markCellAsData (c : Cell) : Outcome MaskedRaster := do
  r.markAsData (← c.index r.metadata.cols)

/-- The raster with the cell at an index set: a value is stored and made data, a missing cell
is flagged (allocating the mask). -/
def setValue (i : Nat) : Option Pixel → Outcome MaskedRaster
  | some v => do
    let data ← Buffer.set r.data i v
    ({ r with data } : MaskedRaster).markAsData i
  | none => do
    let s := r.ensureMask
    let mask ← Buffer.set s.mask i true
    pure { s with mask }

/-- Every cell set to the value. With a nodata value in the metadata, the cells all become
missing if the value marks nodata and all become data otherwise. -/
def fill (v : Pixel) : MaskedRaster :=
  let s := { r with data := Array.replicate r.data.size v }
  if r.metadata.nodata.isNone then s
  else if r.isNodataValue v then { s with mask := Array.replicate r.data.size true }
  else { s with mask := #[] }

/-- Every stored value set to the value; which cells are missing does not change. -/
def fillValues (v : Pixel) : MaskedRaster := { r with data := Array.replicate r.data.size v }

/-- Every cell made missing. -/
def fillWithNodata : MaskedRaster := { r with mask := Array.replicate r.data.size true }

/-- With a nodata value in the metadata, the mask flags exactly the values that mark nodata,
and is dropped if none does. -/
def initNodataValues : MaskedRaster :=
  if r.metadata.nodata.isNone then r
  else
    let mask := r.data.map r.isNodataValue
    { r with mask := if mask.any id then mask else #[] }

/-- The flagged cells get the nodata value in the buffer (NaN for floating-point types without
one). -/
def collapseData : MaskedRaster :=
  if r.mask.isEmpty then r
  else match r.nodataValue.orElse fun _ => r.type.nan? with
    | some n =>
      { r with data := (r.data.zip r.mask).map fun (v, m) => if m then n else v }
    | none => r

/-- The cells holding the value become missing, whatever the mask said before. -/
def turnValueIntoNodata (v : Pixel) : MaskedRaster :=
  if r.data.any (·.eq v) then
    let s := r.ensureMask
    { s with mask := (s.data.zip s.mask).map fun (x, m) => m || x.eq v }
  else r

/-- The missing cells get the value; no cell is missing and there is no nodata value
afterwards. -/
def replaceNodata (v : Pixel) : MaskedRaster :=
  { r with
    data := (List.range r.data.size).toArray.map fun i =>
      if r.mask.getD i false then v else r.data.getD i v
    mask := #[]
    metadata := r.metadata.withNodata none }

/-- The raster with other metadata of the same cell count and a nodata value that the pixel
type can use. -/
def setMetadata (m : Metadata) : Except RasterError MaskedRaster :=
  if m.rows < 0 ∨ m.cols < 0 ∨ m.cellCount ≠ r.data.size then
    .error (.invalidArgument "Cannot change metadata: invalid size")
  else do
    r.type.validateNodata m.nodata
    pure { r with metadata := m }

/-- The raster with another nodata value that the pixel type can use. -/
def setNodata (n : Option Binary64) : Except RasterError MaskedRaster := do
  r.type.validateNodata n
  pure { r with metadata := r.metadata.withNodata n }

/-- The raster with other dimensions (negative counts taken as zero): the buffer is cut or padded
with zeros, an allocated mask cut or padded with data cells. -/
def resize (rows cols : Int) : MaskedRaster :=
  let metadata := { r.metadata with rows := max rows 0, cols := max cols 0 }
  let n := metadata.cellCount
  { r with
    metadata
    data := Buffer.resize r.data n r.type.zero
    mask := if r.mask.isEmpty then r.mask else Buffer.resize r.mask n false }

/-- Resized, with another nodata value that the pixel type can use; without one the mask is
dropped. -/
def resizeWithNodata (rows cols : Int) (n : Option Binary64) : Except RasterError MaskedRaster := do
  r.type.validateNodata n
  let s := r.resize rows cols
  let s := { s with metadata := s.metadata.withNodata n }
  pure (if n.isNone then { s with mask := #[] } else s)

/-- Resized, then filled with the value. -/
def resizeAndFill (rows cols : Int) (v : Pixel) : MaskedRaster := (r.resize rows cols).fill v

/-- Visits every cell in order after allocating the mask, records its view and applies the edit
of the same position (cells past the end of the list are kept). -/
def editEach (edits : List CellEdit) : List CellView × MaskedRaster :=
  let s := r.ensureMask
  let step := fun (acc : List CellView × Array Pixel × Array Bool) (i : Nat) =>
    let (views, data, mask) := acc
    let raw := data.getD i r.type.zero
    let missing := mask.getD i false
    let view : CellView := ⟨!missing, missing, if missing then none else some raw, raw⟩
    let (raw', missing') := match edits.getD i .keep with
      | .keep => (raw, missing)
      | .set v | .assign (some v) => (v, false)
      | .reset | .assign none => (raw, true)
      | .addRaw v => (r.type.add raw v, missing)
    (view :: views, data.setIfInBounds i raw', mask.setIfInBounds i missing')
  let (views, data, mask) :=
    (List.range (min s.data.size s.mask.size)).foldl step ([], s.data, s.mask)
  (views.reverse, { s with data, mask })

/-- Whether two rasters are equal: equal metadata and equal cells. -/
def eq (a b : MaskedRaster) : Bool :=
  a.metadata.eq b.metadata && Pixel.eqOptionList a.toOptions b.toOptions

end MaskedRaster

/-! ### Construction -/

namespace MaskedRaster

/-- A raster of the given buffer and mask, after checking the nodata value, the size and the
length of the mask. -/
def ofData (t : PixelType) (metadata : Metadata) (data : Array Pixel) (mask : Array Bool) :
    Except RasterError MaskedRaster := do
  t.validateNodata metadata.nodata
  metadata.checkDataSize data.size
  if !mask.isEmpty && mask.size ≠ data.size then
    .error (.invalidArgument
      (s!"Raster mask size does not match provided dimensions {mask.size} vs " ++
        s!"{metadata.rows}x{metadata.cols}"))
  else pure ⟨t, metadata, data, mask⟩

/-- A raster of zeros without missing cells. -/
def new (t : PixelType) (metadata : Metadata) : Except RasterError MaskedRaster :=
  ofData t metadata (Array.replicate metadata.cellCount t.zero) #[]

/-- A raster filled with the value. -/
def filledWith (t : PixelType) (metadata : Metadata) (v : Pixel) :
    Except RasterError MaskedRaster :=
  (new t metadata).map (·.fill v)

/-- A raster with every cell missing. -/
def filledWithNodata (t : PixelType) (metadata : Metadata) : Except RasterError MaskedRaster :=
  (new t metadata).map (·.fillWithNodata)

/-- A raster of the given values in row-major order; values that mark nodata give missing
cells. -/
def ofList (t : PixelType) (metadata : Metadata) (values : List Pixel) :
    Except RasterError MaskedRaster :=
  (ofData t metadata values.toArray #[]).map (·.initNodataValues)

/-- A raster whose cell at each index is given by a function, none meaning missing. Missing cells
store the nodata value (zero if it does not fit). -/
def ofCells (t : PixelType) (metadata : Metadata) (cell : Nat → Option Pixel) :
    Except RasterError MaskedRaster := do
  t.validateNodata metadata.nodata
  let fillValue := (t.nodataValue metadata.nodata).getD t.zero
  let cells := (List.range metadata.cellCount).map cell
  let data := cells.toArray.map (·.getD fillValue)
  let mask := cells.toArray.map Option.isNone
  ofData t metadata data (if mask.any id then mask else #[])

end MaskedRaster

end Georaster
