import Georaster.Raster.Dense
import Georaster.Raster.Masked
import Georaster.Raster.Sparse
/-!
# Rasters

A raster is one of the three storages of the same abstract grid: the size, the metadata, and a
row-major sequence of optional pixel values (`Raster.toOptions`). The storages differ in how a
missing cell is kept (in-band, in a mask, or by its absence) and hence in what can fail: an
integral dense raster without nodata value cannot hold a missing cell, and a sparse raster
needs a nodata value. All of them answer the same queries and edits, given here once.

`Backend` names a storage; the constructors take one, so that the result of an operation on
rasters can have the storage of its left operand.
-/

namespace Georaster

/-- How a raster stores its cells. -/
inductive Backend where
  /-- Every cell, missing ones marked in-band. -/
  | dense
  /-- Every cell, missing ones flagged in a mask. -/
  | masked
  /-- Data cells only. -/
  | sparse
  deriving DecidableEq, Repr, Inhabited

/-- A raster in one of the three storages. -/
inductive Raster where
  | dense (r : DenseRaster)
  | masked (r : MaskedRaster)
  | sparse (r : SparseRaster)

namespace Backend

/-- The name of the storage. -/
def name : Backend → String
  | dense => "dense"
  | masked => "masked"
  | sparse => "sparse"

/-- A raster of zeros (dense and masked) or without data cells (sparse). -/
def new (b : Backend) (t : PixelType) (m : Metadata) : Except RasterError Raster :=
  match b with
  | dense => (DenseRaster.new t m).map .dense
  | masked => (MaskedRaster.new t m).map .masked
  | sparse => (SparseRaster.new t m).map .sparse

/-- A raster filled with a value. -/
def filledWith (b : Backend) (t : PixelType) (m : Metadata) (v : Pixel) :
    Except RasterError Raster :=
  match b with
  | dense => (DenseRaster.filledWith t m v).map .dense
  | masked => (MaskedRaster.filledWith t m v).map .masked
  | sparse => (SparseRaster.filledWith t m v).map .sparse

/-- A raster with every cell missing. -/
def filledWithNodata (b : Backend) (t : PixelType) (m : Metadata) : Except RasterError Raster :=
  match b with
  | dense => (DenseRaster.filledWithNodata t m).map .dense
  | masked => (MaskedRaster.filledWithNodata t m).map .masked
  | sparse => (SparseRaster.filledWithNodata t m).map .sparse

/-- A raster of values in row-major order, values that mark nodata giving missing cells. -/
def ofList (b : Backend) (t : PixelType) (m : Metadata) (values : List Pixel) :
    Except RasterError Raster :=
  match b with
  | dense => (DenseRaster.ofList t m values).map .dense
  | masked => (MaskedRaster.ofList t m values).map .masked
  | sparse => (SparseRaster.ofList t m values).map .sparse

/-- A raster whose cells are given by a function of the index, none meaning missing. -/
def ofCells (b : Backend) (t : PixelType) (m : Metadata) (cell : Nat → Option Pixel) :
    Except RasterError Raster :=
  match b with
  | dense => (DenseRaster.ofCells t m cell).map .dense
  | masked => (MaskedRaster.ofCells t m cell).map .masked
  | sparse => (SparseRaster.ofCells t m cell).map .sparse

/-- A raster of optional values in row-major order, after checking their number. -/
def ofOptions (b : Backend) (t : PixelType) (m : Metadata) (values : List (Option Pixel)) :
    Except RasterError Raster := do
  m.checkDataSize values.length
  let cells := values.toArray
  b.ofCells t m fun i => cells.getD i none

end Backend

namespace Raster

variable (r : Raster)

/-- The storage. -/
def backend : Backend :=
  match r with
  | dense _ => .dense
  | masked _ => .masked
  | sparse _ => .sparse

/-- The pixel type. -/
def type : PixelType :=
  match r with
  | dense d => d.type
  | masked m => m.type
  | sparse s => s.type

/-- The metadata. -/
def metadata : Metadata :=
  match r with
  | dense d => d.metadata
  | masked m => m.metadata
  | sparse s => s.metadata

/-- The size. -/
def size : GridSize := r.metadata.size

/-- The number of cells. -/
def len : Nat := r.metadata.cellCount

/-- The nodata value in the pixel type: the metadata's if it fits, and for sparse rasters the
one they keep. -/
def nodataValue : Option Pixel :=
  match r with
  | dense d => d.nodataValue
  | masked m => m.nodataValue
  | sparse s => some s.nodata

/-- Whether a missing cell can be stored: false only for dense rasters without a way to mark
one. -/
def canRepresentNodata : Bool :=
  match r with
  | dense d => d.canRepresentNodata
  | _ => true

/-- The cells in row-major order, none for missing ones. -/
def toOptions : List (Option Pixel) :=
  match r with
  | dense d => d.toOptions
  | masked m => m.toOptions
  | sparse s => s.toOptions

/-- The values of the data cells in row-major order. -/
def dataValues : List Pixel :=
  match r with
  | dense d => d.dataValues
  | masked m => m.dataValues
  | sparse s => s.dataValues

/-- The number of missing cells. -/
def nodataCount : Nat :=
  match r with
  | dense d => d.nodataCount
  | masked m => m.nodataCount
  | sparse s => s.nodataCount

/-- Whether some cell is missing. -/
def hasNodata : Bool :=
  match r with
  | dense d => d.hasNodata
  | masked m => m.hasNodata
  | sparse s => s.hasNodata

/-- The value of the cell at an index. -/
def value (i : Nat) : Outcome (Option Pixel) :=
  match r with
  | dense d => d.value i
  | masked m => m.value i
  | sparse s => s.value i

/-- Whether the cell at an index is missing. -/
def isNodata (i : Nat) : Outcome Bool :=
  match r with
  | dense d => d.isNodata i
  | masked m => m.isNodata i
  | sparse s => s.isNodata i

/-- The raster with the cell at an index set, none making it missing. -/
def setValue (i : Nat) (v : Option Pixel) : Outcome Raster :=
  match r with
  | dense d => (d.setValue i v).map dense
  | masked m => (m.setValue i v).map masked
  | sparse s => (s.setValue i v).map sparse

/-- The index of a cell. -/
def cellIndex (c : Cell) : Outcome Nat := c.index r.metadata.cols

/-- The value of a cell. -/
def cellValue (c : Cell) : Outcome (Option Pixel) := do r.value (← r.cellIndex c)

/-- Whether a cell is missing. -/
def cellIsNodata (c : Cell) : Outcome Bool := do r.isNodata (← r.cellIndex c)

/-- The raster with a cell set, none making it missing. -/
def setCellValue (c : Cell) (v : Option Pixel) : Outcome Raster := do
  r.setValue (← r.cellIndex c) v

/-- Every cell set to the value (see each storage for when the cells become missing). -/
def fill (v : Pixel) : Raster :=
  match r with
  | dense d => dense (d.fill v)
  | masked m => masked (m.fill v)
  | sparse s => sparse (s.fill v)

/-- Every data cell set to the value. -/
def fillValues (v : Pixel) : Raster :=
  match r with
  | dense d => dense (d.fillValues v)
  | masked m => masked (m.fillValues v)
  | sparse s => sparse (s.fillValues v)

/-- Every cell made missing, where the storage can keep missing cells. -/
def fillWithNodata : Raster :=
  match r with
  | dense d => dense d.fillWithNodata
  | masked m => masked m.fillWithNodata
  | sparse s => sparse s.fillWithNodata

/-- The data cells holding the value become missing. -/
def turnValueIntoNodata (v : Pixel) : Except RasterError Raster :=
  match r with
  | dense d => (d.turnValueIntoNodata v).map dense
  | masked m => .ok (masked (m.turnValueIntoNodata v))
  | sparse s => .ok (sparse (s.turnValueIntoNodata v))

/-- The raster with another nodata value. -/
def setNodata (n : Option Binary64) : Except RasterError Raster :=
  match r with
  | dense d => (d.setNodata n).map dense
  | masked m => (m.setNodata n).map masked
  | sparse s => (s.setNodata n).map sparse

/-- The raster with other metadata of the same size. -/
def setMetadata (m : Metadata) : Except RasterError Raster :=
  match r with
  | dense d => (d.setMetadata m).map dense
  | masked k => (k.setMetadata m).map masked
  | sparse s => (s.setMetadata m).map sparse

/-- The raster with other dimensions. -/
def resize (rows cols : Int) : Raster :=
  match r with
  | dense d => dense (d.resize rows cols)
  | masked m => masked (m.resize rows cols)
  | sparse s => sparse (s.resize rows cols)

/-- Resized, then filled with the value. -/
def resizeAndFill (rows cols : Int) (v : Pixel) : Raster :=
  match r with
  | dense d => dense (d.resizeAndFill rows cols v)
  | masked m => masked (m.resizeAndFill rows cols v)
  | sparse s => sparse (s.resizeAndFill rows cols v)

/-- Checks that two rasters have the same size, or reports both sizes. -/
def checkDimensions (a b : Raster) : Except RasterError Unit :=
  if a.size = b.size then .ok ()
  else .error (.sizeMismatch (a.metadata.rows.toNat, a.metadata.cols.toNat)
    (b.metadata.rows.toNat, b.metadata.cols.toNat))

/-- Checks that two rasters have the same size, or fails while computing. -/
def checkSizesMatch (a b : Raster) : Except RasterError Unit :=
  if a.size = b.size then .ok ()
  else .error (.runtime s!"Raster sizes have to match {a.size.display} vs {b.size.display}")

/-- Whether two rasters of one storage are equal: equal metadata and equal cells. -/
def eq : Raster → Raster → Bool
  | dense a, dense b => DenseRaster.eq a b
  | masked a, masked b => MaskedRaster.eq a b
  | sparse a, sparse b => SparseRaster.eq a b
  | _, _ => false

/-- The raster of the same storage whose data cells are mapped by `op` into type `t`, with
another nodata value; cells that `op` maps to none become missing. -/
def mapValues (t : PixelType) (nodata : Option Binary64) (op : Pixel → Option Pixel) :
    Except RasterError Raster :=
  match r with
  | sparse s => (s.mapValues t nodata op).map sparse
  | _ =>
    let cells := r.toOptions.toArray
    r.backend.ofCells t (r.metadata.withNodata nodata) fun i => (cells.getD i none).bind op

end Raster

end Georaster
