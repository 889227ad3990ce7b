import Georaster.Raster.Basic
import Georaster.Grid.Walk
/-!
# Walking a selection of cells of a raster

The rasters that store every cell, dense and masked, can be walked over a selection of their
cells: all of them, the square or the disc of cells around a centre, or a rectangle. The
selection is clipped to the raster first (`Area.square`, `Area.clipRect`), and the iterators skip
the missing cells: those whose stored value the policy reads as missing in a dense raster, the
flagged ones in a masked raster. Sparse rasters have no buffer to walk.

Iterating a dense or masked raster's values walks its whole grid this way
(`Raster.valueIter`).
-/

namespace Georaster

/-- A selection of cells of a raster. -/
inductive CellSelection where
  /-- Every cell. -/
  | everything
  /-- The cells within `radius` rows and columns of `center`; the centre only if
  `withCenter`. -/
  | square (center : Cell) (radius : Int) (withCenter : Bool)
  /-- The cells whose centres lie within `radius` of the centre of `center`; the centre only
  if `withCenter`. -/
  | disc (center : Cell) (radius : Int) (withCenter : Bool)
  /-- The rectangle of `rows` by `cols` cells from `topLeft`. -/
  | rect (topLeft : Cell) (rows cols : Int)
  deriving Inhabited

namespace CellSelection

/-- The area walked in a grid of size `s`: the selection's bounding rectangle, clipped. -/
def area (s : GridSize) : CellSelection → Outcome Area
  | everything => pure (Area.full s)
  | square c r _ => Area.square s c r
  | disc c r _ => Area.square s c r
  | rect t rows cols => pure (Area.clipRect s t rows cols)

/-- The cells of the area that the selection leaves out. -/
def locations : CellSelection → LocationFilter
  | everything => .all
  | square _ _ true => .all
  | square c _ false => .exclude c
  | disc c r w => .circle c r w
  | rect _ _ _ => .all

end CellSelection

namespace DenseRaster

/-- An iterator over the selected cells, skipping missing ones. -/
def walk (r : DenseRaster) (sel : CellSelection) : Outcome RasterIterator := do
  RasterIterator.new r.data r.metadata.cols (← sel.area r.metadata.size) (.policy r.policy)
    sel.locations

/-- A writing iterator over the selected cells, skipping missing ones. -/
def walkMut (r : DenseRaster) (sel : CellSelection) : Outcome RasterIteratorMut := do
  RasterIteratorMut.new r.data r.metadata.cols (← sel.area r.metadata.size) (.policy r.policy)
    sel.locations

/-- Writes the value to the selected data cells: those cells in order, and the raster. -/
def assign (r : DenseRaster) (sel : CellSelection) (v : Pixel) :
    Outcome (List Cell × DenseRaster) := do
  let (written, done) ← (← r.walkMut sel).assign v
  pure (written.map (·.1), { r with data := done.data })

end DenseRaster

namespace MaskedRaster

/-- An iterator over the selected cells, skipping flagged ones. -/
def walk (r : MaskedRaster) (sel : CellSelection) : Outcome RasterIterator := do
  RasterIterator.new r.data r.metadata.cols (← sel.area r.metadata.size) (.mask r.mask)
    sel.locations

/-- A writing iterator over the selected cells, skipping flagged ones. -/
def walkMut (r : MaskedRaster) (sel : CellSelection) : Outcome RasterIteratorMut := do
  RasterIteratorMut.new r.data r.metadata.cols (← sel.area r.metadata.size) (.mask r.mask)
    sel.locations

/-- Writes the value to the selected data cells: those cells in order, and the raster. -/
def assign (r : MaskedRaster) (sel : CellSelection) (v : Pixel) :
    Outcome (List Cell × MaskedRaster) := do
  let (written, done) ← (← r.walkMut sel).assign v
  pure (written.map (·.1), { r with data := done.data })

end MaskedRaster

namespace Raster

/-- An iterator over the selected data cells; none for a sparse raster. -/
def walk? (r : Raster) (sel : CellSelection) : Option (Outcome RasterIterator) :=
  match r with
  | dense d => some (d.walk sel)
  | masked m => some (m.walk sel)
  | sparse _ => none

/-- Writes the value to the selected data cells, giving those cells in order and the raster;
none for a sparse raster. -/
def assign? (r : Raster) (sel : CellSelection) (v : Pixel) :
    Option (Outcome (List Cell × Raster)) :=
  match r with
  | dense d => some ((d.assign sel v).map fun (cs, d) => (cs, dense d))
  | masked m => some ((m.assign sel v).map fun (cs, m) => (cs, masked m))
  | sparse _ => none

/-- The values of the data cells in row-major order, as iterating the raster yields them: the
iterator over every cell of a dense or masked raster, the stored values of a sparse one. -/
def valueIter (r : Raster) : Outcome (List Pixel) :=
  match r with
  | dense d => do pure ((← (← d.walk .everything).finish).1.map (·.2))
  | masked m => do pure ((← (← m.walk .everything).finish).1.map (·.2))
  | sparse s => pure s.dataValues

end Raster

end Georaster
