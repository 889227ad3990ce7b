import Georaster.Pixel.Value
/-!
# Editing cells one by one

A buffer-backed raster can be edited cell by cell through a view of each cell that reads like an
optional value and can be written: the view tells whether the cell holds data, its value, and
the raw stored value, and an edit sets the value, makes the cell nodata, assigns an optional
value, or adds to the raw stored value.
-/

namespace Georaster

/-- What is done to one cell. -/
inductive CellEdit where
  /-- Leave the cell as it is. -/
  | keep
  /-- Make the cell nodata. -/
  | reset
  /-- Store the value; the cell is data unless the value marks nodata in-band. -/
  | set (v : Pixel)
  /-- Store the value if present, otherwise make the cell nodata. -/
  | assign (v : Option Pixel)
  /-- Add to the raw stored value, with the arithmetic of the pixel type. -/
  | addRaw (v : Pixel)
  deriving Inhabited

/-- What the view of a cell shows before it is edited. -/
structure CellView where
  /-- Whether the cell holds data. -/
  hasValue : Bool
  /-- Whether the cell is nodata. -/
  isNodata : Bool
  /-- The value of the cell, none for nodata. -/
  value : Option Pixel
  /-- The raw value in the buffer. -/
  raw : Pixel

end Georaster
