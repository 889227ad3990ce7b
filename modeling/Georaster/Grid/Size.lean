/-!
# Grid sizes

The size of a raster is its number of rows and of columns. Sizes come from callers, so either
may be negative; a negative count holds no cells.
-/

namespace Georaster

/-- The dimensions of a raster. -/
structure GridSize where
  /-- The number of rows. -/
  rows : Int
  /-- The number of columns. -/
  cols : Int
  deriving DecidableEq, Repr, Inhabited

namespace GridSize

/-- The size with no rows and no columns. -/
def empty : GridSize := ⟨0, 0⟩

/-- The square size with `n` rows and `n` columns. -/
def square (n : Int) : GridSize := ⟨n, n⟩

/-- Whether the size has no rows or no columns; a negative count is not empty. -/
def isEmpty (s : GridSize) : Bool := s.rows == 0 || s.cols == 0

/-- The number of cells, negative counts taken as zero. -/
def cellCount (s : GridSize) : Nat := s.rows.toNat * s.cols.toNat

/-- The larger of the two counts. -/
def maxDimension (s : GridSize) : Int := max s.rows s.cols

/-- The text `(rows: r, cols: c)`. -/
def display (s : GridSize) : String := s!"(rows: {s.rows}, cols: {s.cols})"

@[simp] theorem cellCount_mk (r c : Int) : cellCount ⟨r, c⟩ = r.toNat * c.toNat := rfl

end GridSize

end Georaster
