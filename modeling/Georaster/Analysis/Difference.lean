import Georaster.Raster.Basic
/-!
# Comparing two rasters

Two values are close within a tolerance when the larger minus the smaller is at most the
tolerance, computed in doubles; with a NaN, or with two infinities of one sign, the difference
is NaN and the values are not close.

`Raster.diff` classifies every cell pair of two rasters of one size. Two data values count as
equal when they are close, if either raster has a floating-point type, and when their doubles
are equal otherwise; unequal values are told apart by which of them is zero. A missing cell
beside a data cell is counted by whether the data value is zero. Two missing cells are not
counted at all.

`Raster.tolerantEqual` holds for rasters of one size whose cells are missing in the same places
and close elsewhere.
-/

namespace Georaster

/-- Whether two doubles differ by at most `eps`: the larger minus the smaller is at most `eps`. -/
def closeWithin (eps a b : Binary64) : Bool :=
  (if b.lt a then a - b else b - a).le eps

/-- The counts of cell pairs by how the second raster differs from the first. -/
structure DiffCounts where
  /-- A zero became another value. -/
  zeroToNonZero : Nat := 0
  /-- A value other than zero became zero. -/
  nonZeroToZero : Nat := 0
  /-- A missing cell became zero. -/
  nodataToZero : Nat := 0
  /-- A missing cell became a value other than zero. -/
  nodataToNonZero : Nat := 0
  /-- A zero became missing. -/
  zeroToNodata : Nat := 0
  /-- A value other than zero became missing. -/
  nonZeroToNodata : Nat := 0
  /-- A value other than zero became another value other than zero. -/
  dataDifference : Nat := 0
  /-- Two data values were equal. -/
  equal : Nat := 0
  deriving Repr

namespace DiffCounts

/-- The number of cells that differ: every count but `equal`. -/
def differentCells (d : DiffCounts) : Nat :=
  d.zeroToNonZero + d.nonZeroToZero + d.nodataToZero + d.nodataToNonZero + d.zeroToNodata +
    d.nonZeroToNodata + d.dataDifference

/-- Counts one cell pair; `equalData` decides whether two data values are equal. -/
def count (equalData : Pixel → Pixel → Bool) (d : DiffCounts) :
    Option Pixel × Option Pixel → DiffCounts
  | (some x, some y) =>
    if equalData x y then { d with equal := d.equal + 1 }
    else if x.isZero then { d with zeroToNonZero := d.zeroToNonZero + 1 }
    else if y.isZero then { d with nonZeroToZero := d.nonZeroToZero + 1 }
    else { d with dataDifference := d.dataDifference + 1 }
  | (none, some y) =>
    if y.isZero then { d with nodataToZero := d.nodataToZero + 1 }
    else { d with nodataToNonZero := d.nodataToNonZero + 1 }
  | (some x, none) =>
    if x.isZero then { d with zeroToNodata := d.zeroToNodata + 1 }
    else { d with nonZeroToNodata := d.nonZeroToNodata + 1 }
  | (none, none) => d

/-- Counting a cell pair adds one to exactly one counter, and nothing for two missing cells. -/
theorem count_counted (equalData : Pixel → Pixel → Bool) (d : DiffCounts)
    (p : Option Pixel × Option Pixel) :
    (d.count equalData p).differentCells + (d.count equalData p).equal =
      d.differentCells + d.equal + (if p.1.isNone && p.2.isNone then 0 else 1) := by
  rcases p with ⟨_ | x, _ | y⟩
  · simp [count]
  · by_cases hy : y.isZero <;> simp [count, differentCells, hy] <;> omega
  · by_cases hx : x.isZero <;> simp [count, differentCells, hx] <;> omega
  · by_cases he : equalData x y <;> by_cases hx : x.isZero <;> by_cases hy : y.isZero <;>
      simp [count, differentCells, he, hx, hy] <;> omega

end DiffCounts

namespace Raster

/-- The cell pairs of two rasters of one size classified; data values of a floating-point
raster are compared within the tolerance, integers exactly as doubles. -/
def diff (a b : Raster) (tolerance : Binary64) : Except RasterError DiffCounts := do
  checkSizesMatch a b
  let equalData := fun (x y : Pixel) =>
    if a.type.hasNaN || b.type.hasNaN then closeWithin tolerance x.toDouble y.toDouble
    else x.toDouble.eq y.toDouble
  pure ((a.toOptions.zip b.toOptions).foldl (DiffCounts.count equalData) {})

/-- Whether two rasters have one size, the same missing cells, and data values close within
the tolerance. -/
def tolerantEqual (a b : Raster) (tolerance : Binary64) : Bool :=
  a.size = b.size && (a.toOptions.zip b.toOptions).all fun
    | (some x, some y) => closeWithin tolerance x.toDouble y.toDouble
    | (none, none) => true
    | _ => false

end Raster

end Georaster
