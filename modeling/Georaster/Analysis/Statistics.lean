import Georaster.Raster.Basic
/-!
# Sums over the data cells

`Raster.sum` adds the data values, as doubles, in row-major order. The running total starts at
negative zero, the neutral element of floating-point addition, so a raster without data cells
sums to `-0.0` and one whose data are all `-0.0` keeps that sign.

`Raster.zonalSums` groups the data cells of a value raster by the cell of a zone raster of the
same size: each zone value with at least one pair of data cells gets the total of the values in
its cells. These totals start at positive zero, once per zone. Restricted to a list of zones,
every listed zone has a total, zero when no cell belongs to it, and cells of other zones are
skipped. Totals are listed by increasing zone.

Both walk `Raster.dataValuePairs`: the pairs of values of the cells that hold data in both
rasters, in row-major order.
-/

namespace Georaster

/-- A zone total: the zone value and the sum of the values in its cells. -/
abbrev ZoneTotal := Int × Binary64

namespace ZoneTotal

/-- Adds `x` to the total of `zone` in a list of totals by increasing zone. A zone without a
total gets one, starting at positive zero, only when `create` holds. -/
def addTo (zone : Int) (x : Binary64) (create : Bool) : List ZoneTotal → List ZoneTotal
  | [] => if create then [(zone, BinaryFloat.zero false + x)] else []
  | (k, s) :: rest =>
    if zone < k then
      if create then (zone, BinaryFloat.zero false + x) :: (k, s) :: rest else (k, s) :: rest
    else if zone = k then (k, s + x) :: rest
    else (k, s) :: addTo zone x create rest

/-- Zero totals for the given zones, by increasing zone and each zone once. -/
def zeros (zones : List Int) : List ZoneTotal :=
  ((zones.mergeSort fun a b => decide (a ≤ b)).eraseDups).map fun z => (z, BinaryFloat.zero false)

end ZoneTotal

/-- The zone of a value of a zone raster. Zone rasters have an integral type; a floating-point
value belongs to no zone. -/
def Pixel.zone : Pixel → Option Int
  | .int n => some n
  | _ => none

/-- An integer value is its own zone. -/
@[simp] theorem Pixel.zone_int (n : Int) : (Pixel.int n).zone = some n := rfl

namespace Raster

/-- The sum of the data values as doubles, added in row-major order from negative zero. -/
def sum (r : Raster) : Binary64 :=
  r.dataValues.foldl (fun acc v => acc + v.toDouble) (BinaryFloat.zero true)

/-- A raster without data cells sums to negative zero. -/
theorem sum_of_dataValues_eq_nil {r : Raster} (h : r.dataValues = []) :
    r.sum = BinaryFloat.zero true := by
  simp [sum, h]

/-- The pairs of values of the cells that hold data in both rasters, in row-major order; the
rasters must have one size. -/
def dataValuePairs (a b : Raster) : Except RasterError (List (Pixel × Pixel)) := do
  checkSizesMatch a b
  pure ((a.toOptions.zip b.toOptions).filterMap fun
    | (some x, some y) => some (x, y)
    | _ => none)

/-- Adds the pairs `(value, zone)` to a list of totals, opening new zones when `create` holds. -/
def addPairs (create : Bool) (totals : List ZoneTotal) (pairs : List (Pixel × Pixel)) :
    List ZoneTotal :=
  pairs.foldl (fun acc (v, z) => match z.zone with
    | some k => ZoneTotal.addTo k v.toDouble create acc
    | none => acc) totals

/-- The total of the data values of `values` per zone value of `zones`, over the cells where
both hold data. The rasters must have one size. -/
def zonalSums (values zones : Raster) : Except RasterError (List ZoneTotal) := do
  checkDimensions values zones
  let pairs ← dataValuePairs values zones
  pure (addPairs true [] pairs)

/-- The totals of the listed zones only, zero for a listed zone without cells. -/
def zonalSumsOf (values zones : Raster) (listed : List Int) :
    Except RasterError (List ZoneTotal) := do
  checkDimensions values zones
  let pairs ← dataValuePairs values zones
  pure (addPairs false (ZoneTotal.zeros listed) pairs)

end Raster

end Georaster
