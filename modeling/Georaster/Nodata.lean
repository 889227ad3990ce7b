import Georaster.Pixel.Value
import Georaster.Error
/-!
# Nodata

A raster may mark cells as missing ("nodata"). The metadata carry the nodata value as a double;
a pixel type can only use it if it holds that value (`validateNodata`): NaN and values out of
range are refused for integral types, while floating-point types accept anything, because they
mark missing cells with NaN whatever the nodata value is.

A buffer that stores every cell marks missing cells in-band, as its `NodataPolicy` says: an
integral type writes the nodata value (its sentinel), and has no way to store a missing cell
without one; a floating-point type writes NaN.

The result of an operation on two rasters takes the first nodata value of the explicit one, the
left operand's and the right operand's (`resolveNodata`), and a cell of it is computed by
converting both operand values to the operation's type first (`combine`), missing when either
operand is missing or does not fit.
-/

namespace Georaster

/-- How a buffer marks missing cells. -/
inductive NodataPolicy where
  /-- Missing cells hold this value; with none, missing cells cannot be stored. -/
  | sentinel (value : Option Pixel)
  /-- Missing cells hold NaN; the value is the NaN that is written. -/
  | nan (marker : Pixel)
  deriving Inhabited

namespace NodataPolicy

/-- Whether a stored value marks a missing cell. -/
def isMissing : NodataPolicy → Pixel → Bool
  | sentinel (some s), v => s.eq v
  | sentinel none, _ => false
  | nan _, v => v.isNaN

/-- The value to store for a missing cell, if there is one. -/
def missingValue : NodataPolicy → Option Pixel
  | sentinel s => s
  | nan m => some m

/-- The cell that a stored value stands for. -/
def read (p : NodataPolicy) (v : Pixel) : Option Pixel := if p.isMissing v then none else some v

/-- The value to store for a cell; none if the cell is missing and cannot be stored. -/
def write (p : NodataPolicy) : Option Pixel → Option Pixel
  | some v => some v
  | none => p.missingValue

end NodataPolicy

namespace PixelType

/-- The nodata value of the metadata as a value of the type, if it has one and it fits. -/
def nodataValue (t : PixelType) (nodata : Option Binary64) : Option Pixel :=
  nodata.bind t.castFloat?

/-- The policy of a buffer of type `t` whose metadata give the nodata value `nodata`. -/
def policy (t : PixelType) (nodata : Option Binary64) : NodataPolicy :=
  match t.nan? with
  | some m => .nan m
  | none => .sentinel (t.nodataValue nodata)

/-- Checks that rasters of type `t` can use the nodata value: floating-point types accept every
value, integral types refuse NaN and values they do not hold. -/
def validateNodata (t : PixelType) (nodata : Option Binary64) : Except RasterError Unit :=
  match nodata with
  | none => .ok ()
  | some n =>
    if t.hasNaN then .ok ()
    else if n.isNaN then
      .error (.invalidConfiguration "Nodata value cannot be NaN for integral rasters")
    else if t.fits n then .ok ()
    else .error (.invalidConfiguration
      s!"Nodata value {FloatLayout.positional.render n} does not fit in raster type {t.name}")

end PixelType

/-- The nodata value of a result: the explicit one, else the left operand's, else the right
operand's. -/
def resolveNodata (result lhs rhs : Option Binary64) : Option Binary64 :=
  (result.orElse fun _ => lhs).orElse fun _ => rhs

/-- A cell of a result of type `w`: both operand values converted to `w`, then `op`. Missing when
an operand is missing or does not fit. -/
def combine (w : PixelType) (lhs rhs : Option Pixel) (op : Pixel → Pixel → Option Pixel) :
    Option Pixel := do
  let a ← lhs.bind w.cast?
  let b ← rhs.bind w.cast?
  op a b

end Georaster
