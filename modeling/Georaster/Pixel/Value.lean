import Georaster.Pixel.Type
import Georaster.Binary.Arith
import Georaster.Decimal.Layout
/-!
# Pixel values

A pixel value is an integer or a binary floating-point number of one of the two precisions;
which of them a raster holds, and the range of its integers, is fixed by its `PixelType`.

This module gives the conversions between pixel types and the arithmetic on values of one type:

* `PixelType.cast?` converts a value into a type and fails when the value does not fit: an
  integer must lie in the range; a floating-point value must be finite and its integer part
  (toward zero) must lie in the range; an integer going to a floating-point type is rounded to
  nearest; a double going to single precision is rounded to nearest and may become infinite.
* integer `add`, `sub`, `mul` wrap around modulo `2 ^ bits`; integer division truncates toward
  zero and also wraps (the least value over `-1` is itself); dividing by zero gives nothing.
* floating-point operations round once to the type; dividing by a zero of either sign gives
  nothing. Negation gives nothing for unsigned types.
-/

namespace Georaster

/-- A pixel value. -/
inductive Pixel where
  /-- A value of an integral pixel type. -/
  | int (n : Int)
  /-- A value of single precision. -/
  | single (x : Binary32)
  /-- A value of double precision. -/
  | double (x : Binary64)
  deriving Inhabited

namespace Pixel

/-- The value as a double: integers are rounded to nearest, singles widen exactly. -/
def toDouble : Pixel → Binary64
  | int n => BinaryFloat.ofInt n
  | single x => x.convert
  | double x => x

/-- Whether the value is NaN; integers never are. -/
def isNaN : Pixel → Bool
  | int _ => false
  | single x => x.isNaN
  | double x => x.isNaN

/-- Whether the value is zero (a floating-point zero of either sign). -/
def isZero : Pixel → Bool
  | int n => n == 0
  | single x => x.isZero
  | double x => x.isZero

/-- `a < b` for two values of one type; false when either is NaN. -/
def lt : Pixel → Pixel → Bool
  | int a, int b => decide (a < b)
  | single a, single b => a.lt b
  | double a, double b => a.lt b
  | _, _ => false

/-- `a ≤ b` for two values of one type; false when either is NaN. -/
def le : Pixel → Pixel → Bool
  | int a, int b => decide (a ≤ b)
  | single a, single b => a.le b
  | double a, double b => a.le b
  | _, _ => false

/-- `a = b` as numbers for two values of one type: zeros of both signs are equal, NaN equals
nothing. -/
def eq : Pixel → Pixel → Bool
  | int a, int b => a == b
  | single a, single b => a.eq b
  | double a, double b => a.eq b
  | _, _ => false

/-- Whether two optional values are equal: both missing, or both present and `eq`. -/
def eqOption : Option Pixel → Option Pixel → Bool
  | none, none => true
  | some a, some b => a.eq b
  | _, _ => false

/-- Whether two lists of optional values have the same length and are equal element by
element. -/
def eqOptionList : List (Option Pixel) → List (Option Pixel) → Bool
  | [], [] => true
  | a :: as, b :: bs => eqOption a b && eqOptionList as bs
  | _, _ => false

/-- The text of the value: integers in decimal, floating-point values by their shortest digits
without an exponent (`FloatLayout.positional`). -/
def display : Pixel → String
  | int n => toString n
  | single x => FloatLayout.positional.render x
  | double x => FloatLayout.positional.render x

end Pixel

namespace PixelType

/-- The zero of the type. -/
def zero : PixelType → Pixel
  | float32 => .single (BinaryFloat.zero false)
  | float64 => .double (BinaryFloat.zero false)
  | _ => .int 0

/-- The value `1` of the type. -/
def one : PixelType → Pixel
  | float32 => .single (BinaryFloat.ofInt 1)
  | float64 => .double (BinaryFloat.ofInt 1)
  | _ => .int 1

/-- The quiet NaN of a floating-point type; none for integral types. -/
def nan? : PixelType → Option Pixel
  | float32 => some (.single BinaryFloat.nan)
  | float64 => some (.double BinaryFloat.nan)
  | _ => none

/-- An integer as a value of type `t`: kept if in range for integral types, rounded to nearest
for floating-point types. -/
def castInt? (t : PixelType) (n : Int) : Option Pixel :=
  match t with
  | float32 => some (.single (BinaryFloat.ofInt n))
  | float64 => some (.double (BinaryFloat.ofInt n))
  | _ => if t.holdsInt n then some (.int n) else none

/-- A floating-point value as a value of type `t`: for integral types its integer part if
finite and in range, for floating-point types the value rounded to `t`. -/
def castFloat? {f : FloatFormat} (t : PixelType) (x : BinaryFloat f) : Option Pixel :=
  match t with
  | float32 => some (.single x.convert)
  | float64 => some (.double x.convert)
  | _ => x.truncate?.bind fun n => if t.holdsInt n then some (.int n) else none

/-- A value as a value of type `t`, or none if it does not fit. -/
def cast? (t : PixelType) : Pixel → Option Pixel
  | .int n => t.castInt? n
  | .single x => t.castFloat? x
  | .double x => t.castFloat? x

/-- Whether a double fits the type. -/
def fits (t : PixelType) (x : Binary64) : Bool := (t.castFloat? x).isSome

/-! ### Kernels of the arithmetic -/

/-- The sum in type `t`. -/
def add (t : PixelType) : Pixel → Pixel → Pixel
  | .int a, .int b => .int (t.wrap (a + b))
  | .single a, .single b => .single (a + b)
  | .double a, .double b => .double (a + b)
  | a, _ => a

/-- The difference in type `t`. -/
def sub (t : PixelType) : Pixel → Pixel → Pixel
  | .int a, .int b => .int (t.wrap (a - b))
  | .single a, .single b => .single (a - b)
  | .double a, .double b => .double (a - b)
  | a, _ => a

/-- The product in type `t`. -/
def mul (t : PixelType) : Pixel → Pixel → Pixel
  | .int a, .int b => .int (t.wrap (a * b))
  | .single a, .single b => .single (a * b)
  | .double a, .double b => .double (a * b)
  | a, _ => a

/-- The quotient in type `t`, none for a zero divisor. -/
def div? (t : PixelType) : Pixel → Pixel → Option Pixel
  | .int a, .int b => if b = 0 then none else some (.int (t.wrap (a.tdiv b)))
  | .single a, .single b => if b.isZero then none else some (.single (a / b))
  | .double a, .double b => if b.isZero then none else some (.double (a / b))
  | _, _ => none

/-- The negation in type `t`, none for unsigned types. -/
def neg? (t : PixelType) : Pixel → Option Pixel
  | .int a => if t.isSigned then some (.int (t.wrap (-a))) else none
  | .single a => some (.single (-a))
  | .double a => some (.double (-a))

end PixelType

end Georaster
