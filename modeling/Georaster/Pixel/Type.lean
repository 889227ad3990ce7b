/-!
# Pixel types

A raster holds pixels of one of ten numeric types: signed and unsigned integers of 8, 16, 32
and 64 bits, and binary floating-point numbers of single and double precision.

The result type of an operation on two pixel types is their *widest* type (`PixelType.widest`),
chosen so that it holds every value of both operands whenever such a type exists among the ten:
a floating-point operand wins (double over single), two integers of one signedness give the
wider, and a signed and an unsigned integer give a signed integer wide enough for both,
capped at 64 bits.
-/

namespace Georaster

/-- The numeric type of the pixels of a raster. -/
inductive PixelType where
  | int8
  | uint8
  | int16
  | uint16
  | int32
  | uint32
  | int64
  | uint64
  | float32
  | float64
  deriving DecidableEq, Repr, Inhabited

namespace PixelType

/-- All ten pixel types. -/
def all : List PixelType :=
  [int8, uint8, int16, uint16, int32, uint32, int64, uint64, float32, float64]

/-- The display name of the type. -/
def name : PixelType → String
  | int8 => "int8"
  | uint8 => "uint8"
  | int16 => "int16"
  | uint16 => "uint16"
  | int32 => "int32"
  | uint32 => "uint32"
  | int64 => "int64"
  | uint64 => "uint64"
  | float32 => "float32"
  | float64 => "float64"

instance : ToString PixelType := ⟨name⟩

/-- Whether the type is a floating-point type; these mark missing cells with NaN. -/
def hasNaN : PixelType → Bool
  | float32 | float64 => true
  | _ => false

/-- Whether the type holds integers. -/
def isIntegral (t : PixelType) : Bool := !t.hasNaN

/-- Whether the type holds negative values: signed integers and floating-point types. -/
def isSigned : PixelType → Bool
  | uint8 | uint16 | uint32 | uint64 => false
  | _ => true

/-- The width in bits. -/
def bits : PixelType → Nat
  | int8 | uint8 => 8
  | int16 | uint16 => 16
  | int32 | uint32 | float32 => 32
  | int64 | uint64 | float64 => 64

/-- The integer type of the given signedness and width (8, 16, 32, otherwise 64). -/
def integer (signed : Bool) (width : Nat) : PixelType :=
  match signed, width with
  | true, 8 => int8
  | true, 16 => int16
  | true, 32 => int32
  | true, _ => int64
  | false, 8 => uint8
  | false, 16 => uint16
  | false, 32 => uint32
  | false, _ => uint64

/-- The least value of an integral type. -/
def minInt (t : PixelType) : Int := if t.isSigned then -Int.pow 2 (t.bits - 1) else 0

/-- The greatest value of an integral type. -/
def maxInt (t : PixelType) : Int :=
  if t.isSigned then Int.pow 2 (t.bits - 1) - 1 else Int.pow 2 t.bits - 1

/-- Whether an integer is a value of the integral type `t`. -/
def holdsInt (t : PixelType) (n : Int) : Bool := decide (t.minInt ≤ n ∧ n ≤ t.maxInt)

/-- The integer `n` reduced into the range of the integral type `t`, modulo `2 ^ bits`: the
result of an integer operation that wraps around. -/
def wrap (t : PixelType) (n : Int) : Int :=
  let r := n % Int.pow 2 t.bits
  if t.maxInt < r then r - Int.pow 2 t.bits else r

/-- The widest type of two pixel types. -/
def widest (a b : PixelType) : PixelType :=
  if a = float64 ∨ b = float64 then float64
  else if a = float32 ∨ b = float32 then float32
  else if a.isSigned = b.isSigned then integer a.isSigned (max a.bits b.bits)
  else
    let (s, u) := if a.isSigned then (a, b) else (b, a)
    integer true (min 64 (max s.bits (2 * u.bits)))

end PixelType

end Georaster
