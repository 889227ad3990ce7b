import Georaster.Raster.Basic
/-!
# Cellwise algebra

Two rasters of one size combine cell by cell into a raster with the storage and metadata of the
left one. Arithmetic is computed in the widest type of the two pixel types, after converting
both values to it (`combine`); a cell is missing when an operand cell is, when a value does not
fit, and, for division, when the divisor is zero. The result takes the left nodata value, else
the right one; a division into a floating-point type without either takes NaN.

Comparisons and logical operations give 0 or 1 in `uint8`, with 255 as nodata value whenever a
missing cell is possible: an operand has a nodata value, a floating-point type, or a missing
cell.

A raster and a scalar combine likewise, the scalar converted once to the widest type. Only data
cells are computed, so a missing cell stays missing; for a sparse raster only its stored cells
are visited.

Used as operators (`Raster.operator`), these operations abort where they would report an error.
-/

namespace Georaster

/-- An arithmetic operation of two values. -/
inductive Arith where
  | add
  | sub
  | mul
  | div
  deriving DecidableEq, Repr

/-- A comparison of two values. -/
inductive Comparison where
  | eq
  | ne
  | lt
  | le
  | gt
  | ge
  deriving DecidableEq, Repr

/-- An operation of two rasters. -/
inductive BinaryOp where
  /-- Arithmetic in the widest type. -/
  | arith (k : Arith)
  /-- A comparison, as 0 or 1. -/
  | compare (c : Comparison)
  /-- 1 where both values are nonzero. -/
  | and
  /-- 1 where a value is nonzero. -/
  | or
  deriving DecidableEq, Repr

/-- An operation of a raster and a scalar. -/
inductive ScalarOp where
  /-- Cell value, then scalar. -/
  | arith (k : Arith)
  /-- Scalar minus cell value. -/
  | subFrom
  /-- Scalar over cell value. -/
  | divInto
  /-- Cell value compared with the scalar, as 0 or 1. -/
  | compare (c : Comparison)
  deriving DecidableEq, Repr

namespace Arith

/-- The operation in type `t`; division gives none for a zero divisor. -/
def apply (k : Arith) (t : PixelType) (a b : Pixel) : Option Pixel :=
  match k with
  | add => some (t.add a b)
  | sub => some (t.sub a b)
  | mul => some (t.mul a b)
  | div => t.div? a b

end Arith

namespace Comparison

/-- Whether the comparison holds; every comparison but `ne` fails with a NaN operand. -/
def holds (c : Comparison) (a b : Pixel) : Bool :=
  match c with
  | eq => a.eq b
  | ne => !a.eq b
  | lt => a.lt b
  | le => a.le b
  | gt => b.lt a
  | ge => b.le a

end Comparison

/-- A truth value as a pixel of `uint8`. -/
def Pixel.ofBool (b : Bool) : Pixel := .int (if b then 1 else 0)

/-- The nodata value of comparison results that may hold missing cells. -/
def booleanNodata : Binary64 := BinaryFloat.ofInt 255

namespace BinaryOp

/-- The operation on two values of type `w`: arithmetic in `w` (none for a zero divisor), or a
truth value. -/
def kernel (op : BinaryOp) (w : PixelType) (u v : Pixel) : Option Pixel :=
  match op with
  | arith k => k.apply w u v
  | compare c => some (Pixel.ofBool (c.holds u v))
  | and => some (Pixel.ofBool (!u.isZero && !v.isZero))
  | or => some (Pixel.ofBool (!u.isZero || !v.isZero))

/-- The pixel type of the result when the operands' widest type is `w`: `w` for arithmetic,
`uint8` for truth values. -/
def resultType (op : BinaryOp) (w : PixelType) : PixelType :=
  match op with
  | arith _ => w
  | _ => .uint8

end BinaryOp

namespace ScalarOp

/-- The operation on a cell value `x` and the scalar `s`, both of type `w`: arithmetic in `w`
(none for a zero divisor), or a truth value. -/
def kernel (op : ScalarOp) (w : PixelType) (x s : Pixel) : Option Pixel :=
  match op with
  | arith k => k.apply w x s
  | subFrom => some (w.sub s x)
  | divInto => w.div? s x
  | compare c => some (Pixel.ofBool (c.holds x s))

/-- The pixel type of the result when the widest type is `w`: `w` for arithmetic, `uint8` for
truth values. -/
def resultType (op : ScalarOp) (w : PixelType) : PixelType :=
  match op with
  | compare _ => .uint8
  | _ => w

end ScalarOp

namespace Raster

/-- Whether a raster may hold a missing cell: it has a nodata value, a floating-point type, or a
missing cell. -/
def mayContainNodata (r : Raster) : Bool :=
  r.metadata.nodata.isSome || r.type.hasNaN || r.hasNodata

/-- The nodata value of a comparison result. -/
def booleanNodataFor (maybe : Bool) : Option Binary64 := if maybe then some booleanNodata else none

/-- Whether some data cell is zero. -/
def containsZero (r : Raster) : Bool := r.dataValues.any Pixel.isZero

/-- The raster with the storage and metadata of `a` whose cell `i` is `cell (a i) (b i)` in
type `t` and with the given nodata value, after checking the sizes. -/
def zipCells (a b : Raster) (t : PixelType) (nodata : Option Binary64)
    (cell : Option Pixel → Option Pixel → Option Pixel) : Except RasterError Raster := do
  checkDimensions a b
  let av := a.toOptions.toArray
  let bv := b.toOptions.toArray
  a.backend.ofCells t (a.metadata.withNodata nodata) fun i => cell (av.getD i none) (bv.getD i none)

/-- The nodata value of the result of an operation: the left operand's, else the right one's, for
arithmetic (NaN for a floating-point quotient without either); 255 for truth values when a
missing cell is possible. -/
def binaryNodata (op : BinaryOp) (a b : Raster) : Option Binary64 :=
  let nodata := resolveNodata none a.metadata.nodata b.metadata.nodata
  match op with
  | .arith .div =>
    if nodata.isNone && (a.type.widest b.type).hasNaN then some BinaryFloat.nan else nodata
  | .arith _ => nodata
  | _ => booleanNodataFor (a.mayContainNodata || b.mayContainNodata)

/-- An operation of two rasters of one size: cell `i` of the result is the kernel of the cells `i`
of the operands, both converted to their widest type. A division that cannot store its missing
cells reports a zero divisor when the right operand holds one. -/
def binary (op : BinaryOp) (a b : Raster) : Except RasterError Raster :=
  let w := a.type.widest b.type
  let res := zipCells a b (op.resultType w) (binaryNodata op a b) fun x y =>
    combine w x y (op.kernel w)
  match op, res with
  | .arith .div, .error (.runtime m) =>
    .error (.runtime
      (if b.containsZero then "Division by zero not possible when resulting raster has no nodata"
      else m))
  | _, res => res

/-- The nodata value of the result of an operation with a scalar: the raster's for arithmetic,
255 for truth values when a missing cell is possible. -/
def scalarNodata (op : ScalarOp) (r : Raster) : Option Binary64 :=
  match op with
  | .compare _ => booleanNodataFor r.mayContainNodata
  | _ => r.metadata.nodata

/-- An operation of a raster and a scalar of type `st`. Division by a zero scalar is refused
first; then the scalar must fit the widest type. Each data cell is converted to the widest type
and combined with the scalar; a division of the scalar that cannot store its missing cells
reports a zero cell when the raster holds one. -/
def scalar (op : ScalarOp) (r : Raster) (st : PixelType) (s : Pixel) : Except RasterError Raster :=
  if op = .arith .div && s.isZero then .error (.invalidArgument "Division by zero")
  else
    let w := r.type.widest st
    match w.cast? s with
    | none => .error (.invalidArgument
        s!"Scalar value {s.display} does not fit in raster type {w.name}")
    | some sw =>
      let res := r.mapValues (op.resultType w) (scalarNodata op r) fun v =>
        (w.cast? v).bind fun x => op.kernel w x sw
      match op, res with
      | .divInto, .error (.runtime m) =>
        .error (.runtime (if r.containsZero then "Division by raster that contains 0 values" else m))
      | _, res => res

/-- 1 where the cell is zero, in `uint8`. -/
def logicalNot (r : Raster) : Except RasterError Raster :=
  r.mapValues .uint8 (booleanNodataFor r.mayContainNodata) fun v => some (Pixel.ofBool v.isZero)

/-- The cells negated; refused for unsigned types. -/
def negate (r : Raster) : Except RasterError Raster :=
  if !r.type.isSigned then .error (.invalidArgument "Minus operator applied to unsigned value")
  else r.mapValues r.type r.metadata.nodata r.type.neg?

/-- The raster converted to type `t`; values that do not fit become missing. -/
def cast (r : Raster) (t : PixelType) : Except RasterError Raster :=
  r.mapValues t r.metadata.nodata t.cast?

/-- An operation used as an operator, which cannot report an error: an error aborts with its
message. -/
def operator (res : Except RasterError Raster) : Outcome Raster :=
  match res with
  | .ok r => .ok r
  | .error e => abort s!"Error on raster operation: {e.message}"

end Raster

end Georaster
