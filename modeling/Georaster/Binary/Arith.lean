import Georaster.Binary.Format
/-!
# Arithmetic and order of binary floating-point values

Each operation on two finite values computes the exact result as an integer or a ratio of
naturals and rounds it once (`BinaryFloat.ofScaled`, `BinaryFloat.ofRatio`). The special
cases are those of IEEE 754 under rounding to nearest: NaN absorbs everything, `∞ - ∞`,
`0 * ∞`, `0 / 0` and `∞ / ∞` are NaN, an exact zero sum is `+0` unless both addends are
`-0`, and the sign of a product or quotient is the exclusive or of the signs.

The order compares exact values, so `-0 = +0`, and every comparison with NaN is false.
-/

namespace Georaster

namespace BinaryFloat

variable {f : FloatFormat}

/-- `± n` as an integer. -/
def signed (neg : Bool) (n : Nat) : Int := if neg then -(n : Int) else n

/-- The value with the opposite sign; NaN stays NaN. -/
def neg (x : BinaryFloat f) : BinaryFloat f :=
  match x.classify with
  | .nan => nan
  | .infinite s => inf (!s)
  | .finite s m e => ofScaled (!s) m e

/-- The sum, rounded once. Two finite addends are brought to the smaller exponent, where
both are integers, and added exactly. -/
def add (x y : BinaryFloat f) : BinaryFloat f :=
  match x.classify, y.classify with
  | .nan, _ => nan
  | _, .nan => nan
  | .infinite s, .infinite t => if s == t then inf s else nan
  | .infinite s, _ => inf s
  | _, .infinite t => inf t
  | .finite s m e, .finite t n k =>
    let low := min e k
    let a := signed s (m * Nat.pow 2 (e - low).toNat)
    let b := signed t (n * Nat.pow 2 (k - low).toNat)
    let sum := a + b
    if sum = 0 then zero (s && t)
    else ofScaled (decide (sum < 0)) sum.natAbs low

/-- The difference: the sum with the negated subtrahend. -/
def sub (x y : BinaryFloat f) : BinaryFloat f := add x (neg y)

/-- The product, rounded once. -/
def mul (x y : BinaryFloat f) : BinaryFloat f :=
  match x.classify, y.classify with
  | .nan, _ => nan
  | _, .nan => nan
  | .infinite s, .infinite t => inf (s != t)
  | .infinite s, .finite t n _ => if n = 0 then nan else inf (s != t)
  | .finite s m _, .infinite t => if m = 0 then nan else inf (s != t)
  | .finite s m e, .finite t n k => ofScaled (s != t) (m * n) (e + k)

/-- The quotient, rounded once; a nonzero finite value over zero is an infinity. -/
def div (x y : BinaryFloat f) : BinaryFloat f :=
  match x.classify, y.classify with
  | .nan, _ => nan
  | _, .nan => nan
  | .infinite _, .infinite _ => nan
  | .infinite s, .finite t _ _ => inf (s != t)
  | .finite s _ _, .infinite t => zero (s != t)
  | .finite s m e, .finite t n k =>
    if n = 0 then (if m = 0 then nan else inf (s != t))
    else
      let a := scaledRatio m (e - k)
      ofRatio (s != t) a.1 (n * a.2)

/-- The square root, rounded once. The significand is scaled by an even power of two until its
integer square root has two bits more than the format keeps; a remainder is then worth half a
unit, which rounds exactly as the true root does, because no rounding boundary lies strictly
between two consecutive integers at that scale. -/
def sqrt (x : BinaryFloat f) : BinaryFloat f :=
  match x.classify with
  | .nan => nan
  | .infinite s => if s then nan else inf false
  | .finite s m e =>
    if m = 0 then zero s
    else if s then nan
    else
      let (m, e) := if e % 2 = 0 then (m, e) else (2 * m, e - 1)
      let t := f.fractionBits + 3
      let big := m * Nat.pow 4 t
      let r := big.sqrt
      let sticky := if r * r < big then 1 else 0
      ofScaled false (2 * r + sticky) ((e - 2 * t) / 2 - 1)

instance : Add (BinaryFloat f) := ⟨add⟩
instance : Sub (BinaryFloat f) := ⟨sub⟩
instance : Mul (BinaryFloat f) := ⟨mul⟩
instance : Div (BinaryFloat f) := ⟨div⟩
instance : Neg (BinaryFloat f) := ⟨neg⟩

/-! ### Order -/

/-- Where a value lies on the extended line: `-∞`, a finite `n * 2 ^ e`, or `+∞`. NaN has
no place. -/
inductive Place where
  | negInf
  | finite (n : Int) (e : Int)
  | posInf

/-- The place of a value, none for NaN. -/
def place (x : BinaryFloat f) : Option Place :=
  match x.classify with
  | .nan => none
  | .infinite s => some (if s then .negInf else .posInf)
  | .finite s m e => some (.finite (signed s m) e)

/-- Compares two places: both finite ones are brought to the smaller exponent. -/
def Place.compare : Place → Place → Ordering
  | .negInf, .negInf => .eq
  | .negInf, _ => .lt
  | _, .negInf => .gt
  | .posInf, .posInf => .eq
  | .posInf, _ => .gt
  | _, .posInf => .lt
  | .finite a e, .finite b k =>
    let low := min e k
    Ord.compare (a * Int.pow 2 (e - low).toNat) (b * Int.pow 2 (k - low).toNat)

/-- The order of two values, none when one is NaN. -/
def compare? (x y : BinaryFloat f) : Option Ordering :=
  match x.place, y.place with
  | some a, some b => some (a.compare b)
  | _, _ => none

/-- `x < y`; false when either is NaN. -/
def lt (x y : BinaryFloat f) : Bool := x.compare? y == some .lt

/-- `x ≤ y`; false when either is NaN. -/
def le (x y : BinaryFloat f) : Bool :=
  match x.compare? y with
  | some .gt => false
  | some _ => true
  | none => false

/-- `x = y` as numbers: `-0` equals `+0`, NaN equals nothing. -/
def eq (x y : BinaryFloat f) : Bool := x.compare? y == some .eq

end BinaryFloat

end Georaster
