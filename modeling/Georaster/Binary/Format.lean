/-!
# Binary floating-point formats

An IEEE 754 binary interchange format stores a sign bit, a biased exponent and a fraction.
This module reads a bit pattern as the exact value it stands for (`FloatClass`) and writes
the bit pattern of the value nearest to an exact ratio `n / d` (`FloatFormat.roundRatio`),
ties going to the neighbour with an even significand, magnitudes beyond the largest finite
value going to infinity.

Everything is exact `Nat` arithmetic: reading is integer division by powers of two, and
rounding compares the remainder of one integer division with half the divisor. So every
conversion and every arithmetic operation of `Georaster.Binary.Arith` is "the exact result,
rounded once", which is the rule of the standard.
-/

namespace Georaster

/-- An IEEE 754 binary interchange format, given by the widths of its two fields. -/
structure FloatFormat where
  /-- Bits of the stored fraction: the significand without its leading bit. -/
  fractionBits : Nat
  /-- Bits of the biased exponent. -/
  exponentBits : Nat
  deriving DecidableEq, Repr

namespace FloatFormat

/-- Single precision: 8 exponent bits and 23 fraction bits. -/
def single : FloatFormat := ⟨23, 8⟩

/-- Double precision: 11 exponent bits and 52 fraction bits. -/
def double : FloatFormat := ⟨52, 11⟩

variable (f : FloatFormat)

/-- Bits of a whole pattern: sign, exponent and fraction. -/
def width : Nat := f.fractionBits + f.exponentBits + 1

/-- The weight of the leading significand bit, `2 ^ fractionBits`. -/
def hidden : Nat := Nat.pow 2 f.fractionBits

/-- The biased exponent that marks infinities and NaNs (all exponent bits set). -/
def topExponent : Nat := Nat.pow 2 f.exponentBits - 1

/-- The exponent bias, `2 ^ (exponentBits - 1) - 1`. -/
def bias : Nat := Nat.pow 2 (f.exponentBits - 1) - 1

/-- The weight of the sign bit. -/
def signWeight : Nat := Nat.pow 2 (f.fractionBits + f.exponentBits)

/-- The exponent of the last significand place of subnormals: a pattern with biased exponent
0 and fraction `m` stands for `m * 2 ^ minExp`. -/
def minExp : Int := 1 - (f.bias : Int) - f.fractionBits

/-- The exponent of the leading bit of the least normal value, `1 - bias`. -/
def minNormalExp : Int := f.minExp + f.fractionBits

/-- The pattern of a zero of the given sign. -/
def zeroBits (neg : Bool) : Nat := if neg then f.signWeight else 0

/-- The pattern of an infinity of the given sign. -/
def infBits (neg : Bool) : Nat := f.zeroBits neg + f.topExponent * f.hidden

/-- The pattern of the quiet NaN that arithmetic produces. -/
def nanBits : Nat := f.topExponent * f.hidden + f.hidden / 2

end FloatFormat

/-- What a bit pattern stands for: NaN, an infinity, or the finite value `± m * 2 ^ e`. -/
inductive FloatClass where
  /-- Not a number. -/
  | nan
  /-- An infinity of the given sign. -/
  | infinite (neg : Bool)
  /-- The value `m * 2 ^ e`, negated when `neg`; zero keeps its sign here. -/
  | finite (neg : Bool) (m : Nat) (e : Int)
  deriving DecidableEq, Repr

namespace FloatFormat

variable (f : FloatFormat)

/-- The value that a bit pattern of the format stands for. Subnormals (biased exponent 0)
have no leading bit and the least exponent; normal patterns add the leading bit. -/
def decode (b : Nat) : FloatClass :=
  let frac := b % f.hidden
  let biased := b / f.hidden % Nat.pow 2 f.exponentBits
  let neg := decide (b / f.signWeight % 2 = 1)
  if biased = f.topExponent then
    if frac = 0 then .infinite neg else .nan
  else if biased = 0 then .finite neg frac f.minExp
  else .finite neg (f.hidden + frac) (f.minExp + biased - 1)

end FloatFormat

/-- `n < d * 2 ^ q`, for an exponent `q` of either sign. -/
def ltScaledPow2 (n d : Nat) (q : Int) : Bool :=
  if 0 ≤ q then decide (n < d * Nat.pow 2 q.toNat) else decide (n * Nat.pow 2 (-q).toNat < d)

/-- `⌊log₂ (n / d)⌋` for positive `n` and `d`: the binary logarithms of `n` and `d` give it up
to one, and one comparison settles which. -/
def log2Ratio (n d : Nat) : Int :=
  let q : Int := (n.log2 : Int) - d.log2
  if ltScaledPow2 n d q then q - 1 else q

/-- The integer nearest to `n / d`; of two equally near, the even one. -/
def roundHalfEven (n d : Nat) : Nat :=
  let q := n / d
  let r := n % d
  if d < 2 * r ∨ (2 * r = d ∧ q % 2 = 1) then q + 1 else q

/-- `n * 2 ^ e` as the ratio of two naturals. -/
def scaledRatio (n : Nat) (e : Int) : Nat × Nat :=
  (n * Nat.pow 2 e.toNat, Nat.pow 2 (-e).toNat)

namespace FloatFormat

variable (f : FloatFormat)

/-- The bit pattern of the value of the format nearest to `n / d`, negated when `neg`.
The exponent is that of the leading bit of `n / d`, but never below the least normal one;
the significand is the quotient rounded half to even at that exponent. A significand that
rounds up to the next power of two moves to the next exponent, and an exponent past the
largest finite one gives infinity. -/
def roundRatio (neg : Bool) (n d : Nat) : Nat :=
  if n = 0 then f.zeroBits neg
  else
    let q := max (log2Ratio n d) f.minNormalExp
    let u := q - f.fractionBits
    let m := roundHalfEven (n * Nat.pow 2 (-u).toNat) (d * Nat.pow 2 u.toNat)
    let (m, u) := if m = 2 * f.hidden then (f.hidden, u + 1) else (m, u)
    let biased : Nat := if m < f.hidden then 0 else (u - f.minExp + 1).toNat
    if f.topExponent ≤ biased then f.infBits neg
    else f.zeroBits neg + biased * f.hidden + m % f.hidden

/-- The pattern of `± m * 2 ^ e`, rounded to the format. -/
def roundScaled (neg : Bool) (m : Nat) (e : Int) : Nat :=
  let r := scaledRatio m e
  f.roundRatio neg r.1 r.2

end FloatFormat

/-- A value of a binary floating-point format, kept as its bit pattern. -/
structure BinaryFloat (f : FloatFormat) where
  /-- The bit pattern: sign, biased exponent, fraction. -/
  bits : BitVec f.width

/-- Single-precision values. -/
abbrev Binary32 := BinaryFloat FloatFormat.single

/-- Double-precision values. -/
abbrev Binary64 := BinaryFloat FloatFormat.double

namespace BinaryFloat

variable {f : FloatFormat}

/-- The value with the given bit pattern (taken modulo the width). -/
def ofBits (b : Nat) : BinaryFloat f := ⟨BitVec.ofNat f.width b⟩

/-- What the value is: NaN, an infinity, or a signed finite value. -/
def classify (x : BinaryFloat f) : FloatClass := f.decode x.bits.toNat

/-- The quiet NaN. -/
def nan : BinaryFloat f := ofBits f.nanBits

/-- The infinity of the given sign. -/
def inf (neg : Bool) : BinaryFloat f := ofBits (f.infBits neg)

/-- The zero of the given sign. -/
def zero (neg : Bool) : BinaryFloat f := ofBits (f.zeroBits neg)

/-- The value nearest to `n / d`, negated when `neg`. -/
def ofRatio (neg : Bool) (n d : Nat) : BinaryFloat f := ofBits (f.roundRatio neg n d)

/-- The value nearest to `± m * 2 ^ e`. -/
def ofScaled (neg : Bool) (m : Nat) (e : Int) : BinaryFloat f := ofBits (f.roundScaled neg m e)

/-- The value nearest to an integer. -/
def ofInt (n : Int) : BinaryFloat f := ofRatio (decide (n < 0)) n.natAbs 1

/-- Whether the value is NaN. -/
def isNaN (x : BinaryFloat f) : Bool :=
  match x.classify with
  | .nan => true
  | _ => false

/-- Whether the value is an infinity. -/
def isInfinite (x : BinaryFloat f) : Bool :=
  match x.classify with
  | .infinite _ => true
  | _ => false

/-- Whether the value is a zero of either sign. -/
def isZero (x : BinaryFloat f) : Bool :=
  match x.classify with
  | .finite _ m _ => m == 0
  | _ => false

/-- The same value in another format, rounded to it: widening is exact, narrowing rounds to
nearest and overflows to infinity. NaN stays NaN. -/
def convert {g : FloatFormat} (x : BinaryFloat f) : BinaryFloat g :=
  match x.classify with
  | .nan => nan
  | .infinite neg => inf neg
  | .finite neg m e => ofScaled neg m e

/-- The integer part of a finite value, rounding toward zero; none for NaN and infinities. -/
def truncate? (x : BinaryFloat f) : Option Int :=
  match x.classify with
  | .finite neg m e =>
    let r := scaledRatio m e
    let t : Int := (r.1 / r.2 : Nat)
    some (if neg then -t else t)
  | _ => none

end BinaryFloat

end Georaster
