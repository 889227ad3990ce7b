import Georaster.Binary.Format
import Georaster.Decimal.Shortest
/-!
# Reading a decimal number

A number is written `-? digits (. digits)? ((e|E) (+|-)? digits)?`. Reading it gives the exact
decimal `± c * 10 ^ k`, and the binary value is that decimal rounded once to the format.
Magnitudes far outside the range of double precision go straight to infinity or zero, without
computing their powers of ten.
-/

namespace Georaster

/-- A decimal number as written: sign, digits, exponent, and whether the text had a fraction
or an exponent part (and so denotes a non-integral literal). -/
structure DecimalNumber where
  /-- A leading minus sign. -/
  neg : Bool
  /-- The digits, as one natural. -/
  coefficient : Nat
  /-- The power of ten that the digits are scaled by. -/
  exponent : Int
  /-- Whether a point or an exponent was written. -/
  fractional : Bool
  deriving Repr

namespace DecimalNumber

/-- The value of a string of decimal digits. -/
def digitsValue (cs : List Char) : Nat :=
  cs.foldl (fun acc c => 10 * acc + (c.toNat - '0'.toNat)) 0

/-- Splits off the longest prefix of decimal digits. -/
def spanDigits (cs : List Char) : List Char × List Char :=
  (cs.takeWhile Char.isDigit, cs.dropWhile Char.isDigit)

/-- Reads an optionally signed exponent that fills the rest of the text. -/
def readExponent (cs : List Char) : Option Int :=
  let (neg, rest) := match cs with
    | '-' :: r => (true, r)
    | '+' :: r => (false, r)
    | r => (false, r)
  let (ds, tail) := spanDigits rest
  if ds.isEmpty || !tail.isEmpty then none
  else some (if neg then -(digitsValue ds : Int) else digitsValue ds)

/-- Reads a whole text as a decimal number; none if it is not one. The integer part is `0` or
starts with a nonzero digit; a point must have digits after it. -/
def parse? (s : String) : Option DecimalNumber :=
  let cs := s.toList
  let (neg, cs) := match cs with
    | '-' :: r => (true, r)
    | r => (false, r)
  let (whole, cs) := spanDigits cs
  if whole.isEmpty || (whole.length > 1 && whole.head? == some '0') then none
  else
    let (frac, cs, hasPoint) := match cs with
      | '.' :: r => let (f, t) := spanDigits r; (f, t, true)
      | r => ([], r, false)
    if hasPoint && frac.isEmpty then none
    else
      let exp? : Option (Int × Bool) := match cs with
        | [] => some (0, false)
        | c :: r => if c = 'e' ∨ c = 'E' then (readExponent r).map (·, true) else none
      exp?.map fun (e, hasExp) =>
        ⟨neg, digitsValue (whole ++ frac), e - frac.length, hasPoint || hasExp⟩

/-- The integer the number denotes, if it is one written without a point or exponent. -/
def toInt? (d : DecimalNumber) : Option Int :=
  if d.fractional then none
  else some (if d.neg then -(d.coefficient : Int) else d.coefficient)

/-- The value of format `f` nearest to the number. -/
def toBinary (f : FloatFormat) (d : DecimalNumber) : BinaryFloat f :=
  let magnitude := (decimalLength d.coefficient : Int) + d.exponent
  if d.coefficient = 0 ∨ magnitude < -400 then BinaryFloat.zero d.neg
  else if 400 < magnitude then BinaryFloat.inf d.neg
  else BinaryFloat.ofRatio d.neg (d.coefficient * Nat.pow 10 d.exponent.toNat)
    (Nat.pow 10 (-d.exponent).toNat)

end DecimalNumber

end Georaster
