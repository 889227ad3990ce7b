import Georaster.Decimal.Shortest
/-!
# Writing a floating-point value as text

The digits are always the shortest that read back (`FloatFormat.shortest`); a layout decides
only where they go. Three layouts are in use:

* `FloatLayout.positional` writes every value without an exponent and drops a zero fraction:
  `1`, `0.1`, `100000000000000000000`, `-0`. Messages print values this way.
* `FloatLayout.general` keeps a fraction digit (`1.0`, `-0.0`) and switches to scientific
  form, with a bare exponent (`1e20`, `1.5e-7`), when the decimal exponent is below `-4` or
  at least `16`. Metadata descriptions print nodata this way.
* `FloatLayout.interchange` is the same with one more positional exponent below (`0.00001`),
  and spells NaN and infinity in lower case: the number text of the interchange format.
-/

namespace Georaster

/-- Where the shortest digits of a value are placed. -/
structure FloatLayout where
  /-- The decimal exponents written in scientific form: those below the first bound and
  those from the second bound on; none means always positional. -/
  scientific : Option (Int × Int)
  /-- Whether a positional integer keeps a `.0` fraction. -/
  pointZero : Bool
  /-- The text of NaN. -/
  nanText : String
  /-- The text of positive infinity; negative infinity has a minus sign before it. -/
  infText : String

namespace FloatLayout

/-- Always positional, no `.0`. -/
def positional : FloatLayout := ⟨none, false, "NaN", "inf"⟩

/-- Positional from `1e-4` to below `1e16` with a `.0` kept, scientific outside. -/
def general : FloatLayout := ⟨some (-4, 16), true, "NaN", "inf"⟩

/-- Positional from `1e-5` to below `1e16` with a `.0` kept, scientific outside; `nan`, `inf`. -/
def interchange : FloatLayout := ⟨some (-5, 16), true, "nan", "inf"⟩

/-- `n` zeros. -/
def zeros (n : Nat) : String := String.ofList (List.replicate n '0')

/-- The digits of `c * 10 ^ k` without an exponent. -/
def positionalText (L : FloatLayout) (c : Nat) (k : Int) : String :=
  let s := toString c
  if 0 ≤ k then
    s ++ zeros k.toNat ++ (if L.pointZero then ".0" else "")
  else
    let point := (s.length : Int) + k
    if 0 < point then
      let cs := s.toList
      String.ofList (cs.take point.toNat) ++ "." ++ String.ofList (cs.drop point.toNat)
    else "0." ++ zeros (-point).toNat ++ s

/-- The digits of `c * 10 ^ k` as `d.ddd` and a bare exponent. -/
def scientificText (c : Nat) (k : Int) : String :=
  let cs := (toString c).toList
  let exp := (cs.length : Int) - 1 + k
  let lead := String.ofList (cs.take 1)
  let rest := String.ofList (cs.drop 1)
  (if rest.isEmpty then lead else lead ++ "." ++ rest) ++ "e" ++ toString exp

/-- The text of the finite nonnegative decimal `c * 10 ^ k` (no trailing zeros in `c`). -/
def decimalText (L : FloatLayout) (c : Nat) (k : Int) : String :=
  if c = 0 then (if L.pointZero then "0.0" else "0")
  else
    let exp := (decimalLength c : Int) - 1 + k
    match L.scientific with
    | some (lo, hi) => if exp < lo ∨ hi ≤ exp then scientificText c k else L.positionalText c k
    | none => L.positionalText c k

/-- The text of a value of format `f`. -/
def render (L : FloatLayout) {f : FloatFormat} (x : BinaryFloat f) : String :=
  match x.classify with
  | .nan => L.nanText
  | .infinite neg => (if neg then "-" else "") ++ L.infText
  | .finite neg m e =>
    let d := f.shortest m e
    (if neg then "-" else "") ++ L.decimalText d.1 d.2

end FloatLayout

end Georaster
