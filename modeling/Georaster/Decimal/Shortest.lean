import Georaster.Binary.Format
/-!
# The shortest decimal that reads back

Every binary floating-point value owns an interval of reals that round to it: half a unit in
the last place to each side, only a quarter unit below a power of two (where the spacing
halves), ends included exactly when the significand is even, so that a tie on reading goes to
this value. The shortest decimal text of the value is the decimal with the fewest significant
digits in that interval; of two with the fewest, the one nearer the value, and of two equally
near, the upper one.

The search tries one, two, … significant digits. On the grid of `n` digits only the two grid
points around the value can lie in the interval, if any point does, so each length costs two
exact comparisons. Seventeen digits always succeed for double precision.
-/

namespace Georaster

/-- The number of decimal digits of `n`; zero has none. -/
def decimalLength (n : Nat) : Nat :=
  if n = 0 then 0 else decimalLength (n / 10) + 1
termination_by n
decreasing_by omega

/-- `⌊log₁₀ (n / d)⌋` for positive `n` and `d`. Above one it is the length of the integer part
less one; below one it is minus the least `t` with `d ≤ n * 10 ^ t`, which is the length of
`⌈d / n⌉ - 1`. -/
def log10Ratio (n d : Nat) : Int :=
  if d ≤ n then (decimalLength (n / d) : Int) - 1
  else -(decimalLength ((d + n - 1) / n - 1) : Int)

/-- Compares `c * 10 ^ k` with `M * 2 ^ e / 4`, both exact. -/
def compareQuarter (c : Nat) (k : Int) (M : Nat) (e : Int) : Ordering :=
  compare (4 * c * Nat.pow 10 k.toNat * Nat.pow 2 (-e).toNat)
    (M * Nat.pow 2 e.toNat * Nat.pow 10 (-k).toNat)

/-- The rounding interval of the positive value `m * 2 ^ e`, in quarter units `2 ^ e / 4`:
its lower end, its upper end, and whether the ends belong to it. -/
structure RoundingInterval where
  /-- The significand `m`. -/
  m : Nat
  /-- The exponent `e`. -/
  e : Int
  /-- The lower end in quarter units. -/
  lower : Nat
  /-- The upper end in quarter units. -/
  upper : Nat
  /-- Whether both ends belong to the interval. -/
  closed : Bool

namespace RoundingInterval

/-- Whether `c * 10 ^ k` lies in the interval. -/
def contains (I : RoundingInterval) (c : Nat) (k : Int) : Bool :=
  let lo := compareQuarter c k I.lower I.e
  let hi := compareQuarter c k I.upper I.e
  if I.closed then lo != .lt && hi != .gt else lo == .gt && hi == .lt

/-- The candidate of `n` significant digits: the grid points `d * 10 ^ k` and `(d + 1) * 10 ^ k`
around the value, the one in the interval, the nearer if both are. -/
def candidate (I : RoundingInterval) (n : Nat) : Option (Nat × Int) :=
  let k : Int := log10Ratio (scaledRatio I.m I.e).1 (scaledRatio I.m I.e).2 + 1 - n
  let d := (I.m * Nat.pow 2 I.e.toNat * Nat.pow 10 (-k).toNat) /
    (Nat.pow 2 (-I.e).toNat * Nat.pow 10 k.toNat)
  match I.contains d k, I.contains (d + 1) k with
  | true, true =>
    -- the upper point is nearer when `(2d + 1) * 10 ^ k ≤ 2 * value`
    if compareQuarter (2 * d + 1) k (8 * I.m) I.e == .gt then some (d, k) else some (d + 1, k)
  | true, false => some (d, k)
  | false, true => some (d + 1, k)
  | false, false => none

end RoundingInterval

/-- Removes trailing zeros: `(c, k)` and `(c / 10, k + 1)` stand for the same decimal. -/
def stripZeros (c : Nat) (k : Int) : Nat × Int :=
  if c % 10 = 0 ∧ 0 < c then stripZeros (c / 10) (k + 1) else (c, k)
termination_by c
decreasing_by omega

/-- The rounding interval of the finite positive value `m * 2 ^ e` of format `f`. The gap below
is half the gap above when `m` is the leading bit alone and the exponent is not the least. -/
def FloatFormat.roundingInterval (f : FloatFormat) (m : Nat) (e : Int) : RoundingInterval :=
  let lowerGap := if m = f.hidden ∧ f.minExp < e then 1 else 2
  ⟨m, e, 4 * m - lowerGap, 4 * m + 2, m % 2 == 0⟩

/-- The shortest decimal `c * 10 ^ k` of the finite value `m * 2 ^ e` of format `f`, without
trailing zeros; zero for `m = 0`. -/
def FloatFormat.shortest (f : FloatFormat) (m : Nat) (e : Int) : Nat × Int :=
  if m = 0 then (0, 0)
  else
    let I := f.roundingInterval m e
    match (List.range 17).findSome? (fun i => I.candidate (i + 1)) with
    | some (c, k) => stripZeros c k
    | none =>
      let r := scaledRatio m e
      (r.1 / r.2, 0)

end Georaster
