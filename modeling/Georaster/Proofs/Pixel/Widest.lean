import Georaster.Proofs.Raster.Fill
import Georaster.Proofs.Binary.Exact
/-!
# Converting into the widest type and back

An operation on two rasters converts both operand values into the widest type of the two pixel
types (`PixelType.widest`) before its kernel runs. A value converts into a type and back to itself
exactly when that type holds it (`PixelType.holdsExactly`): an integer in the range of an integral
type, or held by the format of a floating-point type, that is without set bits below its
`fractionBits + 1` leading ones; a single-precision value in either floating-point type; a
double-precision value in `float64`.

* `PixelType.widest_cases` says what the widest type can be, and from it `hasNaN_widest` and
  `widest_of_float64`: a floating-point operand gives a floating-point widest type, `float64` wins;
* `PixelType.cast?_int_and_back`, `cast?_single_and_back` and `cast?_double_and_back` follow one
  value into a type and back;
* `PixelType.widest_cast_and_back`: a value of either type converts into the widest type and back
  to itself exactly when the widest type holds it, and a NaN comes back as NaN;
* `PixelType.holdsAllOf_iff` and `holdsAllOf_widest`: the widest type holds every value of both
  types unless the pair is one that `losesValues` lists, which `widest_cast_roundTrip` puts
  together with the value-by-value statement;
* `PixelType.widest_loses_values`: `uint64` with `int64` has the widest type `int64`, which
  refuses `2 ^ 64 - 1`; `int32` with `float32` has `float32`, which rounds `2 ^ 24 + 1`.
-/

namespace Georaster

namespace PixelType

variable {a b t w : PixelType} {n : Int}

/-- Whether type `w` holds a value exactly: an integer in the range of an integral `w` or held by
the format of a floating-point `w`; a single-precision value in either floating-point type; a
double-precision value in `float64`. -/
def holdsExactly (w : PixelType) : Pixel → Bool
  | .int n =>
    match w with
    | float32 => FloatFormat.single.holdsInt n
    | float64 => FloatFormat.double.holdsInt n
    | _ => w.holdsInt n
  | .single _ => w.hasNaN
  | .double _ => decide (w = float64)

/-! ### The widest type -/

theorem hasNaN_integer (s : Bool) (width : Nat) : (integer s width).hasNaN = false := by
  unfold integer
  split <;> rfl

theorem eq_float32_or_float64 (hw : w.hasNaN = true) : w = float32 ∨ w = float64 := by
  cases w <;> simp_all [hasNaN]

/-- The widest type is `float64` when either type is, else `float32` when either type is, else an
integral type, and then both types are integral. -/
theorem widest_cases (a b : PixelType) :
    (a.widest b = float64 ∧ (a = float64 ∨ b = float64)) ∨
    (a.widest b = float32 ∧ a ≠ float64 ∧ b ≠ float64 ∧ (a = float32 ∨ b = float32)) ∨
    ((a.widest b).hasNaN = false ∧ a.hasNaN = false ∧ b.hasNaN = false) := by
  unfold widest
  split_ifs with h64 h32 hs
  · exact .inl ⟨rfl, h64⟩
  · exact .inr (.inl ⟨rfl, fun h => h64 (.inl h), fun h => h64 (.inr h), h32⟩)
  all_goals
    -- neither type is a floating-point type
    have hab : a.hasNaN = false ∧ b.hasNaN = false := by
      cases a <;> cases b <;> simp_all [hasNaN]
    exact .inr (.inr ⟨hasNaN_integer _ _, hab⟩)

/-- The widest type of a floating-point type and another is a floating-point type. -/
theorem hasNaN_widest (ht : t = a ∨ t = b) (h : t.hasNaN = true) : (a.widest b).hasNaN = true := by
  rcases widest_cases a b with ⟨h64, -⟩ | ⟨h32, -⟩ | ⟨-, ha, hb⟩
  · rw [h64]
    rfl
  · rw [h32]
    rfl
  · rcases ht with rfl | rfl
    · rw [ha] at h
      cases h
    · rw [hb] at h
      cases h

theorem widest_of_float64 (ht : t = a ∨ t = b) (h : t = float64) : a.widest b = float64 := by
  subst h
  rcases widest_cases a b with ⟨h64, -⟩ | ⟨-, ha, hb, -⟩ | ⟨-, ha, hb⟩
  · exact h64
  · rcases ht with rfl | rfl
    · exact absurd rfl ha
    · exact absurd rfl hb
  · rcases ht with rfl | rfl
    · cases ha
    · cases hb

/-! ### One value into a type and back -/

theorem castInt?_of_integral (hw : w.hasNaN = false) (n : Int) :
    w.castInt? n = if w.holdsInt n then some (.int n) else none := by
  cases w <;> simp_all [hasNaN] <;> rfl

theorem castFloat?_of_integral (hw : w.hasNaN = false) {f : FloatFormat} (x : BinaryFloat f) :
    w.castFloat? x = x.truncate?.bind fun n => if w.holdsInt n then some (.int n) else none := by
  cases w <;> simp_all [hasNaN] <;> rfl

theorem holdsExactly_int_of_integral (hw : w.hasNaN = false) (n : Int) :
    w.holdsExactly (.int n) = w.holdsInt n := by
  cases w <;> simp_all [hasNaN, holdsExactly]

/-- An integer of an integral type has a magnitude below `2 ^ 64`. -/
theorem natAbs_lt_of_holdsInt (ht : t.holdsInt n = true) : n.natAbs < 2 ^ 64 := by
  cases t <;> simp [holdsInt, minInt, maxInt, isSigned, bits] at ht <;> omega

/-- A floating-point value converted into an integral type gives an integer `n` of the type exactly
when it truncates to `n`. -/
theorem castFloat?_eq_int_iff (ht : t.hasNaN = false) (hn : t.holdsInt n = true) {f : FloatFormat}
    {x : BinaryFloat f} : t.castFloat? x = some (.int n) ↔ x.truncate? = some n := by
  rw [castFloat?_of_integral ht]
  constructor
  · intro h
    obtain ⟨m, hm, hmn⟩ := Option.bind_eq_some_iff.mp h
    split at hmn
    · cases hmn
      exact hm
    · cases hmn
  · intro h
    simp [h, hn]

/-- An integer of an integral type converted into a floating-point format comes back exactly when
the format holds it. -/
theorem castFloat?_ofInt_eq_int_iff (ht : t.hasNaN = false) (hn : t.holdsInt n = true)
    {f : FloatFormat} (hb : 1 ≤ f.bias) (hr : 64 + f.bias < f.topExponent) :
    t.castFloat? (BinaryFloat.ofInt n : BinaryFloat f) = some (.int n) ↔ f.holdsInt n = true := by
  rw [castFloat?_eq_int_iff ht hn]
  -- its leading bit lies below 64
  have hlog : n.natAbs.log2 < 64 := by
    by_cases h0 : n.natAbs = 0
    · simp [h0]
    · exact (Nat.log2_lt h0).mpr (natAbs_lt_of_holdsInt hn)
  exact BinaryFloat.truncate?_ofInt_eq_some_iff hb (by omega)

/-- An integer of an integral type converts into a type and back to itself exactly when that type
holds it. -/
theorem cast?_int_and_back (ht : t.hasNaN = false) (hn : t.holdsInt n = true) (w : PixelType) :
    (w.cast? (.int n)).bind t.cast? = some (.int n) ↔ w.holdsExactly (.int n) = true := by
  cases hw : w.hasNaN
  · -- an integral type keeps the integer or refuses it
    have hback : t.cast? (.int n) = some (.int n) := by
      simp [cast?, castInt?_of_integral ht, hn]
    rw [holdsExactly_int_of_integral hw]
    simp only [cast?, castInt?_of_integral hw]
    split
    · simp [*]
    · simp [*]
  · -- a floating-point type rounds it
    rcases eq_float32_or_float64 hw with rfl | rfl
    · exact castFloat?_ofInt_eq_int_iff ht hn (by decide) (by decide)
    · exact castFloat?_ofInt_eq_int_iff ht hn (by decide) (by decide)

/-- A single-precision value converts into a floating-point type and back to itself, or to NaN if
it is NaN. -/
theorem cast?_single_and_back (hw : w.hasNaN = true) (x : Binary32) :
    (w.cast? (.single x)).bind float32.cast? =
      some (.single (if x.isNaN then BinaryFloat.nan else x)) := by
  have hnan : (BinaryFloat.nan : Binary32).isNaN = true := BinaryFloat.isNaN_nan (by decide)
  rcases eq_float32_or_float64 hw with rfl | rfl
  · show some (Pixel.single ((x.convert : Binary32).convert)) = _
    cases hx : x.isNaN
    · rw [BinaryFloat.convert_self hx, BinaryFloat.convert_self hx]
      rfl
    · rw [BinaryFloat.convert_of_isNaN hx, BinaryFloat.convert_of_isNaN hnan]
      rfl
  · show some (Pixel.single ((x.convert : Binary64).convert)) = _
    cases hx : x.isNaN
    · rw [BinaryFloat.convert_convert hx FloatFormat.Fits.widen_single]
      rfl
    · rw [BinaryFloat.convert_of_isNaN hx,
        BinaryFloat.convert_of_isNaN (BinaryFloat.isNaN_nan (f := FloatFormat.double) (by decide))]
      rfl

/-- A double-precision value converts into `float64` and back to itself, or to NaN if it is NaN. -/
theorem cast?_double_and_back (x : Binary64) :
    (float64.cast? (.double x)).bind float64.cast? =
      some (.double (if x.isNaN then BinaryFloat.nan else x)) := by
  have hnan : (BinaryFloat.nan : Binary64).isNaN = true := BinaryFloat.isNaN_nan (by decide)
  show some (Pixel.double ((x.convert : Binary64).convert)) = _
  cases hx : x.isNaN
  · rw [BinaryFloat.convert_self hx, BinaryFloat.convert_self hx]
    rfl
  · rw [BinaryFloat.convert_of_isNaN hx, BinaryFloat.convert_of_isNaN hnan]
    rfl

/-! ### Both types into the widest -/

/-- A value of either of two types converts into their widest type and back to itself exactly when
the widest type holds it; a NaN comes back as a NaN. -/
theorem widest_cast_and_back (ht : t = a ∨ t = b) {x : Pixel} (hx : t.holds x = true) :
    (x.isNaN = false →
      (((a.widest b).cast? x).bind t.cast? = some x ↔ (a.widest b).holdsExactly x = true)) ∧
    (x.isNaN = true → ∃ y, ((a.widest b).cast? x).bind t.cast? = some y ∧ y.isNaN = true) := by
  cases x with
  | int n =>
    -- an integer of an integral type, never NaN
    simp only [holds, Bool.and_eq_true] at hx
    have hint : t.hasNaN = false := by simpa [isIntegral] using hx.1
    exact ⟨fun _ => cast?_int_and_back hint hx.2 _, fun h => absurd h (by simp [Pixel.isNaN])⟩
  | single y =>
    have h32 : t = float32 := by simpa [holds] using hx
    have hw := hasNaN_widest ht (by rw [h32]; rfl)
    rw [h32, cast?_single_and_back hw]
    refine ⟨fun hy => ?_, fun hy => ⟨_, rfl, ?_⟩⟩
    · simp only [Pixel.isNaN] at hy
      simp [hy, holdsExactly, hw]
    · simp only [Pixel.isNaN] at hy ⊢
      rw [if_pos hy]
      exact BinaryFloat.isNaN_nan (by decide)
  | double y =>
    have h64 : t = float64 := by simpa [holds] using hx
    rw [widest_of_float64 ht h64, h64, cast?_double_and_back]
    refine ⟨fun hy => ?_, fun hy => ⟨_, rfl, ?_⟩⟩
    · simp only [Pixel.isNaN] at hy
      simp [hy, holdsExactly]
    · simp only [Pixel.isNaN] at hy ⊢
      rw [if_pos hy]
      exact BinaryFloat.isNaN_nan (by decide)

/-! ### The pairs that lose values -/

/-- The ends of the interval of integers that type `w` holds every one of: its range for an
integral type, `± 2 ^ (fractionBits + 1)` for a floating-point type. -/
def exactRange (w : PixelType) : Int × Int :=
  match w with
  | float32 => (-(2 ^ 24), 2 ^ 24)
  | float64 => (-(2 ^ 53), 2 ^ 53)
  | _ => (w.minInt, w.maxInt)

/-- Whether type `w` holds every value of type `t` other than NaN: the range of an integral `t`
lies in the exact range of `w`; single precision goes into either floating-point type, double
precision into `float64` only. -/
def holdsAllOf (w t : PixelType) : Bool :=
  match t with
  | float32 => w.hasNaN
  | float64 => decide (w = float64)
  | _ => decide (w.exactRange.1 ≤ t.minInt ∧ t.maxInt ≤ w.exactRange.2)

/-- The pairs of pixel types whose widest type misses values of one of them: `uint64` with a signed
integer type, whose widest type `int64` misses the values from `2 ^ 63` on; a 32- or 64-bit integer
type with `float32`, or a 64-bit one with `float64`, whose format rounds large integers. -/
def losesValues (a b : PixelType) : Bool :=
  let misses := fun p q : PixelType =>
    (p = uint64 ∧ q.isIntegral ∧ q.isSigned) ∨ (p = float32 ∧ q.isIntegral ∧ 32 ≤ q.bits) ∨
      (p = float64 ∧ q.isIntegral ∧ q.bits = 64)
  decide (misses a b ∨ misses b a)

theorem minInt_nonpos (ht : t.hasNaN = false) : t.minInt ≤ 0 := by
  cases t <;> simp_all [hasNaN] <;> decide

theorem maxInt_nonneg (ht : t.hasNaN = false) : 0 ≤ t.maxInt := by
  cases t <;> simp_all [hasNaN] <;> decide

theorem holdsAllOf_of_integral (ht : t.hasNaN = false) :
    w.holdsAllOf t = decide (w.exactRange.1 ≤ t.minInt ∧ t.maxInt ≤ w.exactRange.2) := by
  cases t <;> simp_all [hasNaN, holdsAllOf]

/-- Every integer of the exact range of a type is held by it. -/
theorem holdsExactly_of_mem_exactRange (h : w.exactRange.1 ≤ n ∧ n ≤ w.exactRange.2) :
    w.holdsExactly (.int n) = true := by
  cases hw : w.hasNaN
  · rw [holdsExactly_int_of_integral hw]
    cases w <;> simp_all [hasNaN, exactRange, holdsInt]
  · rcases eq_float32_or_float64 hw with rfl | rfl
    · simp only [exactRange] at h
      exact FloatFormat.holdsInt_of_natAbs_le (show n.natAbs ≤ 2 ^ (23 + 1) by omega)
    · simp only [exactRange] at h
      exact FloatFormat.holdsInt_of_natAbs_le (show n.natAbs ≤ 2 ^ (52 + 1) by omega)

/-- An integral type whose range leaves the exact range of `w` has an integer that `w` does not
hold: an end of its range, or the first integer past the exact range of a floating-point type. -/
theorem exists_not_holdsExactly (ht : t.hasNaN = false)
    (h : ¬(w.exactRange.1 ≤ t.minInt ∧ t.maxInt ≤ w.exactRange.2)) :
    ∃ n, t.holdsInt n = true ∧ w.holdsExactly (.int n) = false := by
  have hmin := minInt_nonpos ht
  have hmax := maxInt_nonneg ht
  cases hw : w.hasNaN
  · -- an end of the range of `t`
    have hrange : w.exactRange = (w.minInt, w.maxInt) := by
      cases w <;> simp_all [hasNaN, exactRange]
    rw [hrange] at h
    by_cases hlow : w.minInt ≤ t.minInt
    · refine ⟨t.maxInt, by simp [holdsInt]; omega, ?_⟩
      rw [holdsExactly_int_of_integral hw]
      simp [holdsInt]
      omega
    · refine ⟨t.minInt, by simp [holdsInt]; omega, ?_⟩
      rw [holdsExactly_int_of_integral hw]
      simp [holdsInt]
      omega
  · -- one past `± 2 ^ (fractionBits + 1)`, an odd integer of a larger magnitude
    rcases eq_float32_or_float64 hw with rfl | rfl <;> simp only [exactRange] at h
    · by_cases hlow : -(2 ^ 24 : Int) ≤ t.minInt
      · exact ⟨2 ^ 24 + 1, by simp [holdsInt]; omega, by decide⟩
      · exact ⟨-(2 ^ 24 + 1), by simp [holdsInt]; omega, by decide⟩
    · by_cases hlow : -(2 ^ 53 : Int) ≤ t.minInt
      · exact ⟨2 ^ 53 + 1, by simp [holdsInt]; omega, by decide⟩
      · exact ⟨-(2 ^ 53 + 1), by simp [holdsInt]; omega, by decide⟩

/-- Type `w` holds every value of type `t` other than NaN exactly when `holdsAllOf` says so. -/
theorem holdsAllOf_iff :
    w.holdsAllOf t = true ↔ ∀ x, t.holds x = true → x.isNaN = false → w.holdsExactly x = true := by
  cases ht : t.hasNaN
  · -- an integral type: its integers, inside the exact range of `w` or not
    rw [holdsAllOf_of_integral ht, decide_eq_true_eq]
    constructor
    · intro hr x hx _
      cases x with
      | int n =>
        simp only [holds, Bool.and_eq_true, holdsInt, decide_eq_true_eq] at hx
        exact holdsExactly_of_mem_exactRange ⟨by omega, by omega⟩
      | single y => simp [holds] at hx; simp_all [hasNaN]
      | double y => simp [holds] at hx; simp_all [hasNaN]
    · intro hall
      by_contra hr
      obtain ⟨n, hn, hw⟩ := exists_not_holdsExactly ht hr
      have := hall (.int n) (by simp [holds, isIntegral, ht, hn]) rfl
      rw [hw] at this
      cases this
  · -- a floating-point type: its values of one precision, whatever they are
    rcases eq_float32_or_float64 ht with rfl | rfl
    · constructor
      · intro hw x hx _
        cases x <;> simp_all [holds, holdsExactly, holdsAllOf, isIntegral, hasNaN]
      · intro hall
        exact hall (.single (BinaryFloat.zero false)) rfl (by decide)
    · constructor
      · intro hw x hx _
        cases x <;> simp_all [holds, holdsExactly, holdsAllOf, isIntegral, hasNaN]
      · intro hall
        exact hall (.double (BinaryFloat.zero false)) rfl (by decide)

/-- The widest type holds every value of both types exactly for the pairs that `losesValues` does
not list. -/
theorem holdsAllOf_widest (a b : PixelType) :
    ((a.widest b).holdsAllOf a && (a.widest b).holdsAllOf b) = !losesValues a b := by
  cases a <;> cases b <;> rfl

/-- A value of either of two pixel types converts into their widest type and back to itself
exactly when the widest type holds it, and a NaN comes back as NaN. Every value of both types comes
back exactly unless the pair is one that `losesValues` lists: `uint64` with a signed integer type,
a 32- or 64-bit integer type with `float32`, a 64-bit integer type with `float64`. -/
theorem widest_cast_roundTrip (a b : PixelType) :
    (∀ t, t = a ∨ t = b → ∀ x, t.holds x = true →
      (x.isNaN = false →
        (((a.widest b).cast? x).bind t.cast? = some x ↔ (a.widest b).holdsExactly x = true)) ∧
      (x.isNaN = true → ∃ y, ((a.widest b).cast? x).bind t.cast? = some y ∧ y.isNaN = true)) ∧
    ((∀ t, t = a ∨ t = b → ∀ x, t.holds x = true → x.isNaN = false →
        ((a.widest b).cast? x).bind t.cast? = some x) ↔ losesValues a b = false) := by
  refine ⟨fun t ht x hx => widest_cast_and_back ht hx, ?_⟩
  -- every value comes back exactly when the widest type holds all of both types
  have hall : (∀ t, t = a ∨ t = b → ∀ x, t.holds x = true → x.isNaN = false →
      ((a.widest b).cast? x).bind t.cast? = some x) ↔
      (a.widest b).holdsAllOf a = true ∧ (a.widest b).holdsAllOf b = true := by
    rw [holdsAllOf_iff, holdsAllOf_iff]
    constructor
    · intro h
      exact ⟨fun x hx hn => ((widest_cast_and_back (.inl rfl) hx).1 hn).mp (h a (.inl rfl) x hx hn),
        fun x hx hn => ((widest_cast_and_back (.inr rfl) hx).1 hn).mp (h b (.inr rfl) x hx hn)⟩
    · rintro ⟨ha, hb⟩ t ht x hx hn
      rcases ht with rfl | rfl
      · exact ((widest_cast_and_back (.inl rfl) hx).1 hn).mpr (ha x hx hn)
      · exact ((widest_cast_and_back (.inr rfl) hx).1 hn).mpr (hb x hx hn)
  rw [hall, ← Bool.and_eq_true, holdsAllOf_widest]
  simp

/-- Two pairs that lose values: the widest type of `uint64` and `int64` is `int64`, which refuses
`2 ^ 64 - 1`; that of `int32` and `float32` is `float32`, which rounds `2 ^ 24 + 1` to `2 ^ 24`. -/
theorem widest_loses_values :
    uint64.widest int64 = int64 ∧ uint64.holds (.int (2 ^ 64 - 1)) = true ∧
      int64.cast? (.int (2 ^ 64 - 1)) = none ∧
    int32.widest float32 = float32 ∧ int32.holds (.int (2 ^ 24 + 1)) = true ∧
      (float32.cast? (.int (2 ^ 24 + 1))).bind int32.cast? = some (.int (2 ^ 24)) :=
  ⟨rfl, rfl, rfl, rfl, rfl, rfl⟩

end PixelType

end Georaster
