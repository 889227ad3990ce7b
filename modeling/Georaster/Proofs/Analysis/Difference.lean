import Georaster.Proofs.Binary.Exact
import Georaster.Proofs.Raster.Storage
import Georaster.Analysis.Difference
/-!
# Counting the differences of two rasters

A comparison of two rasters of one size classifies every pair of cells at one index: two data
values are equal, or told apart by which of them is zero; a missing cell beside a data value is
told apart by whether the value is zero; two missing cells are not counted. `DiffCounts.kind`
states this rule for one pair, and the main results are

* `DiffCounts.get_foldl_count`: each of the eight counters of a fold over pairs counts the pairs
  of its kind, so a pair goes to exactly one counter, none for two missing cells;
* `Raster.Wf.diff_counts`: the comparison of two well-formed rasters refuses different sizes and
  otherwise counts every cell of the grid once, but the cells missing in both; data values of two
  integral rasters are equal when their doubles are, which for integers of magnitude at most
  `2 ^ 53` is when the integers are (`BinaryFloat.ofInt_eq_ofInt_iff`);
* `Raster.diff_counts_neighbours_equal`: beyond `2 ^ 53` two different integers may have one
  double, and are then counted as equal.
-/

namespace Georaster

namespace DiffCounts

/-- The eight counters of a comparison. -/
inductive Counter where
  | zeroToNonZero
  | nonZeroToZero
  | nodataToZero
  | nodataToNonZero
  | zeroToNodata
  | nonZeroToNodata
  | dataDifference
  | equal
  deriving DecidableEq, Repr

/-- The value of one counter. -/
def get (d : DiffCounts) : Counter → Nat
  | .zeroToNonZero => d.zeroToNonZero
  | .nonZeroToZero => d.nonZeroToZero
  | .nodataToZero => d.nodataToZero
  | .nodataToNonZero => d.nodataToNonZero
  | .zeroToNodata => d.zeroToNodata
  | .nonZeroToNodata => d.nonZeroToNodata
  | .dataDifference => d.dataDifference
  | .equal => d.equal

/-- The counter that a pair of cells goes to, none for two missing cells: two data values are
equal, or told apart by which of them is zero; a missing cell beside a data value is told apart by
whether the value is zero. -/
def kind (equalData : Pixel → Pixel → Bool) : Option Pixel × Option Pixel → Option Counter
  | (some x, some y) =>
    some (if equalData x y then .equal
      else if x.isZero then .zeroToNonZero
      else if y.isZero then .nonZeroToZero
      else .dataDifference)
  | (none, some y) => some (if y.isZero then .nodataToZero else .nodataToNonZero)
  | (some x, none) => some (if x.isZero then .zeroToNodata else .nonZeroToNodata)
  | (none, none) => none

variable (equalData : Pixel → Pixel → Bool)

@[simp]
theorem get_empty (c : Counter) : ({} : DiffCounts).get c = 0 := by
  cases c <;> rfl

/-- Counting a pair adds one to the counter of its kind and leaves the others. -/
theorem get_count (d : DiffCounts) (p : Option Pixel × Option Pixel) (c : Counter) :
    (d.count equalData p).get c = d.get c + if kind equalData p = some c then 1 else 0 := by
  rcases p with ⟨_ | x, _ | y⟩ <;> simp only [count, kind]
  · simp
  · by_cases hy : y.isZero <;> simp only [hy] <;> cases c <;> simp [get]
  · by_cases hx : x.isZero <;> simp only [hx] <;> cases c <;> simp [get]
  · by_cases he : equalData x y <;> by_cases hx : x.isZero <;> by_cases hy : y.isZero <;>
      simp only [he, hx, hy] <;> cases c <;> simp [get]

/-- Each counter of a fold over pairs counts the pairs of its kind. -/
theorem get_foldl_count (l : List (Option Pixel × Option Pixel)) (d : DiffCounts) (c : Counter) :
    (l.foldl (count equalData) d).get c =
      d.get c + l.countP fun p => kind equalData p == some c := by
  induction l generalizing d with
  | nil => simp
  | cons p l ih =>
    rw [List.foldl_cons, ih, get_count, List.countP_cons]
    by_cases hp : kind equalData p = some c
    · simp [hp]
      omega
    · simp [hp]

/-- A fold over pairs counts each pair once, but the pairs of two missing cells. -/
theorem foldl_count_counted (l : List (Option Pixel × Option Pixel)) (d : DiffCounts) :
    (l.foldl (count equalData) d).differentCells + (l.foldl (count equalData) d).equal =
      d.differentCells + d.equal + l.countP fun p => !(p.1.isNone && p.2.isNone) := by
  induction l generalizing d with
  | nil => simp
  | cons p l ih =>
    rw [List.foldl_cons, ih, count_counted, List.countP_cons]
    by_cases hp : (p.1.isNone && p.2.isNone) = true
    · simp [hp]
    · simp [hp]
      omega

end DiffCounts

namespace Raster

variable {a b : Raster}

/-- Whether two data values count as equal in a comparison of `a` with `b`: close within the
tolerance when either raster has a floating-point type, equal as doubles otherwise. -/
def diffEqual (a b : Raster) (tolerance : Binary64) (x y : Pixel) : Bool :=
  if a.type.hasNaN || b.type.hasNaN then closeWithin tolerance x.toDouble y.toDouble
  else x.toDouble.eq y.toDouble

theorem diff_of_size_eq (h : a.size = b.size) (tolerance : Binary64) :
    a.diff b tolerance =
      .ok ((a.toOptions.zip b.toOptions).foldl
        (DiffCounts.count (diffEqual a b tolerance)) {}) := by
  simp only [diff, checkSizesMatch, if_pos h]
  rfl

theorem diff_of_size_ne (h : a.size ≠ b.size) (tolerance : Binary64) :
    ∃ msg, a.diff b tolerance = .error (.runtime msg) := by
  constructor
  simp only [diff, checkSizesMatch, if_neg h]
  rfl

/-- Two integers of magnitude at most `2 ^ 53` have equal doubles exactly when they are equal. -/
theorem toDouble_int_eq_iff {m n : Int} (hm : m.natAbs ≤ 2 ^ 53) (hn : n.natAbs ≤ 2 ^ 53) :
    (Pixel.int m).toDouble.eq (Pixel.int n).toDouble = true ↔ m = n := by
  -- a magnitude of at most `2 ^ 53` has its leading bit at most at 53
  have hlog : ∀ {k : Int}, k.natAbs ≤ 2 ^ 53 → k.natAbs.log2 ≤ 53 := fun {k} hk => by
    by_cases hk0 : k.natAbs = 0
    · simp [hk0]
    · have := (Nat.log2_lt hk0).mpr (Nat.lt_of_le_of_lt hk (by decide : 2 ^ 53 < 2 ^ 54))
      omega
  have hb : 1 ≤ FloatFormat.double.bias := by decide
  have hT : FloatFormat.double.bias = 1023 ∧ FloatFormat.double.topExponent = 2047 := ⟨rfl, rfl⟩
  exact BinaryFloat.ofInt_eq_ofInt_iff (FloatFormat.holdsInt_of_natAbs_le hm)
    (FloatFormat.holdsInt_of_natAbs_le hn) hb (by have := hlog hm; omega)
    (by have := hlog hn; omega)

/-- Comparing two well-formed rasters refuses rasters of different sizes with a runtime error.
For rasters of one size it counts every cell of the grid in exactly one counter, but the cells
missing in both, each counter the cells of its kind; two data values of integral rasters count as
equal when their doubles are equal, which for integers of magnitude at most `2 ^ 53` is exactly
when they are equal. -/
theorem Wf.diff_counts (ha : a.Wf) (hb : b.Wf) (tolerance : Binary64) :
    (a.size ≠ b.size → ∃ msg, a.diff b tolerance = .error (.runtime msg)) ∧
    (a.size = b.size → ∃ d, a.diff b tolerance = .ok d ∧
      d.differentCells + d.equal +
          (a.toOptions.zip b.toOptions).countP (fun p => p.1.isNone && p.2.isNone) = a.len ∧
      (∀ c, d.get c = (a.toOptions.zip b.toOptions).countP
        fun p => DiffCounts.kind (diffEqual a b tolerance) p == some c) ∧
      (a.type.hasNaN = false → b.type.hasNaN = false →
        (∀ x y, diffEqual a b tolerance x y = x.toDouble.eq y.toDouble) ∧
        ∀ m n : Int, m.natAbs ≤ 2 ^ 53 → n.natAbs ≤ 2 ^ 53 →
          (DiffCounts.kind (diffEqual a b tolerance) (some (.int m), some (.int n)) = some .equal ↔
            m = n))) := by
  refine ⟨fun h => diff_of_size_ne h tolerance, fun hsize => ?_⟩
  -- the cells of both rasters pair up over the whole grid
  have hlen : (a.toOptions.zip b.toOptions).length = a.len := by
    rw [List.length_zip, ha.length_toOptions, hb.length_toOptions,
      show b.len = a.len from congrArg GridSize.cellCount hsize.symm, Nat.min_self]
  refine ⟨_, diff_of_size_eq hsize tolerance, ?_, fun c => ?_, fun hna hnb => ⟨fun x y => ?_, ?_⟩⟩
  · rw [DiffCounts.foldl_count_counted]
    have hempty : ({} : DiffCounts).differentCells + ({} : DiffCounts).equal = 0 := rfl
    have hsplit := List.length_eq_countP_add_countP (fun p : Option Pixel × Option Pixel =>
      p.1.isNone && p.2.isNone) (l := a.toOptions.zip b.toOptions)
    simp only [decide_not, Bool.decide_eq_true] at hsplit
    omega
  · rw [DiffCounts.get_foldl_count, DiffCounts.get_empty, Nat.zero_add]
  · simp [diffEqual, hna, hnb]
  · intro m n hm hn
    have heq : diffEqual a b tolerance (.int m) (.int n) =
        (Pixel.int m).toDouble.eq (Pixel.int n).toDouble := by
      simp [diffEqual, hna, hnb]
    -- the integers differ, and their kind is then another counter
    rw [← toDouble_int_eq_iff hm hn, ← heq]
    simp only [DiffCounts.kind, Option.some.injEq]
    split_ifs <;> simp_all

/-- The dense raster of one cell of 64-bit integers, holding `n`, without nodata value. -/
def singleInt64 (n : Int) : Raster :=
  dense ⟨.int64, Metadata.sized ⟨1, 1⟩ none, #[.int n], PixelType.int64.policy none⟩

theorem diff_counts_int64_neighbours :
    (singleInt64 (2 ^ 53)).Wf ∧ (singleInt64 (2 ^ 53 + 1)).Wf ∧
    ((singleInt64 (2 ^ 53)).size ≠ (singleInt64 (2 ^ 53 + 1)).size →
      ∃ msg, (singleInt64 (2 ^ 53)).diff (singleInt64 (2 ^ 53 + 1)) Metadata.zero =
        .error (.runtime msg)) ∧
    ((singleInt64 (2 ^ 53)).size = (singleInt64 (2 ^ 53 + 1)).size →
      ∃ d, (singleInt64 (2 ^ 53)).diff (singleInt64 (2 ^ 53 + 1)) Metadata.zero = .ok d ∧
      d.differentCells + d.equal +
          (((singleInt64 (2 ^ 53)).toOptions.zip (singleInt64 (2 ^ 53 + 1)).toOptions).countP
            fun p => p.1.isNone && p.2.isNone) = (singleInt64 (2 ^ 53)).len ∧
      (∀ c, d.get c =
        ((singleInt64 (2 ^ 53)).toOptions.zip (singleInt64 (2 ^ 53 + 1)).toOptions).countP
          fun p => DiffCounts.kind
            (diffEqual (singleInt64 (2 ^ 53)) (singleInt64 (2 ^ 53 + 1)) Metadata.zero) p ==
              some c) ∧
      ((singleInt64 (2 ^ 53)).type.hasNaN = false → (singleInt64 (2 ^ 53 + 1)).type.hasNaN = false →
        (∀ x y, diffEqual (singleInt64 (2 ^ 53)) (singleInt64 (2 ^ 53 + 1)) Metadata.zero x y =
          x.toDouble.eq y.toDouble) ∧
        ∀ m n : Int, m.natAbs ≤ 2 ^ 53 → n.natAbs ≤ 2 ^ 53 →
          (DiffCounts.kind (diffEqual (singleInt64 (2 ^ 53)) (singleInt64 (2 ^ 53 + 1)) Metadata.zero)
            (some (.int m), some (.int n)) = some .equal ↔ m = n))) :=
  have ha : (singleInt64 (2 ^ 53)).Wf :=
    show DenseRaster.Wf _ from ⟨⟨by decide, by decide, by decide⟩, rfl, rfl⟩
  have hb : (singleInt64 (2 ^ 53 + 1)).Wf :=
    show DenseRaster.Wf _ from ⟨⟨by decide, by decide, by decide⟩, rfl, rfl⟩
  ⟨ha, hb, Wf.diff_counts ha hb Metadata.zero⟩

/-- Two different integers beyond `2 ^ 53` with one double: comparing the integral rasters of
`2 ^ 53` and `2 ^ 53 + 1` counts their cell as equal. -/
theorem diff_counts_neighbours_equal :
    ∃ d, (singleInt64 (2 ^ 53)).diff (singleInt64 (2 ^ 53 + 1)) Metadata.zero = .ok d ∧
      d.equal = 1 ∧ d.differentCells = 0 :=
  ⟨_, rfl, rfl, rfl⟩

end Raster

end Georaster
