import Georaster.Proofs.Raster.Fill
import Georaster.Proofs.Algebra.Failure
/-!
# What the constructors build

Each storage has the same four constructors: from a list of values (`ofList`), filled with one
value (`filledWith`), from a list of optional values (`ofOptions`), and with every cell missing
(`filledWithNodata`). They fail only for the reasons of their checks, each with its kind of error
(`FailsOnlyFor`): an argument that does not fit the dimensions (`InvalidArgument`), a nodata value
that the pixel type refuses or a sparse raster without one (`InvalidConfiguration`), and a missing
cell in a dense raster that cannot store one (`Runtime`, or `InvalidConfiguration` when every cell
is to be missing).

When they succeed, the storages build the same cells, with two differences of storage:

* a value given to `ofList` or `filledWith` reads back when it does not mark nodata, and is
  missing when it does, except in a masked raster without nodata value, which keeps its mask empty
  (`HoldsValues`);
* an optional value given to `ofOptions` reads back as given in a masked or sparse raster, while a
  dense raster stores it in-band and reads it back through its nodata policy (`Backend.readBack`).

`Backend.constructs` gathers the four constructors of every storage, for metadata whose
dimensions are coordinates.
-/

namespace Georaster

/-! ### Failing only for the reasons of the checks -/

section ErrorKind

variable {α β : Type} {x : Except RasterError α}

@[simp] theorem errorKind_map (f : α → β) : errorKind (x.map f) = errorKind x := by
  cases x <;> rfl

theorem errorKind_bind_of_error {e : RasterError} (hx : x = .error e)
    (f : α → Except RasterError β) : errorKind (x >>= f) = some e.kind := by
  rw [hx]
  rfl

theorem errorKind_bind_of_ok {a : α} (hx : x = .ok a) (f : α → Except RasterError β) :
    errorKind (x >>= f) = errorKind (f a) := by
  rw [hx]
  rfl

end ErrorKind

/-- A construction that fails exactly when one of its checks fails: an argument
(`InvalidArgument`), the configuration (`InvalidConfiguration`) or a cell that cannot be stored
(`Runtime`); the error is then of the kind of a check that fails. -/
structure FailsOnlyFor {α : Type} (x : Except RasterError α)
    (badArgument badConfig badCell : Prop) : Prop where
  ok_iff : errorKind x = none ↔ ¬badArgument ∧ ¬badConfig ∧ ¬badCell
  kind_of_error : ∀ k, errorKind x = some k →
    (badArgument ∧ k = "InvalidArgument") ∨ (badConfig ∧ k = "InvalidConfiguration") ∨
      (badCell ∧ k = "Runtime")

namespace FailsOnlyFor

variable {α β : Type} {x : Except RasterError α} {badArgument badConfig badCell : Prop}

/-- A construction that fails, with the kind of error of a check that fails. -/
theorem of_error {k : String} (hx : errorKind x = some k)
    (hk : (badArgument ∧ k = "InvalidArgument") ∨ (badConfig ∧ k = "InvalidConfiguration") ∨
      (badCell ∧ k = "Runtime")) :
    FailsOnlyFor x badArgument badConfig badCell := by
  refine ⟨?_, fun k' hk' => ?_⟩
  · -- it fails, and one of the checks does
    simp only [hx, reduceCtorEq, false_iff]
    rintro ⟨ha, hc, hr⟩
    rcases hk with ⟨h, -⟩ | ⟨h, -⟩ | ⟨h, -⟩
    exacts [ha h, hc h, hr h]
  · obtain rfl : k = k' := Option.some.inj (hx ▸ hk')
    exact hk

theorem of_argument (ha : badArgument) (hx : errorKind x = some "InvalidArgument") :
    FailsOnlyFor x badArgument badConfig badCell :=
  of_error hx (.inl ⟨ha, rfl⟩)

theorem of_config (hc : badConfig) (hx : errorKind x = some "InvalidConfiguration") :
    FailsOnlyFor x badArgument badConfig badCell :=
  of_error hx (.inr (.inl ⟨hc, rfl⟩))

theorem of_cell (hr : badCell) (hx : errorKind x = some "Runtime") :
    FailsOnlyFor x badArgument badConfig badCell :=
  of_error hx (.inr (.inr ⟨hr, rfl⟩))

theorem of_ok (ha : ¬badArgument) (hc : ¬badConfig) (hr : ¬badCell) (hx : errorKind x = none) :
    FailsOnlyFor x badArgument badConfig badCell :=
  ⟨by simp [hx, ha, hc, hr], fun k hk => by rw [hx] at hk; cases hk⟩

/-- Mapping the result keeps the reasons of failure. -/
theorem map (h : FailsOnlyFor x badArgument badConfig badCell) (f : α → β) :
    FailsOnlyFor (x.map f) badArgument badConfig badCell :=
  ⟨by rw [errorKind_map]; exact h.ok_iff,
    fun k hk => h.kind_of_error k (by rwa [errorKind_map] at hk)⟩

/-- The reasons of failure can be restated by equivalent ones. -/
theorem congr {badArgument' badConfig' badCell' : Prop}
    (h : FailsOnlyFor x badArgument badConfig badCell) (ha : badArgument ↔ badArgument')
    (hc : badConfig ↔ badConfig') (hr : badCell ↔ badCell') :
    FailsOnlyFor x badArgument' badConfig' badCell' := by
  rw [← propext ha, ← propext hc, ← propext hr]
  exact h

end FailsOnlyFor

/-! ### The checks of the constructors -/

/-- The dimensions refuse `n` values: a count is negative, or the grid has another number of
cells. -/
def Metadata.refusesSize (m : Metadata) (n : Nat) : Prop :=
  m.rows < 0 ∨ m.cols < 0 ∨ m.cellCount ≠ n

theorem Metadata.refusesSize_cellCount (m : Metadata) :
    m.refusesSize m.cellCount ↔ m.rows < 0 ∨ m.cols < 0 := by
  simp [Metadata.refusesSize]

/-- A raster of storage `b` and type `t` cannot use the nodata value `n`: the type refuses it, or
the raster is sparse and there is none. -/
def Backend.refusesNodata (b : Backend) (t : PixelType) (n : Option Binary64) : Prop :=
  t.refusesNodata n ∨ (b = .sparse ∧ n = none)

namespace FailsOnlyFor

variable {α : Type} {badArgument badConfig badCell : Prop}

/-- A first step that succeeds leaves the reasons of failure to what follows. -/
theorem of_bind_ok {β : Type} {x : Except RasterError β} {a : β}
    {f : β → Except RasterError α} (hx : x = .ok a)
    (h : FailsOnlyFor (f a) badArgument badConfig badCell) :
    FailsOnlyFor (x >>= f) badArgument badConfig badCell :=
  ⟨by rw [errorKind_bind_of_ok hx]; exact h.ok_iff,
    fun k hk => h.kind_of_error k (by rwa [errorKind_bind_of_ok hx] at hk)⟩

/-- Checking the nodata value first: a refused one is a configuration error. -/
theorem validateNodata_bind {t : PixelType} {n : Option Binary64}
    {f : Unit → Except RasterError α} (hc : t.refusesNodata n → badConfig)
    (h : ¬t.refusesNodata n → FailsOnlyFor (f ()) badArgument badConfig badCell) :
    FailsOnlyFor (t.validateNodata n >>= f) badArgument badConfig badCell := by
  by_cases hr : t.refusesNodata n
  · cases hv : t.validateNodata n with
    | error e =>
      exact of_config (hc hr) (by
        rw [errorKind_bind_of_error rfl, PixelType.validateNodata_eq_error hv])
    | ok u => exact absurd (PixelType.validateNodata_eq_ok_iff.mp hv) (not_not.mpr hr)
  · exact of_bind_ok (PixelType.validateNodata_eq_ok_iff.mpr hr) (h hr)

/-- Checking the size: refused dimensions are an invalid argument. -/
theorem checkDataSize_bind {m : Metadata} {n : Nat} {f : Unit → Except RasterError α}
    (ha : m.refusesSize n → badArgument)
    (h : ¬m.refusesSize n → FailsOnlyFor (f ()) badArgument badConfig badCell) :
    FailsOnlyFor (m.checkDataSize n >>= f) badArgument badConfig badCell := by
  by_cases hs : m.refusesSize n
  · have hs' : m.rows < 0 ∨ m.cols < 0 ∨ m.cellCount ≠ n := hs
    have hc : m.checkDataSize n =
        .error (.invalidArgument
          s!"Raster data size does not match provided dimensions {n} vs {m.rows}x{m.cols}") := by
      unfold Metadata.checkDataSize
      rw [if_pos hs']
    exact of_argument (ha hs) (by rw [errorKind_bind_of_error hc]; rfl)
  · have hs' : ¬(m.rows < 0 ∨ m.cols < 0 ∨ m.cellCount ≠ n) := hs
    have hc : m.checkDataSize n = .ok () := by
      unfold Metadata.checkDataSize
      rw [if_neg hs']
    exact of_bind_ok hc (h hs)

/-- Taking the nodata value of a sparse raster: a refused one, or none, is a configuration
error. -/
theorem nodataOf_bind {t : PixelType} {m : Metadata} {f : Pixel → Except RasterError α}
    (hc : Backend.sparse.refusesNodata t m.nodata → badConfig)
    (h : ∀ n, SparseRaster.nodataOf t m = .ok n →
      FailsOnlyFor (f n) badArgument badConfig badCell) :
    FailsOnlyFor (SparseRaster.nodataOf t m >>= f) badArgument badConfig badCell := by
  cases hn : SparseRaster.nodataOf t m with
  | ok n => exact of_bind_ok rfl (h n hn)
  | error e =>
    refine of_config (hc ?_) (by
      rw [errorKind_bind_of_error rfl, SparseRaster.nodataOf_eq_error_kind hn])
    rcases SparseRaster.nodataOf_eq_error.mp hn with hv | ⟨hv, hnone, -⟩
    · -- the type refuses the nodata value
      refine .inl (Classical.byContradiction fun hacc => ?_)
      rw [PixelType.validateNodata_eq_ok_iff.mpr hacc] at hv
      cases hv
    · exact .inr ⟨rfl, (PixelType.nodataValue_eq_none_iff hv).mp hnone⟩

end FailsOnlyFor

/-- A sparse raster that got its nodata value can use it. -/
theorem SparseRaster.not_refusesNodata_of_nodataOf {t : PixelType} {m : Metadata} {n : Pixel}
    (hn : SparseRaster.nodataOf t m = .ok n) : ¬Backend.sparse.refusesNodata t m.nodata := by
  obtain ⟨hv, hsome⟩ := SparseRaster.nodataOf_eq_ok.mp hn
  rintro (hr | ⟨-, hnone⟩)
  · exact PixelType.validateNodata_eq_ok_iff.mp hv hr
  · rw [(PixelType.nodataValue_eq_none_iff hv).mpr hnone] at hsome
    cases hsome

/-! ### Failures of the constructors, storage by storage -/

namespace DenseRaster

variable {t : PixelType} {m : Metadata}

theorem failsOnlyFor_ofData (data : Array Pixel) :
    FailsOnlyFor (ofData t m data) (m.refusesSize data.size) (t.refusesNodata m.nodata) False :=
  .validateNodata_bind id fun hr => .checkDataSize_bind id fun hs => .of_ok hs hr id rfl

/-- Every cell missing: a raster of zeros, then its missing value, which an integral type
without nodata value does not have. -/
theorem failsOnlyFor_filledWithNodata :
    FailsOnlyFor (filledWithNodata t m) (m.rows < 0 ∨ m.cols < 0)
      (t.refusesNodata m.nodata ∨ (t.hasNaN = false ∧ m.nodata = none)) False := by
  unfold filledWithNodata new ofData
  simp only [bind_assoc, pure_bind, Array.size_replicate]
  refine .validateNodata_bind .inl fun hr => ?_
  refine .checkDataSize_bind (m.refusesSize_cellCount.mp) fun hs => ?_
  have hv := PixelType.validateNodata_eq_ok_iff.mpr hr
  have hs' : ¬(m.rows < 0 ∨ m.cols < 0) := mt m.refusesSize_cellCount.mpr hs
  unfold missingValue policy
  cases hmiss : (t.policy m.nodata).missingValue with
  | some n =>
    have hcan : ¬(t.hasNaN = false ∧ m.nodata = none) := fun hno => by
      rw [(PixelType.missingValue_eq_none_iff hv).mpr hno] at hmiss
      cases hmiss
    exact .of_ok hs' (not_or.mpr ⟨hr, hcan⟩) id rfl
  | none => exact .of_config (.inr ((PixelType.missingValue_eq_none_iff hv).mp hmiss)) rfl

end DenseRaster

namespace MaskedRaster

variable {t : PixelType} {m : Metadata}

/-- Without a mask, the checks are those of the nodata value and the size. -/
theorem failsOnlyFor_ofData (data : Array Pixel) :
    FailsOnlyFor (ofData t m data #[]) (m.refusesSize data.size) (t.refusesNodata m.nodata)
      False :=
  .validateNodata_bind id fun hr => .checkDataSize_bind id fun hs => .of_ok hs hr id rfl

end MaskedRaster

namespace SparseRaster

variable {t : PixelType} {m : Metadata}

theorem failsOnlyFor_empty :
    FailsOnlyFor (empty t m) (m.rows < 0 ∨ m.cols < 0) (Backend.sparse.refusesNodata t m.nodata)
      False :=
  .nodataOf_bind id fun _ hn => .checkDataSize_bind m.refusesSize_cellCount.mp fun hs =>
    .of_ok (mt m.refusesSize_cellCount.mpr hs) (not_refusesNodata_of_nodataOf hn) id rfl

/-- The values are counted after the nodata value is taken; the entries kept then always make
a raster. -/
theorem failsOnlyFor_ofList (d : List Pixel) :
    FailsOnlyFor (ofList t m d) (m.refusesSize d.length) (Backend.sparse.refusesNodata t m.nodata)
      False := by
  unfold ofList
  refine .nodataOf_bind id fun _ hn => .checkDataSize_bind id fun hs => ?_
  have hs' : 0 ≤ m.rows ∧ 0 ≤ m.cols := by
    simp only [Metadata.refusesSize, not_or] at hs
    omega
  refine .of_ok hs (not_refusesNodata_of_nodataOf hn) id ?_
  cases he : ofSortedEntries t m _ with
  | ok r => rfl
  | error e =>
    rw [ofSortedEntries_eq_error hs'.1 hs'.2, hn] at he
    cases he

end SparseRaster

namespace Backend

variable {b : Backend} {t : PixelType} {m : Metadata} {n : Option Binary64}

theorem refusesNodata_of_ne_sparse (hb : b ≠ .sparse) :
    b.refusesNodata t n ↔ t.refusesNodata n := by
  simp [refusesNodata, hb]

/-- Once the type accepts the nodata value, a sparse raster refuses it only when there is none,
which is when the type has no nodata value. -/
theorem refusesNodata_iff_nodataValue :
    b.refusesNodata t n ↔ t.refusesNodata n ∨ (b = .sparse ∧ t.nodataValue n = none) := by
  by_cases hr : t.refusesNodata n
  · simp [refusesNodata, hr]
  · simp [refusesNodata, hr, PixelType.nodataValue_eq_none_iff
      (PixelType.validateNodata_eq_ok_iff.mpr hr)]

theorem failsOnlyFor_ofList (d : List Pixel) :
    FailsOnlyFor (b.ofList t m d) (m.refusesSize d.length) (b.refusesNodata t m.nodata) False := by
  cases b with
  | dense =>
    exact (((DenseRaster.failsOnlyFor_ofData _).map _).map _).congr Iff.rfl
      (refusesNodata_of_ne_sparse (by decide)).symm Iff.rfl
  | masked =>
    exact (((MaskedRaster.failsOnlyFor_ofData _).map _).map _).congr Iff.rfl
      (refusesNodata_of_ne_sparse (by decide)).symm Iff.rfl
  | sparse => exact (SparseRaster.failsOnlyFor_ofList d).map _

theorem failsOnlyFor_filledWith (v : Pixel) :
    FailsOnlyFor (b.filledWith t m v) (m.rows < 0 ∨ m.cols < 0) (b.refusesNodata t m.nodata)
      False := by
  have hsize :
      m.refusesSize (Array.replicate m.cellCount v).size ↔ m.rows < 0 ∨ m.cols < 0 := by
    rw [Array.size_replicate]
    exact m.refusesSize_cellCount
  cases b with
  | dense =>
    exact (((DenseRaster.failsOnlyFor_ofData _).map _).map _).congr hsize
      (refusesNodata_of_ne_sparse (by decide)).symm Iff.rfl
  | masked =>
    exact (((MaskedRaster.failsOnlyFor_ofData _).map _).map _).congr
      (by rw [Array.size_replicate]; exact m.refusesSize_cellCount)
      (refusesNodata_of_ne_sparse (by decide)).symm Iff.rfl
  | sparse => exact (SparseRaster.failsOnlyFor_empty.map _).map _

theorem failsOnlyFor_filledWithNodata :
    FailsOnlyFor (b.filledWithNodata t m) (m.rows < 0 ∨ m.cols < 0)
      (b.refusesNodata t m.nodata ∨ (b = .dense ∧ t.hasNaN = false ∧ m.nodata = none))
      False := by
  cases b with
  | dense =>
    exact (DenseRaster.failsOnlyFor_filledWithNodata.map _).congr Iff.rfl
      (by simp [refusesNodata]) Iff.rfl
  | masked =>
    exact (((MaskedRaster.failsOnlyFor_ofData _).map _).map _).congr
      (by rw [Array.size_replicate]; exact m.refusesSize_cellCount)
      (by simp [refusesNodata]) Iff.rfl
  | sparse => exact (SparseRaster.failsOnlyFor_empty.map _).congr Iff.rfl (by simp) Iff.rfl

/-- Building from cells, in the order of its checks (`ofCells_cases`). -/
theorem failsOnlyFor_ofCells (h0 : 0 ≤ m.rows) (h1 : 0 ≤ m.cols) (c : Nat → Option Pixel) :
    FailsOnlyFor (b.ofCells t m c) False
      (t.refusesNodata m.nodata ∨ (b = .sparse ∧ t.nodataValue m.nodata = none))
      (b = .dense ∧ t.hasNaN = false ∧ m.nodata = none ∧ ∃ i < m.cellCount, c i = none) :=
    by
  rcases ofCells_cases (b := b) (t := t) (c := c) h0 h1 with
    ⟨href, e, he, hk⟩ | ⟨-, hs, hn, he⟩ | ⟨-, -, hd, hnan, hn, hcell, he⟩ |
      ⟨hacc, hns, hnd, r, hr⟩
  · exact .of_config (.inl href) (by rw [he, errorKind_error, hk])
  · exact .of_config (.inr ⟨hs, hn⟩) (by rw [he]; rfl)
  · exact .of_cell ⟨hd, hnan, hn, hcell⟩ (by rw [he]; rfl)
  · exact .of_ok id (not_or.mpr ⟨hacc, hns⟩) hnd (by rw [hr]; rfl)

theorem exists_getD_eq_none_iff (xs : List (Option Pixel)) :
    (∃ i < xs.length, xs.getD i none = none) ↔ none ∈ xs := by
  rw [List.mem_iff_getElem]
  constructor
  · rintro ⟨i, hi, h⟩
    rw [List.getD_eq_getElem?_getD, List.getElem?_eq_getElem hi, Option.getD_some] at h
    exact ⟨i, hi, h⟩
  · rintro ⟨i, hi, h⟩
    refine ⟨i, hi, ?_⟩
    rw [List.getD_eq_getElem?_getD, List.getElem?_eq_getElem hi, Option.getD_some, h]

/-- From optional values: the number of values is checked first, then the cells are built. -/
theorem failsOnlyFor_ofOptions (xs : List (Option Pixel)) :
    FailsOnlyFor (b.ofOptions t m xs) (m.refusesSize xs.length) (b.refusesNodata t m.nodata)
      (b = .dense ∧ t.hasNaN = false ∧ m.nodata = none ∧ none ∈ xs) := by
  unfold ofOptions
  refine .checkDataSize_bind id fun hs => ?_
  have hdims : 0 ≤ m.rows ∧ 0 ≤ m.cols ∧ m.cellCount = xs.length := by
    simp only [Metadata.refusesSize, not_or, not_not] at hs
    exact ⟨by omega, by omega, hs.2.2⟩
  have hcell : (∃ i < m.cellCount, xs.toArray.getD i none = none) ↔ none ∈ xs := by
    simp only [getD_toArray, hdims.2.2]
    exact exists_getD_eq_none_iff xs
  exact (failsOnlyFor_ofCells hdims.1 hdims.2.1 _).congr (iff_of_false id hs)
    refusesNodata_iff_nodataValue.symm (and_congr_right' (and_congr_right' (and_congr_right'
      hcell)))

end Backend

/-! ### The cells of the constructors, storage by storage -/

theorem BinaryFloat.place_eq_none_of_isNaN {f : FloatFormat} {x : BinaryFloat f}
    (h : x.isNaN = true) : x.place = none := by
  unfold BinaryFloat.isNaN at h
  unfold BinaryFloat.place
  cases hc : x.classify <;> simp_all

/-- NaN equals nothing. -/
theorem Pixel.eq_eq_false_of_isNaN {a : Pixel} (h : a.isNaN = true) (b : Pixel) :
    a.eq b = false := by
  cases a <;> cases b <;>
    simp_all [Pixel.eq, Pixel.isNaN, BinaryFloat.eq, BinaryFloat.compare?,
      BinaryFloat.place_eq_none_of_isNaN]

namespace DenseRaster

theorem type_initNodataValues (d : DenseRaster) : d.initNodataValues.type = d.type := by
  unfold initNodataValues
  split
  · rfl
  · split
    · split <;> rfl
    · rfl

theorem metadata_initNodataValues (d : DenseRaster) :
    d.initNodataValues.metadata = d.metadata := by
  unfold initNodataValues
  split
  · rfl
  · split
    · split <;> rfl
    · rfl

theorem marksNodata_initNodataValues (d : DenseRaster) :
    (Raster.dense d.initNodataValues).marksNodata = (Raster.dense d).marksNodata :=
  Raster.marksNodata_congr (type_initNodataValues d) (by
    simp only [Raster.nodataValue, nodataValue, type_initNodataValues, metadata_initNodataValues])

/-- A floating-point buffer read through the policy of its type marks missing cells with NaN. -/
theorem policy_of_hasNaN {d : DenseRaster} (hp : d.policy = d.type.policy d.metadata.nodata)
    (hN : d.type.hasNaN = true) : ∃ nan, nan.isNaN = true ∧ d.policy = .nan nan := by
  obtain ⟨nan, hnan⟩ := Option.isSome_iff_exists.mp ((PixelType.isSome_nan? _).trans hN)
  exact ⟨nan, PixelType.isNaN_of_nan? hnan, by rw [hp]; unfold PixelType.policy; rw [hnan]⟩

/-- After the values that mark nodata are made NaN, a buffer reads exactly them as missing; an
integral buffer reads them so already. -/
theorem toOptions_initNodataValues (d : DenseRaster)
    (hp : d.policy = d.type.policy d.metadata.nodata) :
    d.initNodataValues.toOptions =
      d.data.toList.map fun v => if (Raster.dense d).marksNodata v then none else some v := by
  unfold initNodataValues
  cases hN : d.type.hasNaN with
  | false =>
    -- an integral buffer reads the values that mark nodata as missing
    simp only [Bool.not_false, if_true]
    rw [toOptions]
    refine List.map_congr_left fun v _ => ?_
    rw [NodataPolicy.read, isMissing_policy hp, hN]
    rfl
  | true =>
    -- a floating-point buffer reads NaN, and only NaN, as missing
    obtain ⟨nan, hnan, hpol⟩ := policy_of_hasNaN hp hN
    have hread : ∀ v, (NodataPolicy.nan nan).read v = if v.isNaN then none else some v :=
      fun _ => rfl
    have hmarks : ∀ v,
        (Raster.dense d).marksNodata v = (v.isNaN || d.nodataValue.any (·.eq v)) :=
      fun v => by simp [Raster.marksNodata, Raster.type, Raster.nodataValue, hN]
    simp only [Bool.not_true, Bool.false_eq_true, if_false, hpol, NodataPolicy.missingValue]
    cases hs : d.nodataValue with
    | none =>
      refine List.map_congr_left fun v _ => ?_
      simp [hpol, hread, hmarks, hs]
    | some s =>
      by_cases hsn : s.isNaN
      · -- the nodata value is NaN itself, which equals nothing
        simp only [hsn, if_true]
        refine List.map_congr_left fun v _ => ?_
        simp [hpol, hread, hmarks, hs, Pixel.eq_eq_false_of_isNaN hsn]
      · -- the cells equal to the nodata value become NaN
        simp only [hsn, Bool.false_eq_true, if_false, toOptions, Array.toList_map, List.map_map]
        refine List.map_congr_left fun v _ => ?_
        by_cases hv : v.eq s
        · simp [hv, hread, hnan, hmarks, hs, Pixel.eq_comm s v]
        · simp [hv, hread, hmarks, hs, Pixel.eq_comm s v]

end DenseRaster

namespace MaskedRaster

variable {k : MaskedRaster}

/-- The cells of a masked raster, read off its buffer by a rule of the index's value. -/
theorem toOptions_eq_map {g : Pixel → Option Pixel}
    (h : ∀ i (hi : i < k.data.size), k.cellAt i = g k.data[i]) :
    k.toOptions = k.data.toList.map g := by
  apply List.ext_getElem (by simp)
  intro i hi _
  rw [length_toOptions] at hi
  simp only [toOptions, List.getElem_map, List.getElem_range, Array.getElem_toList]
  exact h i hi

/-- Without a mask, every cell reads its stored value. -/
theorem toOptions_of_mask_eq_empty (hm : k.mask = #[]) : k.toOptions = k.data.toList.map some :=
  toOptions_eq_map fun i hi => by simp [cellAt, hm, hi]

theorem type_initNodataValues (k : MaskedRaster) : k.initNodataValues.type = k.type := by
  unfold initNodataValues
  split <;> rfl

theorem metadata_initNodataValues (k : MaskedRaster) :
    k.initNodataValues.metadata = k.metadata := by
  unfold initNodataValues
  split <;> rfl

theorem marksNodata_initNodataValues (k : MaskedRaster) :
    (Raster.masked k.initNodataValues).marksNodata = (Raster.masked k).marksNodata :=
  Raster.marksNodata_congr (type_initNodataValues k) (by
    simp only [Raster.nodataValue, nodataValue, type_initNodataValues, metadata_initNodataValues])

theorem type_fill (k : MaskedRaster) (v : Pixel) : (k.fill v).type = k.type := by
  unfold fill
  split_ifs <;> rfl

theorem metadata_fill (k : MaskedRaster) (v : Pixel) : (k.fill v).metadata = k.metadata := by
  unfold fill
  split_ifs <;> rfl

theorem marksNodata_fill (k : MaskedRaster) (v : Pixel) :
    (Raster.masked (k.fill v)).marksNodata = (Raster.masked k).marksNodata :=
  Raster.marksNodata_congr (type_fill k v) (by
    simp only [Raster.nodataValue, nodataValue, type_fill, metadata_fill])

theorem initNodataValues_of_none (hn : k.metadata.nodata = none) : k.initNodataValues = k := by
  simp [initNodataValues, hn]

theorem data_initNodataValues (k : MaskedRaster) : k.initNodataValues.data = k.data := by
  unfold initNodataValues
  split <;> rfl

/-- With a nodata value, the mask flags exactly the values that mark nodata, and is dropped when
none does. -/
theorem toOptions_initNodataValues (hn : k.metadata.nodata ≠ none) :
    k.initNodataValues.toOptions =
      k.data.toList.map fun v => if (Raster.masked k).marksNodata v then none else some v := by
  have hsome : k.metadata.nodata.isNone = false := by
    cases h : k.metadata.nodata
    · exact absurd h hn
    · rfl
  rw [← data_initNodataValues k]
  refine toOptions_eq_map fun i hi => ?_
  simp only [initNodataValues, hsome, Bool.false_eq_true, if_false, cellAt] at hi ⊢
  split
  · -- the mask of the values that mark nodata
    simp [Array.getD_eq_getD_getElem?, hi, isNodataValue_eq]
  · -- no value marks nodata, so none is flagged
    rename_i hany
    have hv : k.isNodataValue k.data[i] = false := by
      refine Bool.eq_false_iff.mpr fun hv => hany (Array.any_eq_true'.mpr ⟨true, ?_, rfl⟩)
      exact Array.mem_map.mpr ⟨k.data[i], Array.getElem_mem hi, hv⟩
    rw [isNodataValue_eq] at hv
    simp [Array.getD_eq_getD_getElem?, hi, hv]

/-- Every cell flagged: every cell is missing. -/
theorem toOptions_fillWithNodata (k : MaskedRaster) :
    k.fillWithNodata.toOptions = List.replicate k.data.size none := by
  rw [List.eq_replicate_iff]
  refine ⟨by simp [fillWithNodata], fun c hc => ?_⟩
  obtain ⟨i, hi, rfl⟩ := List.mem_map.mp hc
  have hi' : i < k.data.size := List.mem_range.mp hi
  simp [fillWithNodata, cellAt, Array.getD_eq_getD_getElem?, hi']

end MaskedRaster

namespace SparseRaster

/-- In rows grouped from entries, the cell at an index is the first entry of that index: an index
is its row and its column. -/
theorem cellOf_groupRows {rows cols i : Nat} (es : List SparseEntry) (hi : i < rows * cols) :
    cellOf (groupRows rows cols es) cols i = lookup es i := by
  have hpos : 0 < cols := Nat.pos_of_ne_zero fun h0 => by simp [h0] at hi
  have hrow : i / cols < rows := (Nat.div_lt_iff_lt_mul hpos).mpr hi
  have hkey : ∀ e : SparseEntry, (e.index / cols = i / cols ∧ e.index % cols = i % cols) ↔
      e.index = i := fun e =>
    ⟨fun ⟨hq, hr⟩ => by rw [← Nat.div_add_mod e.index cols, hq, hr, Nat.div_add_mod],
      fun he => by rw [he]; exact ⟨rfl, rfl⟩⟩
  simp only [cellOf, groupRows, lookup, valueIn, List.getD_eq_getElem?_getD, List.getElem?_map,
    List.getElem?_range hrow, Option.map_some, Option.getD_some, List.find?_map, List.find?_filter,
    Option.map_map]
  congr 1
  congr 1
  funext e
  rw [Bool.eq_iff_iff]
  simp only [Function.comp_def, decide_eq_true_eq, beq_iff_eq, ← hkey e]
  norm_cast

/-- Of the values kept with their indices, the entry at an index is the value there, if kept. -/
theorem lookup_filter_zipIdx (keep : Pixel → Bool) :
    ∀ (d : List Pixel) (k i : Nat),
      lookup (((d.zipIdx k).filter fun p => keep p.1).map fun p => SparseEntry.mk p.2 p.1) i =
        if k ≤ i then d[i - k]?.filter keep else none
  | [], k, i => by simp [lookup]
  | a :: d, k, i => by
    have ih := lookup_filter_zipIdx keep d (k + 1) i
    rw [List.zipIdx_cons, List.filter_cons]
    by_cases hik : i = k
    · -- the head is the entry of this index, if it is kept
      subst hik
      by_cases ha : keep a
      · simp [ha, lookup, Option.filter]
      · simp only [ha, Bool.false_eq_true, if_false, ih, Nat.le_refl, if_true, Nat.sub_self,
          List.getElem?_cons_zero, Option.filter, if_neg (Nat.not_succ_le_self i)]
    · -- the head has another index
      have hrest : lookup ((if keep (a, k).1 = true then (a, k) :: (d.zipIdx (k + 1)).filter
            (fun p => keep p.1) else (d.zipIdx (k + 1)).filter fun p => keep p.1).map
            fun p => SparseEntry.mk p.2 p.1) i =
          lookup (((d.zipIdx (k + 1)).filter fun p => keep p.1).map
            fun p => SparseEntry.mk p.2 p.1) i := by
        split
        · exact lookup_cons_of_ne (Ne.symm hik)
        · rfl
      rw [hrest, ih]
      by_cases hlt : k + 1 ≤ i
      · rw [if_pos hlt, if_pos (by omega), show i - k = i - (k + 1) + 1 by omega,
          List.getElem?_cons_succ]
      · rw [if_neg hlt, if_neg (by omega)]

variable {t : PixelType} {m : Metadata} {s : SparseRaster}

theorem ofList_eq_ok {d : List Pixel} (h : ofList t m d = .ok s) :
    s.type = t ∧ s.metadata = m ∧ m.cellCount = d.length := by
  unfold ofList at h
  obtain ⟨n, -, h⟩ := bind_eq_ok.mp h
  obtain ⟨u, hc, h⟩ := bind_eq_ok.mp h
  obtain ⟨ht, hm, -⟩ := ofSortedEntries_eq_ok h
  exact ⟨ht, hm, (checkDataSize_eq_ok.mp hc).2.2⟩

/-- A raster built from values of its type stores, at each index, the value there unless it
marks nodata. -/
theorem toOptions_ofList {d : List Pixel} (hd : ∀ v ∈ d, t.holds v = true)
    (hw : m.cols < wordSize) (h : ofList t m d = .ok s) :
    s.toOptions = d.map fun v => if (Raster.sparse s).marksNodata v then none else some v := by
  obtain ⟨ht, hm, hcount⟩ := ofList_eq_ok h
  have hl : s.Layout (groupRows m.rows.toNat m.cols.toNat
      ((d.zipIdx.filter fun p => (fun v => !v.eq s.nodata && !v.isNaN) p.1).map
        fun p => SparseEntry.mk p.2 p.1)) := layout_ofList h
  have hlen : s.len = d.length := by rw [← hcount, ← hm]; rfl
  rw [hl.toOptions_eq (hm ▸ hw)]
  apply List.ext_getElem (by simp [hlen])
  intro i hi hi'
  have hid : i < d.length := by simpa using hi'
  have hgrid : i < m.rows.toNat * m.cols.toNat := by
    have hsize := hl.len_eq
    rw [length_groupRows, hm] at hsize
    rw [← hsize]
    simpa using hi
  simp only [List.getElem_map, List.getElem_range, hm]
  rw [cellOf_groupRows _ hgrid, lookup_filter_zipIdx (fun v => !v.eq s.nodata && !v.isNaN),
    if_pos (Nat.zero_le i), Nat.sub_zero,
    List.getElem?_eq_getElem hid]
  -- a value is kept exactly when it does not mark nodata
  have hmark := isNodataValue_eq (ht ▸ hd _ (List.getElem_mem hid))
  unfold isNodataValue at hmark
  rw [← hmark]
  cases hv : d[i].eq s.nodata <;> cases hn : d[i].isNaN <;> simp [Option.filter, hv, hn]

/-- A raster without entries has every cell missing. -/
theorem toOptions_of_empty (hw : m.cols < wordSize) (h : empty t m = .ok s) :
    s.toOptions = List.replicate s.len none := by
  have hl := layout_empty h
  obtain ⟨n, -, -, -, rfl⟩ := empty_eq_ok.mp h
  rw [hl.toOptions_eq hw, List.eq_replicate_iff]
  refine ⟨List.length_map _ |>.trans List.length_range, fun c hc => ?_⟩
  obtain ⟨i, -, rfl⟩ := List.mem_map.mp hc
  simp [cellOf, List.getD_eq_getElem?_getD, valueIn]

theorem type_fill (s : SparseRaster) (v : Pixel) : (s.fill v).type = s.type := by
  unfold SparseRaster.fill
  split <;> rfl

theorem marksNodata_fill (s : SparseRaster) (v : Pixel) :
    (Raster.sparse (s.fill v)).marksNodata = (Raster.sparse s).marksNodata := by
  unfold SparseRaster.fill
  split <;> rfl

end SparseRaster

/-! ### What the constructors build -/

namespace Raster

variable {r : Raster} {b : Backend} {t : PixelType} {m : Metadata}

/-- `r` is a well-formed raster of storage `b`, pixel type `t` and metadata `m` built from the
values `d`, one per cell in row-major order: a value that does not mark nodata reads back, and one
that does is missing, except in a masked raster without nodata value, where it is left open. -/
structure HoldsValues (r : Raster) (b : Backend) (t : PixelType) (m : Metadata)
    (d : List Pixel) : Prop where
  wf : r.Wf
  backend_eq : r.backend = b
  type_eq : r.type = t
  metadata_eq : r.metadata = m
  length_eq : d.length = m.cellCount
  value_data : ∀ i v, d[i]? = some v → r.marksNodata v = false → r.value i = .ok (some v)
  value_nodata : ∀ i v, d[i]? = some v → r.marksNodata v = true →
    ¬(b = .masked ∧ m.nodata = none) → r.value i = .ok none

/-- A cell of a raster whose cells are those of a list, each read by a rule. -/
theorem value_of_toOptions (hw : r.Wf) {d : List Pixel} {g : Pixel → Option Pixel}
    (hopt : r.toOptions = d.map g) {i : Nat} {v : Pixel} (hi : d[i]? = some v) :
    r.value i = .ok (g v) := by
  have hlen : d.length = r.len := by rw [← hw.length_toOptions, hopt, List.length_map]
  have hid : i < d.length := (List.getElem?_eq_some_iff.mp hi).1
  rw [hw.value_eq (hlen ▸ hid), hopt, List.getD_eq_getElem?_getD, List.getElem?_map, hi,
    Option.map_some, Option.getD_some]

theorem HoldsValues.of_toOptions (hw : r.Wf) (hb : r.backend = b) (ht : r.type = t)
    (hm : r.metadata = m) {d : List Pixel} {g : Pixel → Option Pixel}
    (hopt : r.toOptions = d.map g) (hdata : ∀ v, r.marksNodata v = false → g v = some v)
    (hnodata : ¬(b = .masked ∧ m.nodata = none) →
      ∀ v, r.marksNodata v = true → g v = none) :
    r.HoldsValues b t m d where
  wf := hw
  backend_eq := hb
  type_eq := ht
  metadata_eq := hm
  length_eq := by rw [← List.length_map g, ← hopt, hw.length_toOptions, ← hm]; rfl
  value_data i v hi hv := by rw [value_of_toOptions hw hopt hi, hdata v hv]
  value_nodata i v hi hv hb' := by rw [value_of_toOptions hw hopt hi, hnodata hb' v hv]

/-- A raster reading each value as missing exactly when it marks nodata. -/
theorem HoldsValues.of_toOptions_marked (hw : r.Wf) (hb : r.backend = b) (ht : r.type = t)
    (hm : r.metadata = m) {d : List Pixel}
    (hopt : r.toOptions = d.map fun v => if r.marksNodata v then none else some v) :
    r.HoldsValues b t m d :=
  .of_toOptions hw hb ht hm hopt (fun v hv => by simp [hv]) (fun _ v hv => by simp [hv])

/-- A masked raster without nodata value reading every value back. -/
theorem HoldsValues.of_toOptions_some (hw : r.Wf) (hb : r.backend = .masked) (ht : r.type = t)
    (hm : r.metadata = m) (hn : m.nodata = none) {d : List Pixel}
    (hopt : r.toOptions = d.map some) : r.HoldsValues .masked t m d :=
  .of_toOptions hw hb ht hm hopt (fun _ _ => rfl) (fun hb' => absurd ⟨rfl, hn⟩ hb')

/-- The cells of a raster whose every cell is missing. -/
theorem holds_of_toOptions_eq_replicate (hw : r.Wf) (hb : r.backend = b) (ht : r.type = t)
    (hm : r.metadata = m) (hopt : r.toOptions = List.replicate r.len none) :
    r.Holds b t m fun _ => none where
  wf := hw
  backend_eq := hb
  type_eq := ht
  metadata_eq := hm
  value_eq i hi := by
    have hi' : i < r.len := by rw [len, hm]; exact hi
    rw [hw.value_eq hi', hopt, List.getD_replicate _ hi']

end Raster

namespace Backend

variable {b : Backend} {t : PixelType} {m : Metadata} {r : Raster}

/-- A dense raster built from a buffer, whose values that mark nodata are then made NaN, holds
the values of the buffer: building from values and filling with one are that same step. -/
theorem holdsValues_initNodataValues {data : Array Pixel} {d₀ : DenseRaster}
    (h₀ : DenseRaster.ofData t m data = .ok d₀) (hw : (Raster.dense d₀.initNodataValues).Wf) :
    (Raster.dense d₀.initNodataValues).HoldsValues .dense t m data.toList := by
  obtain ⟨-, -, -, -, rfl⟩ := DenseRaster.ofData_eq_ok.mp h₀
  refine .of_toOptions_marked hw rfl (DenseRaster.type_initNodataValues _)
    (DenseRaster.metadata_initNodataValues _) ?_
  rw [Raster.toOptions, DenseRaster.toOptions_initNodataValues _ rfl,
    DenseRaster.marksNodata_initNodataValues]

theorem holdsValues_ofList (hm : m.CoordDims) {d : List Pixel} (hd : ∀ v ∈ d, t.holds v = true)
    (h : b.ofList t m d = .ok r) : r.HoldsValues b t m d := by
  have hw : r.Wf := (Raster.Built.ofList hm h).sound.wf
  cases b with
  | dense =>
    obtain ⟨d', hd', rfl⟩ := map_eq_ok.mp h
    obtain ⟨d₀, h₀, rfl⟩ := map_eq_ok.mp hd'
    exact holdsValues_initNodataValues h₀ hw
  | masked =>
    obtain ⟨k, hk, rfl⟩ := map_eq_ok.mp h
    obtain ⟨k₀, h₀, rfl⟩ := map_eq_ok.mp hk
    obtain ⟨-, -, -, -, -, rfl⟩ := MaskedRaster.ofData_eq_ok.mp h₀
    have ht := MaskedRaster.type_initNodataValues ⟨t, m, d.toArray, #[]⟩
    have hmeta := MaskedRaster.metadata_initNodataValues ⟨t, m, d.toArray, #[]⟩
    by_cases hn : m.nodata = none
    · -- without a nodata value the mask stays empty, and every value reads back
      refine .of_toOptions_some hw rfl ht hmeta hn ?_
      rw [Raster.toOptions, MaskedRaster.initNodataValues_of_none hn,
        MaskedRaster.toOptions_of_mask_eq_empty rfl]
    · refine .of_toOptions_marked hw rfl ht hmeta ?_
      rw [Raster.toOptions, MaskedRaster.toOptions_initNodataValues hn,
        MaskedRaster.marksNodata_initNodataValues]
  | sparse =>
    obtain ⟨s, hs, rfl⟩ := map_eq_ok.mp h
    obtain ⟨ht, hmeta, -⟩ := SparseRaster.ofList_eq_ok hs
    exact .of_toOptions_marked hw rfl ht hmeta
      (SparseRaster.toOptions_ofList hd hm.cols_lt_wordSize hs)

theorem holdsValues_filledWith (hm : m.CoordDims) {v : Pixel} (hv : t.holds v = true)
    (h : b.filledWith t m v = .ok r) : r.HoldsValues b t m (List.replicate m.cellCount v) := by
  have hw : r.Wf := (Raster.Built.filledWith hm h).sound.wf
  cases b with
  | dense =>
    obtain ⟨d', hd', rfl⟩ := map_eq_ok.mp h
    obtain ⟨d₀, h₀, rfl⟩ := map_eq_ok.mp hd'
    rw [← Array.toList_replicate]
    exact holdsValues_initNodataValues h₀ hw
  | masked =>
    obtain ⟨k, hk, rfl⟩ := map_eq_ok.mp h
    obtain ⟨k₀, h₀, rfl⟩ := map_eq_ok.mp hk
    obtain ⟨-, -, -, -, -, rfl⟩ := MaskedRaster.ofData_eq_ok.mp h₀
    by_cases hn : m.nodata = none
    · -- without a nodata value the mask stays empty, and every cell reads the value
      refine .of_toOptions_some hw rfl (MaskedRaster.type_fill _ v) (MaskedRaster.metadata_fill _ v)
        hn ?_
      rw [Raster.toOptions, MaskedRaster.toOptions_fill_of_none hn,
        MaskedRaster.toOptions_of_mask_eq_empty rfl]
      simp
    · refine .of_toOptions_marked hw rfl (MaskedRaster.type_fill _ v)
        (MaskedRaster.metadata_fill _ v) ?_
      rw [Raster.toOptions, MaskedRaster.toOptions_fill_of_isSome
        (Option.isSome_iff_ne_none.mpr hn), MaskedRaster.isNodataValue_eq,
        ← MaskedRaster.marksNodata_fill _ v, List.map_replicate, Array.size_replicate]
  | sparse =>
    obtain ⟨s, hs, rfl⟩ := map_eq_ok.mp h
    obtain ⟨s₀, h₀, rfl⟩ := map_eq_ok.mp hs
    have hlayout := SparseRaster.layout_empty h₀
    obtain ⟨n, -, -, -, rfl⟩ := SparseRaster.empty_eq_ok.mp h₀
    refine .of_toOptions_marked hw rfl (SparseRaster.type_fill _ v)
      (SparseRaster.metadata_fill _ v) ?_
    rw [Raster.toOptions, hlayout.toOptions_fill hm.cols_lt_wordSize v,
      SparseRaster.isNodataValue_eq hv, ← SparseRaster.marksNodata_fill _ v, List.map_replicate]
    rfl

theorem holds_filledWithNodata (hm : m.CoordDims) (h : b.filledWithNodata t m = .ok r) :
    r.Holds b t m fun _ => none := by
  have hw : r.Wf := (Raster.Built.filledWithNodata hm h).sound.wf
  cases b with
  | dense =>
    obtain ⟨d, hd, rfl⟩ := map_eq_ok.mp h
    obtain ⟨d₀, h₀, hd⟩ := bind_eq_ok.mp hd
    obtain ⟨n, hn, hd⟩ := bind_eq_ok.mp hd
    cases pure_eq_ok.mp hd
    obtain ⟨-, -, -, hsize, rfl⟩ := DenseRaster.ofData_eq_ok.mp h₀
    -- every cell holds the value that marks a missing cell
    have hmiss : (t.policy m.nodata).missingValue = some n := by
      unfold DenseRaster.missingValue at hn
      cases hp : (t.policy m.nodata).missingValue with
      | some n' =>
        rw [hp] at hn
        cases hn
        rfl
      | none =>
        rw [hp] at hn
        cases hn
    have hread : (t.policy m.nodata).read n = none := PixelType.read_missingValue hmiss
    refine Raster.holds_of_toOptions_eq_replicate hw rfl rfl rfl ?_
    rw [Raster.toOptions, DenseRaster.toOptions_fill, hread, ← hsize]
    rfl
  | masked =>
    obtain ⟨k, hk, rfl⟩ := map_eq_ok.mp h
    obtain ⟨k₀, h₀, rfl⟩ := map_eq_ok.mp hk
    obtain ⟨-, -, -, hsize, -, rfl⟩ := MaskedRaster.ofData_eq_ok.mp h₀
    refine Raster.holds_of_toOptions_eq_replicate hw rfl rfl rfl ?_
    rw [Raster.toOptions, MaskedRaster.toOptions_fillWithNodata, ← hsize]
    rfl
  | sparse =>
    obtain ⟨s, hs, rfl⟩ := map_eq_ok.mp h
    have hmeta : s.metadata = m := by
      obtain ⟨n, -, -, -, rfl⟩ := SparseRaster.empty_eq_ok.mp hs
      rfl
    have htype : s.type = t := by
      obtain ⟨n, -, -, -, rfl⟩ := SparseRaster.empty_eq_ok.mp hs
      rfl
    exact Raster.holds_of_toOptions_eq_replicate hw rfl htype hmeta
      (SparseRaster.toOptions_of_empty hm.cols_lt_wordSize hs)

/-- From optional values: the cells built from their function of the index. -/
theorem holds_ofOptions (hm : m.CoordDims) {xs : List (Option Pixel)}
    (h : b.ofOptions t m xs = .ok r) :
    r.Holds b t m fun i => b.readBack t m.nodata (xs.getD i none) := by
  unfold ofOptions at h
  obtain ⟨u, -, h⟩ := bind_eq_ok.mp h
  have hcells := ofCells_eq_ok hm.cols_lt_wordSize h
  simp only [getD_toArray] at hcells
  exact hcells

/-- What the four constructors of storage `b` build with pixel type `t` and metadata `m`, and why
they fail. -/
structure Constructs (b : Backend) (t : PixelType) (m : Metadata) : Prop where
  ofList : ∀ d : List Pixel, (∀ v ∈ d, t.holds v = true) →
    FailsOnlyFor (b.ofList t m d) (m.refusesSize d.length) (b.refusesNodata t m.nodata) False ∧
      ∀ r, b.ofList t m d = .ok r → r.HoldsValues b t m d
  filledWith : ∀ v : Pixel, t.holds v = true →
    FailsOnlyFor (b.filledWith t m v) (m.rows < 0 ∨ m.cols < 0) (b.refusesNodata t m.nodata)
        False ∧
      ∀ r, b.filledWith t m v = .ok r → r.HoldsValues b t m (List.replicate m.cellCount v)
  ofOptions : ∀ xs : List (Option Pixel),
    FailsOnlyFor (b.ofOptions t m xs) (m.refusesSize xs.length) (b.refusesNodata t m.nodata)
        (b = .dense ∧ t.hasNaN = false ∧ m.nodata = none ∧ none ∈ xs) ∧
      ∀ r, b.ofOptions t m xs = .ok r →
        r.Holds b t m fun i => b.readBack t m.nodata (xs.getD i none)
  filledWithNodata :
    FailsOnlyFor (b.filledWithNodata t m) (m.rows < 0 ∨ m.cols < 0)
        (b.refusesNodata t m.nodata ∨ (b = .dense ∧ t.hasNaN = false ∧ m.nodata = none))
        False ∧
      ∀ r, b.filledWithNodata t m = .ok r → r.Holds b t m fun _ => none

/-- Every storage builds, from metadata whose dimensions are coordinates, what `Constructs` says,
and fails only for the reasons of its checks. -/
theorem constructs (b : Backend) (t : PixelType) (hm : m.CoordDims) : b.Constructs t m where
  ofList d hd := ⟨failsOnlyFor_ofList d, fun _ h => holdsValues_ofList hm hd h⟩
  filledWith v hv := ⟨failsOnlyFor_filledWith v, fun _ h => holdsValues_filledWith hm hv h⟩
  ofOptions xs := ⟨failsOnlyFor_ofOptions xs, fun _ h => holds_ofOptions hm h⟩
  filledWithNodata := ⟨failsOnlyFor_filledWithNodata, fun _ h => holds_filledWithNodata hm h⟩

theorem constructs_dense_int32 : Backend.dense.Constructs .int32 (Metadata.ofRowsCols 1 2) :=
  constructs .dense .int32 ⟨rfl, rfl⟩

/-- A dense raster stores an optional value in-band, so a value equal to its nodata value reads
back as missing. -/
theorem dense_ofOptions_nodataValue_reads_missing :
    (Backend.dense.ofOptions .int32 (Metadata.sized ⟨1, 2⟩ (some (BinaryFloat.ofInt 5)))
      [some (.int 5), some (.int 2)]).map Raster.toOptions = .ok [none, some (.int 2)] :=
  rfl

end Backend

end Georaster
