import Georaster.Proofs.Algebra.Cellwise
/-!
# When the algebra fails

An operation of two rasters fails at the first of three checks, each with its kind of error:
the sizes must match (`SizeMismatch`); the result type must accept the result's nodata value, and
a sparse result must have one (`InvalidConfiguration`); and a dense result of an integral type
without nodata value cannot store a missing cell (`Runtime`). A division that fails the last check
says so when the divisor holds a zero. Otherwise the operation succeeds.

The operations of one raster fail with an invalid argument only where they refuse their
argument: the negation of an unsigned type, and a scalar that does not fit the widest type or
divides by zero.
-/

namespace Georaster

/-- The kind of error a computation ends with; none when it gives a result. -/
def errorKind {α : Type} : Except RasterError α → Option String
  | .ok _ => none
  | .error e => some e.kind

@[simp] theorem errorKind_ok {α : Type} (a : α) : errorKind (.ok a : Except RasterError α) = none :=
  rfl

@[simp] theorem errorKind_error {α : Type} (e : RasterError) :
    errorKind (.error e : Except RasterError α) = some e.kind := rfl

namespace NodataPolicy

theorem write_eq_none_iff {p : NodataPolicy} {x : Option Pixel} :
    p.write x = none ↔ x = none ∧ p.missingValue = none := by
  cases x <;> simp [write]

end NodataPolicy

namespace PixelType

variable {t : PixelType} {n : Option Binary64}

/-- A pixel type refuses a nodata value when the type is integral and the value is NaN or out of
the type's range. -/
def refusesNodata (t : PixelType) (n : Option Binary64) : Prop :=
  ∃ x, n = some x ∧ t.hasNaN = false ∧ (x.isNaN = true ∨ t.fits x = false)

theorem validateNodata_eq_ok_iff : t.validateNodata n = .ok () ↔ ¬t.refusesNodata n := by
  unfold validateNodata refusesNodata
  cases n with
  | none => simp
  | some x =>
    cases hn : t.hasNaN <;> cases hx : x.isNaN <;> cases hf : t.fits x <;> simp [hx, hf]

theorem validateNodata_eq_error {e : RasterError} (h : t.validateNodata n = .error e) :
    e.kind = "InvalidConfiguration" := by
  unfold validateNodata at h
  -- every refusal along the checks is a configuration error
  split at h
  · cases h
  · split at h
    · cases h
    · split at h
      · cases h
        rfl
      · split at h
        · cases h
        · cases h
          rfl

/-- A floating-point type holds every double. -/
theorem castFloat?_isSome_of_hasNaN (hnan : t.hasNaN = true) (x : Binary64) :
    (t.castFloat? x).isSome = true := by
  cases t <;> simp [hasNaN] at hnan <;> rfl

/-- Once the type accepts the nodata value, it holds it exactly when there is one. -/
theorem nodataValue_eq_none_iff (h : t.validateNodata n = .ok ()) :
    t.nodataValue n = none ↔ n = none := by
  cases n with
  | none => simp [nodataValue]
  | some x =>
    have hfit : (t.castFloat? x).isSome = true := by
      cases hnan : t.hasNaN
      · have hacc := validateNodata_eq_ok_iff.mp h
        by_contra hfit
        exact hacc ⟨x, rfl, hnan, .inr (by simpa [fits] using hfit)⟩
      · exact castFloat?_isSome_of_hasNaN hnan x
    simp only [nodataValue, Option.bind_some, reduceCtorEq, iff_false]
    exact Option.isSome_iff_ne_none.mp hfit

/-- Once the type accepts the nodata value, a missing cell cannot be stored exactly when the type
is integral and there is no nodata value. -/
theorem missingValue_eq_none_iff (h : t.validateNodata n = .ok ()) :
    (t.policy n).missingValue = none ↔ t.hasNaN = false ∧ n = none := by
  unfold policy
  cases hnan : t.nan? with
  | some m =>
    have : t.hasNaN = true := by cases t <;> simp_all [nan?, hasNaN]
    simp [NodataPolicy.missingValue, this]
  | none =>
    have : t.hasNaN = false := by cases t <;> simp_all [nan?, hasNaN]
    simp [NodataPolicy.missingValue, this, nodataValue_eq_none_iff h]

end PixelType

/-! ### Building a raster from cells -/

/-- The error of a dense raster without a way to store a missing cell. -/
def missingCellError : RasterError :=
  .runtime "Raster without nodata value cannot represent nodata cells"

/-- A computation that fails only with a configuration error or for a missing cell fails with no
other kind of error. -/
theorem errorKind_ne_of_errors {α : Type} {x : Except RasterError α} {k : String}
    (hx : ∀ e, x = .error e → e.kind = "InvalidConfiguration" ∨ e = missingCellError)
    (hic : k ≠ "InvalidConfiguration") (hrt : k ≠ "Runtime") : errorKind x ≠ some k := by
  cases x with
  | ok a => simp
  | error e =>
    rcases hx e rfl with hk | rfl
    · simpa [hk] using hic.symm
    · simpa [missingCellError, RasterError.kind] using hrt.symm

/-- The error of a sparse raster without nodata value. -/
def noSparseNodataError : RasterError :=
  .invalidConfiguration "Sparse rasters must have a nodata value"

namespace DenseRaster

variable {t : PixelType} {m : Metadata} {cell : Nat → Option Pixel} {e : RasterError}

/-- Building a dense raster of counted dimensions fails when the type refuses the nodata value,
or when a cell is missing and cannot be stored. -/
theorem ofCells_eq_error (h0 : 0 ≤ m.rows) (h1 : 0 ≤ m.cols) :
    ofCells t m cell = .error e ↔ t.validateNodata m.nodata = .error e ∨
      (t.validateNodata m.nodata = .ok () ∧ (t.policy m.nodata).missingValue = none ∧
        (∃ i < m.cellCount, cell i = none) ∧ e = missingCellError) := by
  unfold ofCells
  cases hv : t.validateNodata m.nodata with
  | error e' => simp
  | ok u =>
    simp only [ok_bind, reduceCtorEq, false_or, true_and]
    cases hw : (List.range m.cellCount).mapM fun i => (t.policy m.nodata).write (cell i) with
    | none =>
      -- some cell could not be written: it is missing and the policy has no missing value
      obtain ⟨i, hi, hwi⟩ := mapM_eq_none_iff.mp hw
      obtain ⟨hci, hmiss⟩ := NodataPolicy.write_eq_none_iff.mp hwi
      simp only [missingCellError, Except.error.injEq]
      exact ⟨fun h => ⟨hmiss, ⟨i, List.mem_range.mp hi, hci⟩, h.symm⟩, fun h => h.2.2.symm⟩
    | some data =>
      -- every cell was written, so the raster is built
      have hlen : data.length = m.cellCount := by simpa using (mapM_eq_some_iff.mp hw).length_eq.symm
      have hok : ofData t m data.toArray = .ok ⟨t, m, data.toArray, t.policy m.nodata⟩ :=
        ofData_eq_ok.mpr ⟨hv, h0, h1, by simp [hlen], rfl⟩
      simp only [hok, reduceCtorEq, false_iff, not_and]
      rintro hmiss ⟨i, hi, hci⟩
      have hall := mapM_eq_some_iff.mp hw
      have hwi := hall.get (by simpa using hi) (by omega)
      simp [NodataPolicy.write, hci, hmiss] at hwi

end DenseRaster

namespace MaskedRaster

variable {t : PixelType} {m : Metadata} {cell : Nat → Option Pixel} {e : RasterError}

/-- Building a masked raster of counted dimensions fails only when the type refuses the nodata
value. -/
theorem ofCells_eq_error (h0 : 0 ≤ m.rows) (h1 : 0 ≤ m.cols) :
    ofCells t m cell = .error e ↔ t.validateNodata m.nodata = .error e := by
  unfold ofCells
  cases hv : t.validateNodata m.nodata with
  | error e' => simp
  | ok u =>
    simp only [ok_bind, reduceCtorEq, iff_false]
    rw [(ofData_eq_ok.mpr ⟨hv, h0, h1, by simp, by split <;> simp, rfl⟩)]
    simp

end MaskedRaster

namespace SparseRaster

variable {t : PixelType} {m : Metadata} {e : RasterError}

theorem nodataOf_eq_error : nodataOf t m = .error e ↔ t.validateNodata m.nodata = .error e ∨
    (t.validateNodata m.nodata = .ok () ∧ t.nodataValue m.nodata = none ∧
      e = noSparseNodataError) := by
  unfold nodataOf
  cases hv : t.validateNodata m.nodata with
  | error e' => simp
  | ok u =>
    cases hn : t.nodataValue m.nodata <;> simp [noSparseNodataError, eq_comm]

/-- An empty raster of counted dimensions fails only for want of a nodata value. -/
theorem empty_eq_error (h0 : 0 ≤ m.rows) (h1 : 0 ≤ m.cols) :
    empty t m = .error e ↔ nodataOf t m = .error e := by
  unfold empty
  cases hn : nodataOf t m with
  | error e' => simp
  | ok n =>
    simp only [ok_bind, reduceCtorEq, iff_false]
    rw [checkDataSize_eq_ok.mpr ⟨h0, h1, rfl⟩]
    simp

theorem ofCells_eq_error {cell : Nat → Option Pixel} (h0 : 0 ≤ m.rows) (h1 : 0 ≤ m.cols) :
    ofCells t m cell = .error e ↔ nodataOf t m = .error e := by
  rw [ofCells_eq, ← empty_eq_error h0 h1]
  cases empty t m <;> simp

theorem ofSortedEntries_eq_error {es : List SparseEntry} (h0 : 0 ≤ m.rows) (h1 : 0 ≤ m.cols) :
    ofSortedEntries t m es = .error e ↔ nodataOf t m = .error e := by
  rw [ofSortedEntries, ← empty_eq_error h0 h1]
  cases empty t m <;> simp

theorem nodataOf_eq_error_kind (h : nodataOf t m = .error e) :
    e.kind = "InvalidConfiguration" := by
  rcases nodataOf_eq_error.mp h with hv | ⟨-, -, rfl⟩
  · exact PixelType.validateNodata_eq_error hv
  · rfl

end SparseRaster

namespace Backend

variable {b : Backend} {t : PixelType} {m : Metadata} {c : Nat → Option Pixel} {e : RasterError}

/-- Building a raster of counted dimensions from cells fails when the type refuses the nodata
value; when a sparse raster gets no nodata value; or when a dense raster has a missing cell and no
way to store it. -/
theorem ofCells_eq_error (h0 : 0 ≤ m.rows) (h1 : 0 ≤ m.cols) :
    b.ofCells t m c = .error e ↔ t.validateNodata m.nodata = .error e ∨
      (t.validateNodata m.nodata = .ok () ∧
        ((b = .sparse ∧ t.nodataValue m.nodata = none ∧ e = noSparseNodataError) ∨
          (b = .dense ∧ (t.policy m.nodata).missingValue = none ∧
            (∃ i < m.cellCount, c i = none) ∧ e = missingCellError))) := by
  cases b with
  | dense => simp [ofCells, map_eq_error, DenseRaster.ofCells_eq_error h0 h1]
  | masked =>
    simp only [ofCells, map_eq_error, MaskedRaster.ofCells_eq_error h0 h1, reduceCtorEq,
      false_and, or_self, and_false, or_false]
  | sparse =>
    simp [ofCells, map_eq_error, SparseRaster.ofCells_eq_error h0 h1,
      SparseRaster.nodataOf_eq_error]

/-- Building from cells fails with a configuration error or for a missing cell, never for an
argument or a size. -/
theorem ofCells_eq_error_kind (h0 : 0 ≤ m.rows) (h1 : 0 ≤ m.cols)
    (h : b.ofCells t m c = .error e) : e.kind = "InvalidConfiguration" ∨ e = missingCellError := by
  rcases (ofCells_eq_error h0 h1).mp h with hv | ⟨-, ⟨-, -, rfl⟩ | ⟨-, -, -, rfl⟩⟩
  · exact .inl (PixelType.validateNodata_eq_error hv)
  · exact .inl rfl
  · exact .inr rfl

theorem errorKind_ofCells_ne (h0 : 0 ≤ m.rows) (h1 : 0 ≤ m.cols) {k : String}
    (hic : k ≠ "InvalidConfiguration") (hrt : k ≠ "Runtime") :
    errorKind (b.ofCells t m c) ≠ some k :=
  errorKind_ne_of_errors (fun _ h => ofCells_eq_error_kind h0 h1 h) hic hrt

/-- The four ways of building a raster of counted dimensions from cells, in the order of the
checks: the type refuses the nodata value (a configuration error); a sparse raster gets no nodata
value (a configuration error); a dense raster has a missing cell it cannot store, its type being
integral without nodata value (a runtime error); or the raster is built. -/
theorem ofCells_cases (h0 : 0 ≤ m.rows) (h1 : 0 ≤ m.cols) :
    (t.refusesNodata m.nodata ∧ ∃ e, b.ofCells t m c = .error e ∧
        e.kind = "InvalidConfiguration") ∨
      (¬t.refusesNodata m.nodata ∧ b = .sparse ∧ t.nodataValue m.nodata = none ∧
        b.ofCells t m c = .error noSparseNodataError) ∨
      (¬t.refusesNodata m.nodata ∧ ¬(b = .sparse ∧ t.nodataValue m.nodata = none) ∧
        b = .dense ∧ t.hasNaN = false ∧ m.nodata = none ∧ (∃ i < m.cellCount, c i = none) ∧
        b.ofCells t m c = .error missingCellError) ∨
      (¬t.refusesNodata m.nodata ∧ ¬(b = .sparse ∧ t.nodataValue m.nodata = none) ∧
        ¬(b = .dense ∧ t.hasNaN = false ∧ m.nodata = none ∧ ∃ i < m.cellCount, c i = none) ∧
        ∃ r, b.ofCells t m c = .ok r) := by
  cases hv : t.validateNodata m.nodata with
  | error e =>
    -- the type refuses the nodata value
    have hrefuses : t.refusesNodata m.nodata := by
      by_contra hacc
      rw [PixelType.validateNodata_eq_ok_iff.mpr hacc] at hv
      cases hv
    exact .inl ⟨hrefuses, e, (ofCells_eq_error h0 h1).mpr (.inl hv),
      PixelType.validateNodata_eq_error hv⟩
  | ok u =>
    have hacc := PixelType.validateNodata_eq_ok_iff.mp hv
    have hmiss := PixelType.missingValue_eq_none_iff hv
    by_cases hs : b = .sparse ∧ t.nodataValue m.nodata = none
    · exact .inr (.inl ⟨hacc, hs.1, hs.2,
        (ofCells_eq_error h0 h1).mpr (.inr ⟨hv, .inl ⟨hs.1, hs.2, rfl⟩⟩)⟩)
    · by_cases hd : b = .dense ∧ t.hasNaN = false ∧ m.nodata = none ∧ ∃ i < m.cellCount, c i = none
      · obtain ⟨hb, hnan, hn, hcell⟩ := hd
        refine .inr (.inr (.inl ⟨hacc, hs, hb, hnan, hn, hcell, ?_⟩))
        exact (ofCells_eq_error h0 h1).mpr (.inr ⟨hv, .inr ⟨hb, hmiss.mpr ⟨hnan, hn⟩, hcell, rfl⟩⟩)
      · -- no check fails: the raster is built
        refine .inr (.inr (.inr ⟨hacc, hs, hd, ?_⟩))
        cases hres : b.ofCells t m c with
        | ok r => exact ⟨r, rfl⟩
        | error e =>
          rcases (ofCells_eq_error h0 h1).mp hres with hv' | ⟨-, ⟨hb, hn, -⟩ | ⟨hb, hm, hcell, -⟩⟩
          · rw [hv] at hv'
            cases hv'
          · exact absurd ⟨hb, hn⟩ hs
          · exact absurd ⟨hb, (hmiss.mp hm).1, (hmiss.mp hm).2, hcell⟩ hd

/-- The kind of error of building from cells, check by check: a configuration error exactly when
the type refuses the nodata value or a sparse raster gets none; past that, a runtime error exactly
when a dense raster of an integral type without nodata value has a missing cell; past both, a
raster. -/
theorem errorKind_ofCells (h0 : 0 ≤ m.rows) (h1 : 0 ≤ m.cols) :
    (errorKind (b.ofCells t m c) = some "InvalidConfiguration" ↔
      t.refusesNodata m.nodata ∨ (b = .sparse ∧ t.nodataValue m.nodata = none)) ∧
    (¬(t.refusesNodata m.nodata ∨ (b = .sparse ∧ t.nodataValue m.nodata = none)) →
      (errorKind (b.ofCells t m c) = some "Runtime" ↔
        b = .dense ∧ t.hasNaN = false ∧ m.nodata = none ∧ ∃ i < m.cellCount, c i = none)) ∧
    (¬(t.refusesNodata m.nodata ∨ (b = .sparse ∧ t.nodataValue m.nodata = none)) →
      ¬(b = .dense ∧ t.hasNaN = false ∧ m.nodata = none ∧ ∃ i < m.cellCount, c i = none) →
      ∃ r, b.ofCells t m c = .ok r) := by
  rcases ofCells_cases (b := b) (t := t) (c := c) h0 h1 with
    ⟨href, e, he, hk⟩ | ⟨-, hs, hn, he⟩ | ⟨hacc, hns, hd, hnan, hn, hcell, he⟩ | ⟨hacc, hns, hnd, hok⟩
  case inl =>
    -- the type refuses the nodata value
    exact ⟨by simp [he, hk, href], fun h => absurd (.inl href) h, fun h => absurd (.inl href) h⟩
  case inr.inl =>
    -- a sparse raster without nodata value
    refine ⟨by rw [he]; simp [noSparseNodataError, RasterError.kind, hs, hn], fun h => ?_,
      fun h => ?_⟩
    all_goals exact absurd (.inr ⟨hs, hn⟩) h
  case inr.inr.inl =>
    -- a dense integral raster without nodata value, with a missing cell
    refine ⟨?_, fun _ => ?_, fun _ h => absurd ⟨hd, hnan, hn, hcell⟩ h⟩
    · rw [he]
      simp [missingCellError, RasterError.kind, hacc, hns]
    · rw [he]
      simp [missingCellError, RasterError.kind, hd, hnan, hn, hcell]
  case inr.inr.inr =>
    -- no check fails
    obtain ⟨r, hr⟩ := hok
    refine ⟨?_, fun _ => ?_, fun _ _ => ⟨r, hr⟩⟩
    · simp [hr, hacc, hns]
    · simpa [hr] using hnd

end Backend

namespace Raster

variable {a b r : Raster}

/-- Mapping the cells of a well-formed raster fails with a configuration error or for a missing
cell. -/
theorem mapValues_eq_error (hr : r.Wf) {t : PixelType} {n : Option Binary64}
    {f : Pixel → Option Pixel} {e : RasterError} (h : r.mapValues t n f = .error e) :
    e.kind = "InvalidConfiguration" ∨ e = missingCellError := by
  cases r with
  | sparse s =>
    -- a sparse raster is rebuilt from its mapped entries
    simp only [mapValues, map_eq_error, SparseRaster.mapValues] at h
    exact .inl (SparseRaster.nodataOf_eq_error_kind
      ((SparseRaster.ofSortedEntries_eq_error (m := s.metadata.withNodata n) hr.rows_nonneg
        hr.cols_nonneg).mp h))
  | dense d =>
    simp only [mapValues] at h
    exact Backend.ofCells_eq_error_kind (m := d.metadata.withNodata n) hr.rows_nonneg
      hr.cols_nonneg h
  | masked q =>
    simp only [mapValues] at h
    exact Backend.ofCells_eq_error_kind (m := q.metadata.withNodata n) hr.rows_nonneg
      hr.cols_nonneg h

theorem errorKind_mapValues_ne (hr : r.Wf) {t : PixelType} {n : Option Binary64}
    {f : Pixel → Option Pixel} {k : String} (hic : k ≠ "InvalidConfiguration")
    (hrt : k ≠ "Runtime") : errorKind (r.mapValues t n f) ≠ some k :=
  errorKind_ne_of_errors (fun _ h => mapValues_eq_error hr h) hic hrt

/-! ### Two rasters -/

/-- An operation of two rasters fails with the kind of error of zipping them: a division only
rewords its message. -/
theorem errorKind_binary_eq {op : BinaryOp} : errorKind (binary op a b) =
    errorKind (zipCells a b (op.resultType (a.type.widest b.type)) (binaryNodata op a b)
      (fun x y => combine (a.type.widest b.type) x y (op.kernel (a.type.widest b.type)))) := by
  rcases binary_eq_or_reworded op a b with h | ⟨m, m', hz, hb⟩
  · rw [h]
  · rw [hz, hb]
    rfl

/-- A division failing at run time reports a zero divisor when the right operand holds one. -/
theorem binary_div_eq_runtime {msg : String}
    (h : binary (.arith .div) a b = .error (.runtime msg)) : ∃ m,
      zipCells a b ((BinaryOp.arith .div).resultType (a.type.widest b.type))
        (binaryNodata (.arith .div) a b) (fun x y => combine (a.type.widest b.type) x y
          ((BinaryOp.arith .div).kernel (a.type.widest b.type))) = .error (.runtime m) ∧
      msg = if b.containsZero then "Division by zero not possible when resulting raster has no nodata"
        else m := by
  unfold binary at h
  dsimp only at h
  revert h
  generalize zipCells a b ((BinaryOp.arith .div).resultType (a.type.widest b.type))
    (binaryNodata (.arith .div) a b) (fun x y => combine (a.type.widest b.type) x y
      ((BinaryOp.arith .div).kernel (a.type.widest b.type))) = z
  intro h
  rcases z with e | r'
  · cases e <;> simp_all
  · cases h

theorem exists_combine_eq_none_iff (ha : a.Wf) (hb : b.Wf) (hsize : a.size = b.size)
    {w : PixelType} {k : Pixel → Pixel → Option Pixel} :
    (∃ i < a.len, combine w (a.toOptions.getD i none) (b.toOptions.getD i none) k = none) ↔
      ∃ i < a.len, ∃ x y, a.value i = .ok x ∧ b.value i = .ok y ∧ combine w x y k = none := by
  constructor
  · rintro ⟨i, hi, hnone⟩
    exact ⟨i, hi, _, _, ha.value_eq hi, hb.value_eq (len_eq_of_size_eq hsize ▸ hi), hnone⟩
  · rintro ⟨i, hi, x, y, hx, hy, hnone⟩
    rw [ha.value_eq hi, Except.ok.injEq] at hx
    rw [hb.value_eq (len_eq_of_size_eq hsize ▸ hi), Except.ok.injEq] at hy
    exact ⟨i, hi, hx ▸ hy ▸ hnone⟩

/-- An operation of two rasters fails on its configuration: the result type refuses the nodata
value of the result, or a sparse result gets none. -/
def configFails (op : BinaryOp) (a b : Raster) : Prop :=
  (op.resultType (a.type.widest b.type)).refusesNodata (binaryNodata op a b) ∨
    (a.backend = .sparse ∧
      (op.resultType (a.type.widest b.type)).nodataValue (binaryNodata op a b) = none)

/-- An operation of two rasters fails on a missing cell: the result is dense, of an integral type
and without nodata value, and some pair of cells combines to nothing. -/
def missingCellFails (op : BinaryOp) (a b : Raster) : Prop :=
  a.backend = .dense ∧ (op.resultType (a.type.widest b.type)).hasNaN = false ∧
    binaryNodata op a b = none ∧ ∃ i < a.len, ∃ x y, a.value i = .ok x ∧ b.value i = .ok y ∧
      combine (a.type.widest b.type) x y (op.kernel (a.type.widest b.type)) = none

/-- An operation of two well-formed rasters fails, check by check, on their sizes, on its
configuration and on a missing cell; past the three checks it gives a raster. -/
theorem errorKind_binary (ha : a.Wf) (hb : b.Wf) (op : BinaryOp) :
    (errorKind (binary op a b) = some "SizeMismatch" ↔ a.size ≠ b.size) ∧
    (a.size = b.size →
      (errorKind (binary op a b) = some "InvalidConfiguration" ↔ configFails op a b)) ∧
    (a.size = b.size → ¬configFails op a b →
      (errorKind (binary op a b) = some "Runtime" ↔ missingCellFails op a b)) ∧
    (a.size = b.size → ¬configFails op a b → ¬missingCellFails op a b →
      ∃ q, binary op a b = .ok q) := by
  by_cases hs : a.size = b.size
  case neg =>
    -- the sizes are checked first
    refine ⟨?_, fun h => absurd h hs, fun h => absurd h hs, fun h => absurd h hs⟩
    simp [errorKind_binary_eq, zipCells_of_size_ne hs, RasterError.kind, hs]
  case pos =>
    -- past the sizes, the operation builds the result from its cells
    have hz := zipCells_of_size_eq (t := op.resultType (a.type.widest b.type))
      (n := binaryNodata op a b) (f := fun x y => combine (a.type.widest b.type) x y
        (op.kernel (a.type.widest b.type))) hs
    have hkind := errorKind_binary_eq.trans (congrArg errorKind hz)
    obtain ⟨hconf, hrun, hok⟩ := Backend.errorKind_ofCells (b := a.backend)
      (t := op.resultType (a.type.widest b.type)) (m := a.metadata.withNodata (binaryNodata op a b))
      (c := fun i => combine (a.type.widest b.type) (a.toOptions.getD i none)
        (b.toOptions.getD i none) (op.kernel (a.type.widest b.type)))
      ha.rows_nonneg ha.cols_nonneg
    have hcells := exists_combine_eq_none_iff ha hb hs (w := a.type.widest b.type)
      (k := op.kernel (a.type.widest b.type))
    refine ⟨?_, fun _ => hkind ▸ hconf, fun _ hc => ?_, fun _ hc hm => ?_⟩
    · rw [hkind]
      simp only [ne_eq, hs, not_true_eq_false, iff_false]
      exact Backend.errorKind_ofCells_ne (m := a.metadata.withNodata (binaryNodata op a b))
        (k := "SizeMismatch") ha.rows_nonneg ha.cols_nonneg (by decide) (by decide)
    · rw [hkind, hrun hc, missingCellFails, ← hcells]
      rfl
    · obtain ⟨q, hq⟩ := hok hc (by rwa [missingCellFails, ← hcells] at hm)
      exact ⟨q, binary_eq_ok.mpr (hz ▸ hq)⟩

/-- A division failing at run time says that the divisor holds a zero exactly when it does. -/
theorem binary_div_runtime_message (ha : a.Wf) {msg : String}
    (h : binary (.arith .div) a b = .error (.runtime msg)) :
    msg = "Division by zero not possible when resulting raster has no nodata" ↔
      b.containsZero = true := by
  obtain ⟨m, hz, rfl⟩ := binary_div_eq_runtime h
  cases hcz : b.containsZero
  case true => simp
  case false =>
    -- otherwise the message is the one of the missing cell
    simp only [Bool.false_eq_true, ↓reduceIte, iff_false]
    by_cases hs : a.size = b.size
    · rw [zipCells_of_size_eq hs] at hz
      rcases Backend.ofCells_eq_error_kind
        (m := a.metadata.withNodata (binaryNodata (.arith .div) a b)) ha.rows_nonneg
        ha.cols_nonneg hz with hk | he
      · simp [RasterError.kind] at hk
      · simp only [missingCellError, RasterError.runtime.injEq] at he
        simp [he]
    · rw [zipCells_of_size_ne hs] at hz
      cases hz

/-! ### One raster -/

/-- Negating a well-formed raster is refused as an argument exactly for an unsigned type. -/
theorem errorKind_negate (hr : r.Wf) :
    errorKind r.negate = some "InvalidArgument" ↔ r.type.isSigned = false := by
  unfold negate
  cases r.type.isSigned
  · simp [RasterError.kind]
  · simpa using errorKind_mapValues_ne hr (k := "InvalidArgument") (by decide) (by decide)

/-- A scalar operation on a well-formed raster is refused as an argument exactly when the scalar
does not fit the widest type or divides by zero. -/
theorem errorKind_scalar (hr : r.Wf) {op : ScalarOp} {st : PixelType} {s : Pixel} :
    errorKind (r.scalar op st s) = some "InvalidArgument" ↔
      (r.type.widest st).cast? s = none ∨ (op = .arith .div ∧ s.isZero = true) := by
  by_cases hdiv : op = .arith .div ∧ s.isZero = true
  · obtain ⟨rfl, hz⟩ := hdiv
    simp [scalar, hz, RasterError.kind]
  · simp only [hdiv, or_false]
    cases hc : (r.type.widest st).cast? s with
    | none => simp [scalar_of_cast_eq_none hdiv hc, RasterError.kind]
    | some sw =>
      simp only [reduceCtorEq, iff_false]
      rcases scalar_eq_or_reworded hdiv hc with h | ⟨m, m', -, h⟩
      · rw [h]
        exact errorKind_mapValues_ne hr (by decide) (by decide)
      · -- a reworded division keeps its runtime error
        simp [h, RasterError.kind]

/-! ### The algebra -/

/-- How the algebra on well-formed rasters fails. An operation of two rasters fails on their sizes
exactly when they differ; past that, on its configuration exactly when the result type refuses the
result's nodata value or a sparse result gets none; past that, at run time exactly when a dense
result of an integral type without nodata value gets a missing cell, a division saying so when the
divisor holds a zero; otherwise it gives a raster. Negation is refused for unsigned types only,
and a scalar operation is refused when the scalar does not fit the widest type or divides by
zero. -/
theorem errorKind_algebra (ha : a.Wf) (hb : b.Wf) (hr : r.Wf) :
    (∀ op, (errorKind (binary op a b) = some "SizeMismatch" ↔ a.size ≠ b.size) ∧
      (a.size = b.size →
        (errorKind (binary op a b) = some "InvalidConfiguration" ↔ configFails op a b)) ∧
      (a.size = b.size → ¬configFails op a b →
        (errorKind (binary op a b) = some "Runtime" ↔ missingCellFails op a b)) ∧
      (a.size = b.size → ¬configFails op a b → ¬missingCellFails op a b →
        ∃ q, binary op a b = .ok q)) ∧
    (∀ msg, binary (.arith .div) a b = .error (.runtime msg) →
      (msg = "Division by zero not possible when resulting raster has no nodata" ↔
        b.containsZero = true)) ∧
    (errorKind r.negate = some "InvalidArgument" ↔ r.type.isSigned = false) ∧
    ∀ op st s, errorKind (r.scalar op st s) = some "InvalidArgument" ↔
      (r.type.widest st).cast? s = none ∨ (op = .arith .div ∧ s.isZero = true) :=
  ⟨errorKind_binary ha hb, fun _ h => binary_div_runtime_message ha h, errorKind_negate hr,
    fun _ _ _ => errorKind_scalar hr⟩

/-- Negating a well-formed dense raster of unsigned bytes is refused. -/
theorem errorKind_algebra_negate_unsigned :
    Raster.Wf (.dense ⟨.uint8, Metadata.sized ⟨1, 1⟩ none, #[.int 2],
        PixelType.uint8.policy none⟩) ∧
      errorKind (negate (.dense ⟨.uint8, Metadata.sized ⟨1, 1⟩ none, #[.int 2],
        PixelType.uint8.policy none⟩)) = some "InvalidArgument" := by
  have wr : Raster.Wf (.dense ⟨.uint8, Metadata.sized ⟨1, 1⟩ none, #[.int 2],
      PixelType.uint8.policy none⟩) :=
    show DenseRaster.Wf _ from ⟨⟨by decide, by decide, by decide⟩, rfl, rfl⟩
  exact ⟨wr, (errorKind_algebra wr wr wr).2.2.1.mpr rfl⟩

/-- Dividing by a zero scalar is refused as an argument, although zero fits the raster's type. -/
theorem scalar_division_by_zero_refused :
    PixelType.int32.cast? (.int 0) = some (.int 0) ∧
      scalar (.arith .div)
        (.dense ⟨.int32, Metadata.sized ⟨1, 1⟩ (some (BinaryFloat.ofInt 5)), #[.int 4],
          PixelType.int32.policy (some (BinaryFloat.ofInt 5))⟩)
        .int32 (.int 0) = .error (.invalidArgument "Division by zero") :=
  ⟨rfl, rfl⟩

end Raster

end Georaster
