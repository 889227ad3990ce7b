import Georaster.Proofs.Sparse.Cells
import Georaster.Raster.Basic
/-!
# What a raster reads back

A raster answers `value` for one cell and `toOptions` for all of them; on a well-formed raster
(`Raster.Wf`: dimensions that are counts, one value per cell in a dense or masked buffer, a mask
that is empty or flags every cell, sound rows in a sparse raster) the two agree.

A raster built from a function of the index (`Backend.ofCells`) reads back the function's cells,
with one exception that comes from the design of dense storage: a dense raster keeps its cells
in-band, so a given value that marks nodata under its policy (the nodata value of an integral
type, NaN for a floating-point type) reads back as missing (`Backend.readBack`).
-/

namespace Georaster

namespace Buffer

theorem get_of_lt {α : Type} {a : Array α} {i : Nat} (h : i < a.size) : get a i = .ok a[i] := by
  simp [get, h]

theorem size_of_set_eq_ok {α : Type} {a a' : Array α} {i : Nat} {v : α}
    (h : set a i v = .ok a') : a'.size = a.size := by
  unfold set at h
  split at h
  · cases h
    exact Array.size_setIfInBounds
  · cases h

theorem set_of_lt {α : Type} {a : Array α} {i : Nat} (h : i < a.size) (v : α) :
    set a i v = .ok (a.setIfInBounds i v) := by
  simp [set, h]

end Buffer

theorem getD_toArray {α : Type} (l : List α) (i : Nat) (d : α) :
    l.toArray.getD i d = l.getD i d := by
  by_cases h : i < l.length <;> simp [Array.getD, h, List.getD_eq_getElem?_getD]

section MapM

variable {α β : Type} {f : α → Option β}

/-- Mapping a partial function succeeds with a list exactly when the function gives its elements,
one for each. -/
theorem mapM_eq_some_iff {l : List α} {l' : List β} :
    l.mapM f = some l' ↔ List.Forall₂ (fun a b => f a = some b) l l' := by
  induction l generalizing l' with
  | nil => cases l' <;> simp
  | cons a l ih =>
    cases l' with
    | nil => cases hfa : f a <;> cases hl : l.mapM f <;> simp [List.mapM_cons, hfa, hl]
    | cons b l' =>
      rw [List.forall₂_cons, ← ih]
      cases hfa : f a <;> cases hl : l.mapM f <;> simp [List.mapM_cons, hfa, hl]

/-- Mapping a partial function fails exactly when it fails at some element. -/
theorem mapM_eq_none_iff {l : List α} : l.mapM f = none ↔ ∃ a ∈ l, f a = none := by
  induction l with
  | nil => simp
  | cons a l ih =>
    have hcons : (∃ x ∈ a :: l, f x = none) ↔ f a = none ∨ ∃ x ∈ l, f x = none := by simp
    rw [hcons, ← ih]
    cases hfa : f a <;> cases hl : l.mapM f <;> simp [List.mapM_cons, hfa, hl]

end MapM

namespace PixelType

theorem isNaN_of_nan? {t : PixelType} {m : Pixel} (h : t.nan? = some m) : m.isNaN = true := by
  cases t <;> simp [nan?] at h <;> subst h <;> decide

/-- A double converted to an integral type is an integer. -/
theorem eq_int_of_castFloat? {t : PixelType} (hnan : t.nan? = none) {x : Binary64} {v : Pixel}
    (h : t.castFloat? x = some v) : ∃ k, v = .int k := by
  have hint : t.castFloat? x = x.truncate?.bind fun k =>
      if t.holdsInt k then some (.int k) else none := by
    cases t <;> simp [nan?] at hnan <;> rfl
  rw [hint] at h
  obtain ⟨k, -, hk⟩ := Option.bind_eq_some_iff.mp h
  split at hk
  · exact ⟨k, (Option.some.inj hk).symm⟩
  · cases hk

/-- The value that a buffer of a pixel type stores for a missing cell reads back as missing: NaN
for a floating-point type, the nodata value (an integer, equal to itself) for an integral one. -/
theorem read_missingValue {t : PixelType} {n : Option Binary64} {v : Pixel}
    (h : (t.policy n).missingValue = some v) : (t.policy n).read v = none := by
  unfold PixelType.policy at h ⊢
  cases hnan : t.nan? with
  | some m =>
    simp only [hnan, NodataPolicy.missingValue, Option.some.injEq] at h
    subst h
    simp [NodataPolicy.read, NodataPolicy.isMissing, isNaN_of_nan? hnan]
  | none =>
    simp only [hnan, NodataPolicy.missingValue] at h
    obtain ⟨x, -, hx⟩ := Option.bind_eq_some_iff.mp h
    obtain ⟨k, rfl⟩ := eq_int_of_castFloat? hnan hx
    simp [NodataPolicy.read, NodataPolicy.isMissing, h, Pixel.eq]

/-- A cell written to a buffer reads back as the cell read through the policy: a value as
itself unless it marks nodata, a missing cell as missing. -/
theorem read_write {t : PixelType} {n : Option Binary64} {x : Option Pixel} {v : Pixel}
    (h : (t.policy n).write x = some v) : (t.policy n).read v = x.bind (t.policy n).read := by
  cases x with
  | some u =>
    simp only [NodataPolicy.write, Option.some.injEq] at h
    subst h
    rfl
  | none => exact read_missingValue h

end PixelType

namespace Metadata

/-- The dimensions are counts of rows and of columns, the columns fitting a machine word. -/
structure Dims (m : Metadata) : Prop where
  rows_nonneg : 0 ≤ m.rows
  cols_nonneg : 0 ≤ m.cols
  cols_lt : m.cols < wordSize

end Metadata

/-! ### Dense rasters -/

namespace DenseRaster

/-- A dense raster is well formed when its dimensions are counts, its buffer holds one value per
cell, and it reads the buffer through the policy of its pixel type and nodata value. -/
structure Wf (d : DenseRaster) : Prop where
  dims : d.metadata.Dims
  size_data : d.data.size = d.len
  policy_eq : d.policy = d.type.policy d.metadata.nodata

variable {d : DenseRaster}

@[simp] theorem length_toOptions (d : DenseRaster) : d.toOptions.length = d.data.size := by
  simp [toOptions]

theorem Wf.value_eq (h : d.Wf) {i : Nat} (hi : i < d.len) :
    d.value i = .ok (d.toOptions.getD i none) := by
  have hi' : i < d.data.size := h.size_data ▸ hi
  simp [value, toOptions, Buffer.get_of_lt hi', List.getD_eq_getElem?_getD, hi']

theorem ofData_eq_ok {t : PixelType} {m : Metadata} {data : Array Pixel} :
    ofData t m data = .ok d ↔ t.validateNodata m.nodata = .ok () ∧ 0 ≤ m.rows ∧ 0 ≤ m.cols ∧
      m.cellCount = data.size ∧ d = ⟨t, m, data, t.policy m.nodata⟩ := by
  unfold ofData
  cases hv : t.validateNodata m.nodata with
  | error e => simp
  | ok u =>
    cases hc : m.checkDataSize data.size with
    | error e =>
      simp only [ok_bind, error_bind, reduceCtorEq, false_iff]
      rintro ⟨-, h0, h1, hn, -⟩
      rw [SparseRaster.checkDataSize_eq_ok.mpr ⟨h0, h1, hn⟩] at hc
      cases hc
    | ok u' =>
      obtain ⟨h0, h1, hn⟩ := SparseRaster.checkDataSize_eq_ok.mp hc
      simp [h0, h1, hn, eq_comm]

/-- A dense raster built from a function of the index stores every cell in-band: it reads each
cell back through the policy of its type and nodata value. -/
theorem ofCells_eq_ok {t : PixelType} {m : Metadata} {cell : Nat → Option Pixel}
    (hm : m.cols < wordSize) (h : ofCells t m cell = .ok d) :
    d.Wf ∧ d.type = t ∧ d.metadata = m ∧
      ∀ i < m.cellCount, d.value i = .ok ((cell i).bind (t.policy m.nodata).read) := by
  unfold ofCells at h
  obtain ⟨-, -, h⟩ := bind_eq_ok.mp h
  dsimp only at h
  split at h
  · rename_i data hdata
    obtain ⟨-, h0, h1, hsize, rfl⟩ := ofData_eq_ok.mp h
    have hall := mapM_eq_some_iff.mp hdata
    have hlen : data.length = m.cellCount := by simpa using hall.length_eq.symm
    refine ⟨⟨⟨h0, h1, hm⟩, by simpa [len] using hlen, rfl⟩, rfl, rfl, fun i hi => ?_⟩
    -- the buffer holds at `i` the value written for cell `i`
    have hi' : i < data.length := by omega
    have hw : (t.policy m.nodata).write (cell i) = some data[i] := by
      simpa using hall.get (by simpa using hi) hi'
    rw [value, Buffer.get_of_lt (show i < data.toArray.size by simpa using hi'), ok_map,
      List.getElem_toArray, PixelType.read_write hw]
  · cases h

end DenseRaster

/-! ### Masked rasters -/

namespace MaskedRaster

/-- A masked raster is well formed when its dimensions are counts, its buffer holds one value per
cell and its mask is empty or flags every cell. -/
structure Wf (r : MaskedRaster) : Prop where
  dims : r.metadata.Dims
  size_data : r.data.size = r.len
  size_mask : r.mask = #[] ∨ r.mask.size = r.data.size

variable {r : MaskedRaster}

@[simp] theorem length_toOptions (r : MaskedRaster) : r.toOptions.length = r.data.size := by
  simp [toOptions]

/-- A cell reads as missing where the mask flags it, and as the buffer's value elsewhere. -/
theorem Wf.value_eq (h : r.Wf) {i : Nat} (hi : i < r.len) :
    r.value i = .ok (r.toOptions.getD i none) := by
  have hi' : i < r.data.size := h.size_data ▸ hi
  have hcell : r.toOptions.getD i none = r.cellAt i := by
    simp [toOptions, List.getD_eq_getElem?_getD, hi']
  rw [hcell, value, flagged, cellAt]
  by_cases hm : r.mask.isEmpty
  · -- no cell is flagged
    have hnil : r.mask = #[] := Array.isEmpty_iff.mp hm
    simp [hnil, Buffer.get_of_lt hi', hi']
  · -- the mask flags every cell
    have hmi : i < r.mask.size := by
      rcases h.size_mask with hnil | hsize
      · simp [hnil] at hm
      · omega
    simp [hm, Buffer.get_of_lt hmi, Buffer.get_of_lt hi', hi', Array.getD, hmi]
    split <;> rfl

theorem ofData_eq_ok {t : PixelType} {m : Metadata} {data : Array Pixel} {mask : Array Bool} :
    ofData t m data mask = .ok r ↔ t.validateNodata m.nodata = .ok () ∧ 0 ≤ m.rows ∧ 0 ≤ m.cols ∧
      m.cellCount = data.size ∧ (mask = #[] ∨ mask.size = data.size) ∧ r = ⟨t, m, data, mask⟩ := by
  unfold ofData
  cases hv : t.validateNodata m.nodata with
  | error e => simp
  | ok u =>
    cases hc : m.checkDataSize data.size with
    | error e =>
      simp only [ok_bind, error_bind, reduceCtorEq, false_iff]
      rintro ⟨-, h0, h1, hn, -⟩
      rw [SparseRaster.checkDataSize_eq_ok.mpr ⟨h0, h1, hn⟩] at hc
      cases hc
    | ok u' =>
      obtain ⟨h0, h1, hn⟩ := SparseRaster.checkDataSize_eq_ok.mp hc
      by_cases hmask : mask = #[] ∨ mask.size = data.size
      · -- the mask is empty or of the buffer's size: the raster is built
        simp only [ok_bind]
        rw [if_neg (by rcases hmask with rfl | hs <;> simp_all)]
        simp only [pure_eq_ok]
        constructor
        · rintro rfl
          exact ⟨by simp, h0, h1, hn, hmask, rfl⟩
        · rintro ⟨-, -, -, -, -, rfl⟩
          rfl
      · -- a mask of another size is refused
        have hbad := not_or.mp hmask
        simp only [ok_bind]
        rw [if_pos (by simp [hbad.1, hbad.2])]
        simp only [reduceCtorEq, false_iff]
        rintro ⟨-, -, -, -, hsize, -⟩
        exact hmask hsize

/-- A masked raster built from a function of the index flags exactly the missing cells and reads
every cell back as given. -/
theorem ofCells_eq_ok {t : PixelType} {m : Metadata} {cell : Nat → Option Pixel}
    (hm : m.cols < wordSize) (h : ofCells t m cell = .ok r) :
    r.Wf ∧ r.type = t ∧ r.metadata = m ∧ ∀ i < m.cellCount, r.value i = .ok (cell i) := by
  unfold ofCells at h
  obtain ⟨-, -, h⟩ := bind_eq_ok.mp h
  dsimp only at h
  obtain ⟨-, h0, h1, hsize, -, rfl⟩ := ofData_eq_ok.mp h
  simp only [List.size_toArray, Array.size_map, List.length_map, List.length_range] at hsize
  refine ⟨⟨⟨h0, h1, hm⟩, by simp [len], ?_⟩, rfl, rfl, fun i hi => ?_⟩
  · split <;> simp
  · -- the mask is kept exactly when some cell is missing
    set cells := (List.range m.cellCount).map cell with hcells
    set mask := cells.toArray.map Option.isNone with hmask
    have hi' : i < cells.length := by simpa [hcells] using hi
    have hcell : cells[i] = cell i := by simp [hcells]
    have hdata : Buffer.get (cells.map fun x => x.getD ((t.nodataValue m.nodata).getD t.zero)).toArray
        i = .ok ((cell i).getD ((t.nodataValue m.nodata).getD t.zero)) := by
      rw [Buffer.get_of_lt (by simpa using hi')]
      simp [hcell]
    simp only [value, flagged]
    by_cases hany : mask.any id = true
    · have hne : ¬mask.isEmpty = true := by
        intro he
        simp [Array.isEmpty_iff.mp he] at hany
      have hflag : Buffer.get mask i = .ok (cell i).isNone := by
        rw [Buffer.get_of_lt (by simpa [hmask] using hi')]
        simp [hmask, hcell]
      rw [if_pos hany, if_neg hne, hflag, ok_bind]
      cases hc : cell i with
      | none => rfl
      | some v => simp [hdata, hc]
    · -- no cell is missing
      have hsome : (cell i).isSome := by
        by_contra hnone
        apply hany
        simp only [hmask, Array.any_eq_true]
        exact ⟨i, by simpa using hi', by simpa [hcell] using hnone⟩
      obtain ⟨v, hv⟩ := Option.isSome_iff_exists.mp hsome
      rw [if_neg hany]
      simp [hdata, hv]

end MaskedRaster

/-! ### Sparse rasters -/

namespace SparseRaster

/-- A sparse raster is well formed when it lays out sound rows and its columns fit a machine
word. -/
structure Wf (s : SparseRaster) : Prop where
  layout : ∃ rows, s.Layout rows
  cols_lt : s.metadata.cols < wordSize

variable {s : SparseRaster}

theorem Wf.length_toOptions (h : s.Wf) : s.toOptions.length = s.len := by
  obtain ⟨⟨rows, hr⟩, hw⟩ := h
  simp [hr.toOptions_eq hw]

theorem Wf.value_eq (h : s.Wf) {i : Nat} (hi : i < s.len) :
    s.value i = .ok (s.toOptions.getD i none) := by
  obtain ⟨⟨rows, hr⟩, hw⟩ := h
  rw [hr.value_eq hw hi, hr.toOptions_eq hw]
  simp [List.getD_eq_getElem?_getD, hi]

/-- The cell of the rows collected from a function of the index is the function's cell. -/
theorem cellOf_rowsOfCells {rows cols : Nat} (cell : Nat → Option Pixel) {i : Nat}
    (hi : i < rows * cols) : cellOf (rowsOfCells rows cols cell) cols i = cell i := by
  have hpos : 0 < cols := Nat.pos_of_ne_zero fun h0 => by simp [h0] at hi
  have hk : i / cols < (rowsOfCells rows cols cell).length := by
    simpa [rowsOfCells] using (Nat.div_lt_iff_lt_mul hpos).mpr hi
  have hrow : (rowsOfCells rows cols cell)[i / cols] = (List.range cols).filterMap fun c =>
      (cell (i / cols * cols + c)).map fun v => ((c : Int), v) := by
    simp [rowsOfCells]
  have hok : ∀ row ∈ rowsOfCells rows (cols : Int).toNat cell, RowOk (cols : Int) row :=
    rowOk_rowsOfCells (Int.natCast_nonneg _)
  rw [Int.toNat_natCast] at hok
  have hd := ((hok _ (List.getElem_mem hk)).sorted).imp Int.ne_of_lt
  rw [cellOf, ← List.getElem_eq_getD (h := hk) []]
  rw [hrow] at hd ⊢
  cases hc : cell i with
  | none =>
    -- no column of the row is the cell's
    apply valueIn_eq_none_iff.mpr
    intro hmem
    obtain ⟨e, he, hce⟩ := List.mem_map.mp hmem
    obtain ⟨c, -, hce'⟩ := List.mem_filterMap.mp he
    obtain ⟨v, hv, rfl⟩ := Option.map_eq_some_iff.mp hce'
    have hcol : c = i % cols := Int.ofNat_inj.mp hce
    rw [hcol, Nat.div_add_mod', hc] at hv
    cases hv
  | some v =>
    apply (valueIn_eq_some_iff hd).mpr
    apply List.mem_filterMap.mpr
    exact ⟨i % cols, List.mem_range.mpr (Nat.mod_lt _ hpos), by simp [Nat.div_add_mod', hc]⟩

/-- A sparse raster built from a function of the index stores its data cells and reads every
cell back as given. -/
theorem ofCells_eq_ok {t : PixelType} {m : Metadata} {cell : Nat → Option Pixel}
    (hm : m.cols < wordSize) (h : ofCells t m cell = .ok s) :
    s.Wf ∧ s.type = t ∧ s.metadata = m ∧ ∀ i < m.cellCount, s.value i = .ok (cell i) := by
  have hl := layout_ofCells h
  have htm : s.type = t ∧ s.metadata = m := by
    rw [ofCells_eq] at h
    obtain ⟨r₀, h₀, hr⟩ := bind_eq_ok.mp h
    obtain ⟨n, -, -, -, rfl⟩ := empty_eq_ok.mp h₀
    simp only [pure_eq_ok] at hr
    subst hr
    exact ⟨rfl, rfl⟩
  obtain ⟨ht, hmeta⟩ := htm
  subst ht hmeta
  refine ⟨⟨⟨_, hl⟩, hm⟩, rfl, rfl, fun i hi => ?_⟩
  rw [hl.value_eq hm hi, cellOf_rowsOfCells]
  simpa [Metadata.cellCount, Metadata.size] using hi

end SparseRaster

/-! ### Every storage -/

namespace Raster

/-- A raster is well formed when its storage is. -/
def Wf : Raster → Prop
  | dense d => d.Wf
  | masked m => m.Wf
  | sparse s => s.Wf

variable {r : Raster}

/-- On a well-formed raster, the cell at an index is the cell at that position of the list of all
cells. -/
theorem Wf.value_eq (h : r.Wf) {i : Nat} (hi : i < r.len) :
    r.value i = .ok (r.toOptions.getD i none) := by
  cases r with
  | dense d => exact DenseRaster.Wf.value_eq h hi
  | masked m => exact MaskedRaster.Wf.value_eq h hi
  | sparse s => exact SparseRaster.Wf.value_eq h hi

theorem Wf.length_toOptions (h : r.Wf) : r.toOptions.length = r.len := by
  cases r with
  | dense d => exact (DenseRaster.length_toOptions d).trans h.size_data
  | masked m => exact (MaskedRaster.length_toOptions m).trans h.size_data
  | sparse s => exact SparseRaster.Wf.length_toOptions h

/-- `r` is a well-formed raster of storage `b`, pixel type `t` and metadata `m` whose cell `i`
reads `cell i`, for every cell of the grid. -/
structure Holds (r : Raster) (b : Backend) (t : PixelType) (m : Metadata)
    (cell : Nat → Option Pixel) : Prop where
  wf : r.Wf
  backend_eq : r.backend = b
  type_eq : r.type = t
  metadata_eq : r.metadata = m
  value_eq : ∀ i < m.cellCount, r.value i = .ok (cell i)

theorem Wf.cols_lt (h : r.Wf) : r.metadata.cols < wordSize := by
  cases r with
  | dense d => exact h.dims.cols_lt
  | masked m => exact h.dims.cols_lt
  | sparse s => exact h.cols_lt

theorem Wf.rows_nonneg (h : r.Wf) : 0 ≤ r.metadata.rows := by
  cases r with
  | dense d => exact h.dims.rows_nonneg
  | masked m => exact h.dims.rows_nonneg
  | sparse s => exact h.layout.elim fun _ hl => hl.rows_nonneg

theorem Wf.cols_nonneg (h : r.Wf) : 0 ≤ r.metadata.cols := by
  cases r with
  | dense d => exact h.dims.cols_nonneg
  | masked m => exact h.dims.cols_nonneg
  | sparse s => exact h.layout.elim fun _ hl => hl.cols_nonneg

end Raster

namespace Backend

/-- The cell that a raster of this storage, of type `t` and nodata value `n`, reads back when
given the cell `x`: a dense raster stores a value in-band, so a value that marks nodata reads
back as missing; the other storages keep the cell as given. -/
def readBack (b : Backend) (t : PixelType) (n : Option Binary64) (x : Option Pixel) :
    Option Pixel :=
  match b with
  | dense => x.bind (t.policy n).read
  | masked | sparse => x

/-- A raster built from a function of the index has the storage, type and metadata asked for, and
reads back every cell given. -/
theorem ofCells_eq_ok {b : Backend} {t : PixelType} {m : Metadata} {cell : Nat → Option Pixel}
    {r : Raster} (hm : m.cols < wordSize) (h : b.ofCells t m cell = .ok r) :
    r.Holds b t m fun i => b.readBack t m.nodata (cell i) := by
  cases b with
  | dense =>
    obtain ⟨d, hd, rfl⟩ := map_eq_ok.mp h
    obtain ⟨hw, ht, hmeta, hv⟩ := DenseRaster.ofCells_eq_ok hm hd
    exact ⟨hw, rfl, ht, hmeta, hv⟩
  | masked =>
    obtain ⟨k, hk, rfl⟩ := map_eq_ok.mp h
    obtain ⟨hw, ht, hmeta, hv⟩ := MaskedRaster.ofCells_eq_ok hm hk
    exact ⟨hw, rfl, ht, hmeta, hv⟩
  | sparse =>
    obtain ⟨s, hs, rfl⟩ := map_eq_ok.mp h
    obtain ⟨hw, ht, hmeta, hv⟩ := SparseRaster.ofCells_eq_ok hm hs
    exact ⟨hw, rfl, ht, hmeta, hv⟩

end Backend

end Georaster
