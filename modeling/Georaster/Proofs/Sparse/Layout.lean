import Georaster.Raster.Sparse
import Georaster.Proofs.Outcome
/-!
# Compressed sparse rows as a list of rows

The three lists of a sparse raster lay out a list of rows, each a list of (column, value)
entries: the offsets are the running lengths of the rows, and the columns and the values are
the rows' concatenation. The storage invariant of a sparse raster (`Csr`) is stated on the
three lists themselves; it follows from the raster laying out one sound row per grid row
(`Layout`), which is the form every construction and edit is proved to keep.
-/

namespace Georaster

namespace SparseRaster

/-- A row of a sparse raster: its entries as (column, value). -/
abbrev Row := List (Int × Pixel)

/-- The offsets that lay out rows: the running lengths from zero. -/
def offsetsOf (rows : List Row) : List Nat := (rows.map List.length).scanl (· + ·) 0

@[simp] theorem length_offsetsOf (rows : List Row) :
    (offsetsOf rows).length = rows.length + 1 := by
  simp [offsetsOf]

/-- The offset of row `k` is the number of entries of the rows before it. -/
theorem getD_offsetsOf (rows : List Row) {k : Nat} (hk : k ≤ rows.length) :
    (offsetsOf rows).getD k 0 = ((rows.take k).map List.length).sum := by
  rw [List.getD_eq_getElem?_getD, offsetsOf, List.getElem?_scanl]
  simp [hk, List.sum_eq_foldl_nat]

theorem offsetsOf_append (rows : List Row) (row : Row) :
    offsetsOf (rows ++ [row]) = offsetsOf rows ++ [(rows.map List.length).sum + row.length] := by
  simp [offsetsOf, List.scanl_append, List.sum_eq_foldl_nat]

/-- The entries of row `k` lie between offset `k` and offset `k + 1` of the concatenation. -/
theorem extract_flatten {α : Type} (L : List (List α)) {k : Nat} (hk : k < L.length) :
    L.flatten.extract ((L.take k).map List.length).sum ((L.take (k + 1)).map List.length).sum =
      L[k] := by
  induction L generalizing k with
  | nil => simp at hk
  | cons l L ih =>
    cases k with
    | zero => simp
    | succ k =>
      have h := ih (k := k) (by simpa using hk)
      simp only [List.extract_eq_take_drop, List.map_take] at h
      have past : (l.drop (l.length + ((L.map List.length).take k).sum)) = [] :=
        List.drop_eq_nil_of_le (Nat.le_add_right _ _)
      simpa [List.drop_append, List.map_take, Nat.add_sub_add_left, past] using h

/-- Row `k` of the concatenation of one projection of the rows lies between offsets `k` and
`k + 1`. -/
theorem extract_flatMap {β : Type} (rows : List Row) (f : Int × Pixel → β) {k : Nat}
    (hk : k < rows.length) :
    (rows.flatMap (·.map f)).extract ((rows.take k).map List.length).sum
      ((rows.take (k + 1)).map List.length).sum = rows[k].map f := by
  have h := extract_flatten (rows.map (·.map f)) (k := k) (by simpa using hk)
  simpa [List.flatMap_def, List.map_take, Function.comp_def] using h

theorem flatMap_map_eq {β : Type} (rows : List Row) (g : Int × Pixel → β) :
    rows.flatMap (·.map g) = rows.flatten.map g := by
  rw [List.flatMap_def, List.map_flatten]

/-- A row is sound in a grid of `cols` columns: its columns increase strictly and lie in the
grid. -/
structure RowOk (cols : Int) (row : Row) : Prop where
  sorted : (row.map (·.1)).Pairwise (· < ·)
  col_mem : ∀ e ∈ row, 0 ≤ e.1 ∧ e.1 < cols

@[simp] theorem RowOk.nil (cols : Int) : RowOk cols [] :=
  ⟨List.Pairwise.nil, fun _ he => absurd he List.not_mem_nil⟩

/-- The storage invariant of a sparse raster, on its three lists: `rows + 1` offsets from zero,
nondecreasing and ending at the number of entries, as many columns as values, the columns of
each row strictly increasing within the grid, and the nodata value the metadata's, usable by the
pixel type. -/
structure Csr (r : SparseRaster) : Prop where
  rows_nonneg : 0 ≤ r.metadata.rows
  cols_nonneg : 0 ≤ r.metadata.cols
  length_offsets : r.rowOffsets.length = r.metadata.rows.toNat + 1
  offset_zero : r.offset 0 = 0
  offset_mono : ∀ k < r.metadata.rows.toNat, r.offset k ≤ r.offset (k + 1)
  offset_last : r.offset r.metadata.rows.toNat = r.values.length
  length_cols : r.colIndices.length = r.values.length
  sorted : ∀ k < r.metadata.rows.toNat,
    (r.colIndices.extract (r.offset k) (r.offset (k + 1))).Pairwise (· < ·)
  col_mem : ∀ k < r.metadata.rows.toNat,
    ∀ c ∈ r.colIndices.extract (r.offset k) (r.offset (k + 1)), 0 ≤ c ∧ c < r.metadata.cols
  nodata_valid : r.type.validateNodata r.metadata.nodata = .ok ()
  nodata_eq : r.type.nodataValue r.metadata.nodata = some r.nodata

/-- The lists of `r` lay out `rows`, one sound row for each row of the grid, and the nodata value
is the metadata's, usable by the pixel type. -/
structure Layout (r : SparseRaster) (rows : List Row) : Prop where
  rows_nonneg : 0 ≤ r.metadata.rows
  cols_nonneg : 0 ≤ r.metadata.cols
  length_rows : rows.length = r.metadata.rows.toNat
  row_ok : ∀ row ∈ rows, RowOk r.metadata.cols row
  offsets_eq : r.rowOffsets = offsetsOf rows
  cols_eq : r.colIndices = rows.flatMap (·.map (·.1))
  values_eq : r.values = rows.flatMap (·.map (·.2))
  nodata_valid : r.type.validateNodata r.metadata.nodata = .ok ()
  nodata_eq : r.type.nodataValue r.metadata.nodata = some r.nodata

namespace Layout

variable {r : SparseRaster} {rows : List Row}

theorem offset_eq (h : r.Layout rows) {k : Nat} (hk : k ≤ rows.length) :
    r.offset k = ((rows.take k).map List.length).sum := by
  rw [offset, h.offsets_eq, getD_offsetsOf rows hk]

theorem offset_succ (h : r.Layout rows) {k : Nat} (hk : k < rows.length) :
    r.offset (k + 1) = r.offset k + rows[k].length := by
  rw [h.offset_eq hk, h.offset_eq (Nat.le_of_lt hk), List.map_take, List.map_take,
    List.sum_take_succ _ _ (by simpa using hk), List.getElem_map]

theorem length_values (h : r.Layout rows) :
    r.values.length = (rows.map List.length).sum := by
  simp [h.values_eq, List.length_flatMap]

theorem extract_cols (h : r.Layout rows) {k : Nat} (hk : k < rows.length) :
    r.colIndices.extract (r.offset k) (r.offset (k + 1)) = rows[k].map (·.1) := by
  rw [h.offset_eq (Nat.le_of_lt hk), h.offset_eq hk, h.cols_eq]
  exact extract_flatMap rows _ hk

theorem extract_values (h : r.Layout rows) {k : Nat} (hk : k < rows.length) :
    r.values.extract (r.offset k) (r.offset (k + 1)) = rows[k].map (·.2) := by
  rw [h.offset_eq (Nat.le_of_lt hk), h.offset_eq hk, h.values_eq]
  exact extract_flatMap rows _ hk

/-- The entries of the rows, paired back from the columns and the values. -/
theorem zip_eq_flatten (h : r.Layout rows) : r.colIndices.zip r.values = rows.flatten :=
  (List.zip_of_prod (by rw [h.cols_eq, flatMap_map_eq]) (by rw [h.values_eq, flatMap_map_eq])).symm

/-- Lists built from other sound rows, as many as the grid has, lay them out in place of `r`'s. -/
theorem of_rows (h : r.Layout rows) {rows' : List Row} (hlen : rows'.length = rows.length)
    (hok : ∀ row ∈ rows', RowOk r.metadata.cols row) {offsets : List Nat} {cols : List Int}
    {values : List Pixel} (hoff : offsets = offsetsOf rows')
    (hcols : cols = rows'.flatMap (·.map (·.1))) (hvals : values = rows'.flatMap (·.map (·.2))) :
    ({ r with rowOffsets := offsets, colIndices := cols, values } : SparseRaster).Layout rows' where
  rows_nonneg := h.rows_nonneg
  cols_nonneg := h.cols_nonneg
  length_rows := hlen.trans h.length_rows
  row_ok := hok
  offsets_eq := hoff
  cols_eq := hcols
  values_eq := hvals
  nodata_valid := h.nodata_valid
  nodata_eq := h.nodata_eq

/-- A raster that lays out sound rows satisfies the storage invariant. -/
theorem csr (h : r.Layout rows) : r.Csr where
  rows_nonneg := h.rows_nonneg
  cols_nonneg := h.cols_nonneg
  length_offsets := by rw [h.offsets_eq, length_offsetsOf, h.length_rows]
  offset_zero := by simp [h.offset_eq (Nat.zero_le _)]
  offset_mono := by
    intro k hk
    rw [h.offset_succ (by rw [h.length_rows]; exact hk)]
    exact Nat.le_add_right _ _
  offset_last := by
    rw [h.offset_eq (Nat.le_of_eq h.length_rows.symm), ← h.length_rows, List.take_length,
      h.length_values]
  length_cols := by simp [h.cols_eq, h.values_eq, List.length_flatMap]
  sorted := by
    intro k hk
    rw [h.extract_cols (by rw [h.length_rows]; exact hk)]
    exact (h.row_ok _ (List.getElem_mem _)).sorted
  col_mem := by
    intro k hk c hc
    rw [h.extract_cols (by rw [h.length_rows]; exact hk), List.mem_map] at hc
    obtain ⟨e, he, rfl⟩ := hc
    exact (h.row_ok _ (List.getElem_mem _)).col_mem e he
  nodata_valid := h.nodata_valid
  nodata_eq := h.nodata_eq

end Layout

end SparseRaster

end Georaster
