import Georaster.Proofs.Raster.CellWrite
import Georaster.Proofs.Grid.RowMajor
import Georaster.Proofs.Sparse.Triplets
/-!
# Reading and writing a raster by cell

`cellValue`, `cellIsNodata`, `setCellValue` (which with `none` marks the cell missing) and a
masked raster's `markCellAsData` locate a cell by its row-major index `row * cols + col`. The
index is refused only for a cell with a negative coordinate; each storage then checks the index
alone, against its buffer or its row offsets. So:

* a cell with a negative coordinate makes every operation abort with the same text
  (`Raster.AbortsWith`);
* a valid cell whose index lies in the grid is handled as the cell of that index
  (`Raster.ActsAt`): reading gives that cell, writing writes it and no other;
* a valid cell whose index lies past the grid makes every operation abort, except that a masked
  raster without a mask reads it as data and marks it as data by doing nothing
  (`Raster.AbortsAt`).

The index of a valid cell lies in the grid and is that of the cell itself exactly when the cell
lies in the raster (`Cell.containsCell_iff_ofDivMod`). A cell past the last column of a row other
than the last has an index in the grid too, and stands for a cell of a later row
(`Raster.cellValue_past_last_column`). `Raster.Reachable.cellAccess` collects the three cases.
-/

namespace Georaster

/-- The computation aborts: the program panics, reporting no error and giving no result. -/
def Aborts {α : Type} (x : Outcome α) : Prop := ∃ t, x = .error (.abort t)

namespace Aborts

variable {α β : Type} {x : Outcome α}

theorem of_abort (t : String) : Aborts (abort t : Outcome α) := ⟨t, rfl⟩

theorem bind (h : Aborts x) (f : α → Outcome β) : Aborts (x >>= f) := by
  obtain ⟨t, rfl⟩ := h
  exact ⟨t, rfl⟩

theorem map (h : Aborts x) (f : α → β) : Aborts (x.map f) := by
  obtain ⟨t, rfl⟩ := h
  exact ⟨t, rfl⟩

end Aborts

namespace Buffer

variable {α : Type} {i : Nat}

theorem get_aborts {a : Array α} (h : a.size ≤ i) : Aborts (get a i) :=
  ⟨outOfBounds a.size i, by simp [get, Array.getElem?_eq_none h]⟩

theorem set_aborts {a : Array α} (h : a.size ≤ i) (v : α) : Aborts (set a i v) :=
  ⟨outOfBounds a.size i, by simp [set, Nat.not_lt.mpr h]⟩

theorem nth_aborts {l : List α} (h : l.length ≤ i) : Aborts (nth l i) :=
  ⟨outOfBounds l.length i, by simp [nth, List.getElem?_eq_none h]⟩

end Buffer

/-! ### Past the end of each storage -/

namespace DenseRaster

variable {d : DenseRaster} {i : Nat}

theorem Wf.value_aborts (h : d.Wf) (hi : d.len ≤ i) : Aborts (d.value i) :=
  (Buffer.get_aborts (h.size_data ▸ hi)).map _

theorem Wf.isNodata_aborts (h : d.Wf) (hi : d.len ≤ i) : Aborts (d.isNodata i) :=
  (Buffer.get_aborts (h.size_data ▸ hi)).map _

/-- Past the end a write aborts, whether or not the value to store for it could be found. -/
theorem Wf.setValue_aborts (h : d.Wf) (hi : d.len ≤ i) (v : Option Pixel) :
    Aborts (d.setValue i v) := by
  have hset : ∀ x, Aborts (Buffer.set d.data i x) := Buffer.set_aborts (h.size_data ▸ hi)
  unfold setValue
  cases v with
  | some x => exact (hset x).bind _
  | none =>
    cases hm : d.policy.missingValue with
    | some n => exact (hset n).bind _
    | none => exact (Aborts.of_abort _).bind _

end DenseRaster

namespace MaskedRaster

variable {k k' : MaskedRaster} {i : Nat}

theorem Wf.size_mask_le (h : k.Wf) : k.mask.size ≤ k.data.size := by
  rcases h.size_mask with hm | hm <;> simp [hm]

theorem Wf.size_ensureMask_le (h : k.Wf) : k.ensureMask.mask.size ≤ k.data.size := by
  unfold ensureMask
  split
  · simp
  · exact h.size_mask_le

/-- Without a mask no cell is flagged, whatever the index. -/
theorem isNodata_of_mask_eq_empty (hm : k.mask = #[]) (i : Nat) : k.isNodata i = .ok false := by
  simp [isNodata, flagged, hm]

theorem markAsData_of_mask_eq_empty (hm : k.mask = #[]) (i : Nat) : k.markAsData i = .ok k := by
  simp [markAsData, hm]

theorem Wf.value_aborts (h : k.Wf) (hi : k.len ≤ i) : Aborts (k.value i) := by
  have hd : k.data.size ≤ i := h.size_data ▸ hi
  unfold value flagged
  by_cases hm : k.mask.isEmpty
  · -- no cell is flagged, and the value is read past the end of the buffer
    rw [if_pos hm]
    simpa using (Buffer.get_aborts hd).map some
  · rw [if_neg hm]
    exact (Buffer.get_aborts (h.size_mask_le.trans hd)).bind _

theorem Wf.isNodata_aborts (h : k.Wf) (hm : k.mask ≠ #[]) (hi : k.len ≤ i) :
    Aborts (k.isNodata i) := by
  have hne : k.mask.isEmpty = false := by simpa using hm
  unfold isNodata flagged
  simp only [hne, Bool.false_eq_true, if_false]
  exact Buffer.get_aborts (h.size_mask_le.trans (h.size_data ▸ hi))

theorem Wf.setValue_aborts (h : k.Wf) (hi : k.len ≤ i) (v : Option Pixel) :
    Aborts (k.setValue i v) := by
  have hd : k.data.size ≤ i := h.size_data ▸ hi
  cases v with
  | some x => exact (Buffer.set_aborts hd x).bind _
  | none => exact (Buffer.set_aborts (h.size_ensureMask_le.trans hd) true).bind _

theorem Wf.markAsData_aborts (h : k.Wf) (hm : k.mask ≠ #[]) (hi : k.len ≤ i) :
    Aborts (k.markAsData i) := by
  have hne : k.mask.isEmpty = false := by simpa using hm
  unfold markAsData
  simp only [hne, Bool.false_eq_true, if_false]
  exact (Buffer.set_aborts (h.size_mask_le.trans (h.size_data ▸ hi)) false).bind _

/-! ### Marking a cell of a masked raster as data -/

theorem Wf.mask_eq_empty_or_lt (h : k.Wf) (hi : i < k.data.size) :
    k.mask = #[] ∨ i < k.mask.size := by
  rcases h.size_mask with hm | hm
  · exact .inl hm
  · exact .inr (hm ▸ hi)

/-- Inside the buffer, marking a cell as data clears its flag; without a mask there is none to
clear. -/
theorem Wf.markAsData_of_lt (h : k.Wf) (hi : i < k.data.size) :
    k.markAsData i = .ok { k with mask := k.mask.setIfInBounds i false } := by
  unfold markAsData
  rcases h.mask_eq_empty_or_lt hi with hm | hm
  · cases k
    simp_all
  · have hne : k.mask.isEmpty = false := by
      rw [Array.isEmpty_eq_false_iff, ← Array.size_pos_iff]
      omega
    simp [hne, Buffer.set, hm]

/-- Clearing the flag of cell `i` makes it read the value in the buffer, and keeps every other
cell. -/
theorem cellAt_clear (hm : k.mask = #[] ∨ i < k.mask.size) (j : Nat) :
    ({ k with mask := k.mask.setIfInBounds i false } : MaskedRaster).cellAt j =
      if j = i then k.data[i]? else k.cellAt j := by
  by_cases hji : j = i
  · subst hji
    have hflag : (k.mask.setIfInBounds j false).getD j false = false := by
      rcases hm with hnil | hlt
      · simp [hnil]
      · simp [Array.getElem?_setIfInBounds_self_of_lt hlt]
    simp [cellAt, hflag]
  · simp [cellAt, hji, Array.getElem?_setIfInBounds_ne (Ne.symm hji)]

/-- Marking a cell of the buffer as data replaces that cell of the list of all cells with the value
in the buffer. -/
theorem Wf.toOptions_markAsData (h : k.Wf) (hi : i < k.data.size)
    (hk : k.markAsData i = .ok k') : k'.toOptions = k.toOptions.set i k.data[i]? := by
  rw [h.markAsData_of_lt hi, Except.ok.injEq] at hk
  subst hk
  exact toOptions_eq_set rfl (cellAt_clear (h.mask_eq_empty_or_lt hi))

end MaskedRaster

/-! ### Past the end of a sparse raster -/

namespace SparseRaster

variable {s : SparseRaster} {rows : List Row} {i : Nat}

/-- Past the end of a laid-out raster the row of the index has no offset after it. -/
theorem Layout.position_aborts (h : s.Layout rows) (hw : s.metadata.cols < wordSize)
    (hi : s.len ≤ i) : Aborts (s.position i) := by
  unfold position
  by_cases h0 : s.width = 0
  · simp only [h0, if_true]
    exact Aborts.of_abort _
  · simp only [h0, if_false]
    have hrow : rows.length ≤ i / s.width := by
      rw [Nat.le_div_iff_mul_le (Nat.pos_of_ne_zero h0), h.length_rows,
        width_eq h.cols_nonneg hw]
      simpa [len, Metadata.cellCount, Metadata.size] using hi
    have hlen : s.rowOffsets.length = rows.length + 1 := by rw [h.offsets_eq, length_offsetsOf]
    by_cases hlast : i / s.width = rows.length
    · rw [hlast, h.nth_offsets (Nat.le_refl _), ok_bind]
      exact (Buffer.nth_aborts (by omega)).bind _
    · exact (Buffer.nth_aborts (by omega)).bind _

theorem Wf.position_aborts (h : s.Wf) (hi : s.len ≤ i) : Aborts (s.position i) :=
  h.layout.elim fun _ hl => hl.position_aborts h.cols_lt hi

theorem Wf.value_aborts (h : s.Wf) (hi : s.len ≤ i) : Aborts (s.value i) :=
  (h.position_aborts hi).bind _

theorem Wf.isNodata_aborts (h : s.Wf) (hi : s.len ≤ i) : Aborts (s.isNodata i) :=
  (h.position_aborts hi).bind _

theorem Wf.setValue_aborts (h : s.Wf) (hi : s.len ≤ i) (v : Option Pixel) :
    Aborts (s.setValue i v) :=
  (h.position_aborts hi).bind _

end SparseRaster

/-! ### Where the index of a cell falls -/

namespace Cell

variable {m : Metadata} {c : Cell}

/-- A cell of the grid is the cell of its own position. -/
theorem ofDivMod_position (hin : m.containsCell c = true) :
    ofDivMod (c.position m.cols) m.cols = c := by
  obtain ⟨h0, h1, -, hcol⟩ := SparseRaster.containsCell_eq_true.mp hin
  have hlt : c.col.toNat < m.cols.toNat := by omega
  rw [position, ofDivMod_mul_add hlt]
  obtain ⟨row, col⟩ := c
  simp only at h0 h1
  simp only [mk.injEq]
  omega

/-- A cell lies in the grid exactly when it is valid, its position is that of a cell of the grid
and the cell of that position is the cell itself. -/
theorem containsCell_iff_ofDivMod :
    m.containsCell c = true ↔ c.isValid = true ∧ c.position m.cols < m.cellCount ∧
      ofDivMod (c.position m.cols) m.cols = c := by
  constructor
  · intro hin
    obtain ⟨h0, h1, -, -⟩ := SparseRaster.containsCell_eq_true.mp hin
    exact ⟨by simp [isValid, h0, h1], position_lt_cellCount hin, ofDivMod_position hin⟩
  · rintro ⟨hv, hlt, heq⟩
    have hcount : m.cellCount = m.rows.toNat * m.cols.toNat := rfl
    have hn : 0 < m.cols.toNat := by
      -- a grid without columns has no cell
      refine Nat.pos_of_ne_zero fun h0 => ?_
      rw [hcount, h0, Nat.mul_zero] at hlt
      omega
    obtain ⟨q, r, hr, hk, hq⟩ := exists_ofDivMod hn (c.position m.cols)
    rw [hq] at heq
    subst heq
    have hrow : q < m.rows.toNat := by
      rw [hk, hcount] at hlt
      exact Nat.lt_of_mul_lt_mul_right (a := m.cols.toNat) (by omega)
    exact SparseRaster.containsCell_eq_true.mpr ⟨by simp, by simp, by simp; omega, by simp; omega⟩

end Cell

namespace Raster

variable {r : Raster} {c : Cell} {i : Nat}

/-- Whether the raster is a masked one whose mask is not allocated: it reads every cell as data,
without checking the index. -/
def maskless : Raster → Bool
  | masked k => k.mask.isEmpty
  | _ => false

theorem Wf.value_aborts (h : r.Wf) (hi : r.len ≤ i) : Aborts (r.value i) := by
  cases r with
  | dense d => exact DenseRaster.Wf.value_aborts h hi
  | masked k => exact MaskedRaster.Wf.value_aborts h hi
  | sparse s => exact SparseRaster.Wf.value_aborts h hi

theorem Wf.setValue_aborts (h : r.Wf) (hi : r.len ≤ i) (x : Option Pixel) :
    Aborts (r.setValue i x) := by
  cases r with
  | dense d => exact (DenseRaster.Wf.setValue_aborts h hi x).map _
  | masked k => exact (MaskedRaster.Wf.setValue_aborts h hi x).map _
  | sparse s => exact (SparseRaster.Wf.setValue_aborts h hi x).map _

theorem isNodata_of_maskless (hm : r.maskless = true) (i : Nat) : r.isNodata i = .ok false := by
  cases r with
  | masked k => exact MaskedRaster.isNodata_of_mask_eq_empty (by simpa [maskless] using hm) i
  | dense d => simp [maskless] at hm
  | sparse s => simp [maskless] at hm

theorem Wf.isNodata_aborts (h : r.Wf) (hm : r.maskless = false) (hi : r.len ≤ i) :
    Aborts (r.isNodata i) := by
  cases r with
  | dense d => exact DenseRaster.Wf.isNodata_aborts h hi
  | masked k => exact MaskedRaster.Wf.isNodata_aborts h (by simpa [maskless] using hm) hi
  | sparse s => exact SparseRaster.Wf.isNodata_aborts h hi

/-- A cell with a negative coordinate has no index: asking for it aborts, naming the cell. -/
theorem cellIndex_of_isValid_eq_false (hc : c.isValid = false) :
    r.cellIndex c = .error (.abort s!"Index requested for invalid cell {c.display}") := by
  simp [cellIndex, Cell.index, hc, abort]

/-- The index of a valid cell of a sound raster is its row-major position. -/
theorem Sound.cellIndex_eq (h : r.Sound) (hc : c.isValid = true) (hrow : Coord.fits c.row = true)
    (hcol : Coord.fits c.col = true) : r.cellIndex c = .ok (c.position r.metadata.cols) := by
  have hv : 0 ≤ c.row ∧ 0 ≤ c.col := by simpa [Cell.isValid] using hc
  have hr := Coord.fits_iff.mp hrow
  have hk := Coord.fits_iff.mp hcol
  have hn := Coord.fits_iff.mp h.dims.cols_fits
  -- the row times the width stays below `2 ^ 62`, so the position is a machine word
  have hprod : c.row.toNat * r.metadata.cols.toNat ≤ 2 ^ 31 * 2 ^ 31 :=
    Nat.mul_le_mul (by omega) (by omega)
  refine Cell.index_eq_position hv.1 hv.2 h.wf.cols_nonneg h.wf.cols_lt ?_
  unfold Cell.position wordSize
  omega

/-! Each cell operation is the operation at the cell's index. -/

theorem cellValue_of_cellIndex {x : Outcome Nat} (hidx : r.cellIndex c = x) :
    r.cellValue c = x >>= r.value := by
  rw [cellValue, hidx]

theorem cellIsNodata_of_cellIndex {x : Outcome Nat} (hidx : r.cellIndex c = x) :
    r.cellIsNodata c = x >>= r.isNodata := by
  rw [cellIsNodata, hidx]

theorem setCellValue_of_cellIndex {x : Outcome Nat} (hidx : r.cellIndex c = x) (v : Option Pixel) :
    r.setCellValue c v = x >>= (r.setValue · v) := by
  rw [setCellValue, hidx]

theorem markCellAsData_of_cellIndex {k : MaskedRaster} {x : Outcome Nat}
    (hidx : (masked k).cellIndex c = x) : k.markCellAsData c = x >>= k.markAsData := by
  rw [MaskedRaster.markCellAsData, ← hidx]
  rfl

/-! ### The three cases -/

/-- Every cell operation at `c` fails with `f`, giving no raster. -/
structure AbortsWith (r : Raster) (c : Cell) (f : Fault) : Prop where
  cellValue : r.cellValue c = .error f
  cellIsNodata : r.cellIsNodata c = .error f
  setCellValue : ∀ x, r.setCellValue c x = .error f
  markCellAsData : ∀ k, r = masked k → k.markCellAsData c = .error f

/-- The cell operations at `c` handle cell `i` of the grid: reading gives that cell, a write
writes that cell and keeps every other (and fails only where a write of that cell fails), and
marking `c` as data makes that cell read the value in the buffer. -/
structure ActsAt (r : Raster) (c : Cell) (i : Nat) : Prop where
  lt_len : i < r.len
  cellValue_eq : r.cellValue c = .ok (r.toOptions.getD i none)
  cellIsNodata_eq : r.cellIsNodata c = .ok (r.toOptions.getD i none).isNone
  setCellValue_writes : ∀ x r', r.setCellValue c x = .ok r' → r.WritesCell i x r'
  setCellValue_eq_error_iff : ∀ x e, r.setCellValue c x = .error e ↔
    e = .abort "Cannot mark a cell as nodata in a raster without nodata value" ∧
      r.backend = .dense ∧ x = none ∧ r.canRepresentNodata = false
  markCellAsData_eq : ∀ k, r = masked k → ∃ k', k.markCellAsData c = .ok k' ∧
    (masked k').Sound ∧ k'.metadata = k.metadata ∧ k'.toOptions = k.toOptions.set i k.data[i]?

/-- The cell operations at `c` abort, giving no raster; but a masked raster without a mask reads
the cell as data, and marking it as data leaves that raster as it is. -/
structure AbortsAt (r : Raster) (c : Cell) : Prop where
  cellValue : Aborts (r.cellValue c)
  setCellValue : ∀ x, Aborts (r.setCellValue c x)
  cellIsNodata_of_maskless : r.maskless = true → r.cellIsNodata c = .ok false
  cellIsNodata : r.maskless = false → Aborts (r.cellIsNodata c)
  markCellAsData_of_maskless : ∀ k, r = masked k → r.maskless = true → k.markCellAsData c = .ok k
  markCellAsData : ∀ k, r = masked k → r.maskless = false → Aborts (k.markCellAsData c)

theorem abortsWith_of_cellIndex {f : Fault} (hidx : r.cellIndex c = .error f) :
    r.AbortsWith c f where
  cellValue := by rw [cellValue_of_cellIndex hidx]; rfl
  cellIsNodata := by rw [cellIsNodata_of_cellIndex hidx]; rfl
  setCellValue x := by rw [setCellValue_of_cellIndex hidx]; rfl
  markCellAsData k hk := by
    subst hk
    rw [markCellAsData_of_cellIndex hidx]
    rfl

/-- A cell whose index lies in the grid of a sound raster is handled as the cell of that index. -/
theorem Sound.actsAt (h : r.Sound) (hidx : r.cellIndex c = .ok i) (hi : i < r.len) :
    r.ActsAt c i where
  lt_len := hi
  cellValue_eq := by rw [cellValue_of_cellIndex hidx, ok_bind, h.wf.value_eq hi]
  cellIsNodata_eq := by
    rw [cellIsNodata_of_cellIndex hidx, ok_bind]
    exact isNodata_of_value_eq_ok _ (h.wf.value_eq hi)
  setCellValue_writes x r' hs := by
    rw [setCellValue_of_cellIndex hidx, ok_bind] at hs
    exact h.writesCell hi hs
  setCellValue_eq_error_iff x e := by
    rw [setCellValue_of_cellIndex hidx, ok_bind]
    exact h.wf.setValue_eq_error_iff hi
  markCellAsData_eq k hk := by
    subst hk
    have hik : i < k.data.size := by
      rw [MaskedRaster.Wf.size_data h.wf]
      exact hi
    have hmark := MaskedRaster.Wf.markAsData_of_lt h.wf hik
    refine ⟨_, by rw [markCellAsData_of_cellIndex hidx, ok_bind, hmark], h.masked_markAsData hmark,
      rfl, MaskedRaster.Wf.toOptions_markAsData h.wf hik hmark⟩

/-- A cell whose index lies past the grid of a sound raster makes the operations abort, but on a
masked raster without a mask. -/
theorem Sound.abortsAt (h : r.Sound) (hidx : r.cellIndex c = .ok i) (hi : r.len ≤ i) :
    r.AbortsAt c where
  cellValue := by
    rw [cellValue_of_cellIndex hidx, ok_bind]
    exact h.wf.value_aborts hi
  setCellValue x := by
    rw [setCellValue_of_cellIndex hidx, ok_bind]
    exact h.wf.setValue_aborts hi x
  cellIsNodata_of_maskless hm := by
    rw [cellIsNodata_of_cellIndex hidx, ok_bind]
    exact isNodata_of_maskless hm i
  cellIsNodata hm := by
    rw [cellIsNodata_of_cellIndex hidx, ok_bind]
    exact h.wf.isNodata_aborts hm hi
  markCellAsData_of_maskless k hk hm := by
    subst hk
    rw [markCellAsData_of_cellIndex hidx, ok_bind]
    exact MaskedRaster.markAsData_of_mask_eq_empty (by simpa [maskless] using hm) i
  markCellAsData k hk hm := by
    subst hk
    rw [markCellAsData_of_cellIndex hidx, ok_bind]
    exact MaskedRaster.Wf.markAsData_aborts h.wf (by simpa [maskless] using hm) hi

/-- What the cell operations do at cell `c`, by where its row-major position falls. -/
structure CellAccess (r : Raster) (c : Cell) : Prop where
  /-- A cell with a negative coordinate makes every operation abort, naming the cell. -/
  invalid : c.isValid = false →
    r.AbortsWith c (.abort s!"Index requested for invalid cell {c.display}")
  /-- A valid cell is located by its row-major position. -/
  cellIndex_eq : c.isValid = true → r.cellIndex c = .ok (c.position r.metadata.cols)
  /-- A valid cell whose position lies in the grid is handled as the cell of that position. -/
  inside : c.isValid = true → c.position r.metadata.cols < r.len →
    r.ActsAt c (c.position r.metadata.cols)
  /-- A valid cell whose position lies past the grid makes the operations abort. -/
  outside : c.isValid = true → r.len ≤ c.position r.metadata.cols → r.AbortsAt c
  /-- The cell of that position is the cell itself exactly when the cell lies in the raster. -/
  isIn_iff : c.isIn r.size = true ↔ c.isValid = true ∧ c.position r.metadata.cols < r.len ∧
    Cell.ofDivMod (c.position r.metadata.cols) r.metadata.cols = c

/-- On a raster the library builds, the cell operations at a cell of coordinates abort for a
cell with a negative coordinate, and otherwise act on the cell of the cell's row-major position
when that position lies in the grid and abort when it lies past it (a masked raster without a
mask apart). That cell is the cell itself exactly when it lies in the raster. -/
theorem Reachable.cellAccess (h : r.Reachable) (c : Cell) (hrow : Coord.fits c.row = true)
    (hcol : Coord.fits c.col = true) : r.CellAccess c where
  invalid hc := abortsWith_of_cellIndex (cellIndex_of_isValid_eq_false hc)
  cellIndex_eq hc := h.sound.cellIndex_eq hc hrow hcol
  inside hc hi := h.sound.actsAt (h.sound.cellIndex_eq hc hrow hcol) hi
  outside hc hi := h.sound.abortsAt (h.sound.cellIndex_eq hc hrow hcol) hi
  isIn_iff := Cell.containsCell_iff_ofDivMod

/-- A new 3 × 3 raster is reachable, and the cell operations at cell `(0, 5)`, past its last
column, are described as above. -/
theorem cellAccess_three_by_three :
    (dense ⟨.int32, Metadata.ofRowsCols 3 3, Array.replicate 9 (.int 0),
        PixelType.int32.policy none⟩).Reachable ∧
      Coord.fits 0 = true ∧ Coord.fits 5 = true ∧
      (dense ⟨.int32, Metadata.ofRowsCols 3 3, Array.replicate 9 (.int 0),
        PixelType.int32.policy none⟩).CellAccess ⟨0, 5⟩ := by
  have h : (dense ⟨.int32, Metadata.ofRowsCols 3 3, Array.replicate 9 (.int 0),
      PixelType.int32.policy none⟩).Reachable :=
    .built (.new (b := .dense) (t := .int32) (m := Metadata.ofRowsCols 3 3) ⟨rfl, rfl⟩ rfl)
  exact ⟨h, rfl, rfl, Reachable.cellAccess h ⟨0, 5⟩ rfl rfl⟩

/-- The 3 × 3 raster of the numbers 0 to 8 reads 5 at cell `(0, 5)`, past its last column: the
value of cell `(1, 2)`, which has the same index. -/
theorem cellValue_past_last_column :
    ∃ r, Backend.dense.ofList .int32 (Metadata.ofRowsCols 3 3)
        [.int 0, .int 1, .int 2, .int 3, .int 4, .int 5, .int 6, .int 7, .int 8] = .ok r ∧
      (⟨0, 5⟩ : Cell).isIn r.size = false ∧ r.cellValue ⟨0, 5⟩ = .ok (some (.int 5)) ∧
      r.cellValue ⟨1, 2⟩ = .ok (some (.int 5)) :=
  ⟨_, rfl, rfl, rfl, rfl⟩

end Raster

end Georaster
