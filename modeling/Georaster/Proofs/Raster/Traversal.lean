import Georaster.Proofs.Raster.Selection
/-!
# Traversals of a raster and the reads of one cell

Each storage lists its cells in its own way: the list of all cells (`toOptions`), the values of
the data cells (`dataValues`), the number of missing cells and whether there is one. Each of
these can also be written with the reads of one cell, `value` and `isNodata`, asked at every
index in turn (`Raster.cellsByIndex` and the definitions after it). On a well-formed raster the
two agree.

For a sparse raster this is the agreement of two algorithms: the list of all cells merges the
entries with the grid index in one pass, while `value` searches the row of the index. Both read
the rows that the storage lays out, so the data cells with their indices are the entries of the
rows (`Layout.filterMap_toOptions`); the stored cells are the same entries at their cells. A
dense or masked raster walked over its whole grid visits the cells in index order and yields
the values that are not missing (`RasterIterator.finish_full`), so iterating its values yields its
data values (`DenseRaster.valueIter_eq`, `MaskedRaster.valueIter_eq`).

Every reachable raster is sound, so its traversals agree (`Raster.Reachable.traversalsAgree`).
-/

namespace Georaster

section Outcomes

variable {α β γ ε : Type}

/-- A traversal whose every step succeeds succeeds with the list of the results. -/
theorem mapM_eq_ok_map {f : α → Except ε β} {g : α → β} :
    ∀ {l : List α}, (∀ a ∈ l, f a = .ok (g a)) → l.mapM f = .ok (l.map g)
  | [], _ => rfl
  | a :: l, h => by
    rw [List.mapM_cons, h a List.mem_cons_self,
      mapM_eq_ok_map fun b hb => h b (List.mem_cons_of_mem a hb)]
    rfl

/-- A search whose every test succeeds succeeds with whether some element passes. -/
theorem anyM_eq_ok_any {p : α → Except ε Bool} {q : α → Bool} :
    ∀ {l : List α}, (∀ a ∈ l, p a = .ok (q a)) → l.anyM p = .ok (l.any q)
  | [], _ => rfl
  | a :: l, h => by
    rw [List.anyM_cons, h a List.mem_cons_self]
    cases hq : q a
    · -- the search goes on past `a`
      simpa [hq] using anyM_eq_ok_any fun b hb => h b (List.mem_cons_of_mem a hb)
    · simp [hq]

/-- A filtering traversal of a mapped list whose every step succeeds keeps what the steps
keep. -/
theorem filterMapM_map_eq_ok {g : α → β} {f : β → Except ε (Option γ)}
    {k : α → Option γ} :
    ∀ {l : List α}, (∀ a ∈ l, f (g a) = .ok (k a)) →
      (l.map g).filterMapM f = .ok (l.filterMap k)
  | [], _ => rfl
  | a :: l, h => by
    have ih := filterMapM_map_eq_ok fun b hb => h b (List.mem_cons_of_mem a hb)
    rw [List.map_cons, List.filterMapM_cons, h a List.mem_cons_self]
    cases hk : k a <;> simp [hk, ih]

/-- Reading a list at every index in turn and mapping reads the list mapped. -/
theorem map_range_getD {α β : Type} (L : List α) (d : α) (g : α → β) :
    (List.range L.length).map (fun i => g (L.getD i d)) = L.map g := by
  conv_rhs => rw [← SparseRaster.map_getD_range L d, List.map_map]
  rfl

/-- The cells of a list read one index at a time, kept where present, are its present cells. -/
theorem filterMap_range_getD {α : Type} (L : List (Option α)) :
    (List.range L.length).filterMap (L.getD · none) = L.filterMap id := by
  conv_rhs => rw [← SparseRaster.map_getD_range L none, List.filterMap_map]
  rfl

end Outcomes

namespace NodataPolicy

@[simp] theorem isNone_read (p : NodataPolicy) (v : Pixel) : (p.read v).isNone = p.isMissing v := by
  unfold read
  cases p.isMissing v <;> rfl

theorem filterMap_read (p : NodataPolicy) (l : List Pixel) :
    l.filterMap p.read = l.filter fun v => !p.isMissing v := by
  induction l with
  | nil => rfl
  | cons v l ih =>
    by_cases hv : p.isMissing v <;> simp [read, hv, ih]

end NodataPolicy

/-! ### Each storage -/

namespace DenseRaster

variable (d : DenseRaster)

theorem dataValues_eq : d.dataValues = d.toOptions.filterMap id := by
  rw [dataValues, toOptions, List.filterMap_map, Function.id_comp, NodataPolicy.filterMap_read]

theorem nodataCount_eq : d.nodataCount = d.toOptions.countP (·.isNone) := by
  simp [nodataCount, toOptions, List.countP_map, Function.comp_def]

theorem hasNodata_eq : d.hasNodata = decide (0 < d.nodataCount) := by
  rw [hasNodata, nodataCount, ← Array.any_toList, Bool.eq_iff_iff, List.any_eq_true,
    decide_eq_true_eq, List.countP_pos_iff]

theorem isNodata_of_value_eq_ok {i : Nat} {x : Option Pixel} (h : d.value i = .ok x) :
    d.isNodata i = .ok x.isNone := by
  obtain ⟨v, hv, rfl⟩ := map_eq_ok.mp h
  simp [isNodata, hv]

end DenseRaster

namespace MaskedRaster

variable (k : MaskedRaster)

theorem isNodata_of_value_eq_ok {i : Nat} {x : Option Pixel} (h : k.value i = .ok x) :
    k.isNodata i = .ok x.isNone := by
  obtain ⟨b, hb, h⟩ := bind_eq_ok.mp h
  cases b with
  | true =>
    -- a flagged cell reads as missing
    simp only [if_true, pure_eq_ok] at h
    simp [isNodata, hb, ← h]
  | false =>
    obtain ⟨v, -, rfl⟩ := map_eq_ok.mp h
    simp [isNodata, hb]

theorem hasNodata_eq : k.hasNodata = decide (0 < k.nodataCount) := by
  rw [hasNodata, nodataCount, ← Array.any_toList, Bool.eq_iff_iff, List.any_eq_true,
    decide_eq_true_eq, List.count_pos_iff]
  simp

variable {k}

/-- The cells a well-formed mask flags are the missing ones. -/
theorem Wf.nodataCount_eq (h : k.Wf) : k.nodataCount = k.toOptions.countP (·.isNone) := by
  have hcell : ∀ i ∈ List.range k.data.size, (k.cellAt i).isNone = k.mask.getD i false := by
    intro i hi
    have hi' := List.mem_range.mp hi
    by_cases hm : k.mask.getD i false <;> simp [cellAt, hm, hi']
  rw [toOptions, List.countP_map,
    List.countP_congr (q := fun i => k.mask.getD i false) fun i hi => by
      rw [Function.comp_apply, hcell i hi]]
  rcases h.size_mask with hnil | hsize
  · -- an empty mask flags nothing
    simp [nodataCount, hnil]
  · -- the mask holds one flag per cell
    rw [nodataCount, ← hsize, List.count_eq_countP]
    conv_lhs => rw [← SparseRaster.map_getD_range k.mask.toList false]
    simp [List.countP_map, Function.comp_def]

end MaskedRaster


/-! ### Cells of indices -/

/-- The cell at row `i / n` and column `i % n`, where `n` is the number of columns as a count. -/
def Cell.ofDivMod (i : Nat) (cols : Int) : Cell :=
  ⟨(i / cols.toNat : Nat), (i % cols.toNat : Nat)⟩

/-- A narrowed index below `2 ^ 31` is the index itself. -/
theorem wrapToInt32_of_lt {n : Nat} (h : n < 2 ^ 31) : wrapToInt32 n = n := by
  have hmod : n % 4294967296 = n := Nat.mod_eq_of_lt (by omega)
  have hlt : n < 2147483648 := by omega
  unfold wrapToInt32
  simp only [hmod, hlt, if_true]

/-- In a grid of positive coordinate width, the cell of an index whose row is a coordinate is
its row and column. -/
theorem Cell.ofIndex_eq {i : Nat} {cols : Int} (hc : 0 < cols) (hcw : cols < 2 ^ 31)
    (hq : i / cols.toNat < 2 ^ 31) :
    Cell.ofIndex i cols = .ok (Cell.ofDivMod i cols) := by
  have hwidth : (cols % (wordSize : Int)).toNat = cols.toNat := by
    rw [Int.emod_eq_of_lt (by omega) (by simp only [wordSize]; omega)]
  have hr : i % cols.toNat < 2 ^ 31 := by
    have := Nat.mod_lt i (show cols.toNat > 0 by omega)
    omega
  unfold Cell.ofIndex
  rw [hwidth, if_neg (by omega), wrapToInt32_of_lt hq, wrapToInt32_of_lt hr]
  rfl

/-- The row-major position of the cell at row `i / n` and column `i % n` of a grid of `n`
columns is `i`. -/
theorem Cell.position_ofDivMod (i : Nat) (cols : Int) : (Cell.ofDivMod i cols).position cols = i := by
  unfold Cell.position Cell.ofDivMod
  simp only [Int.toNat_natCast]
  exact Nat.div_add_mod' i _

/-- The index of the cell at row `i / n` and column `i % n` of a grid of `n` columns is `i`. -/
theorem Cell.index_ofDivMod {i : Nat} {cols : Int} (hc : 0 ≤ cols) (hcw : cols < wordSize)
    (hi : i < wordSize) : (Cell.ofDivMod i cols).index cols = .ok i := by
  have hwidth : (cols % (wordSize : Int)).toNat = cols.toNat := by
    rw [Int.emod_eq_of_lt hc hcw]
  have hstart : i / cols.toNat * cols.toNat ≤ i := Nat.div_mul_le_self i _
  have hsum : i / cols.toNat * cols.toNat + i % cols.toNat = i := Nat.div_add_mod' i _
  unfold Cell.index Cell.ofDivMod
  simp only [Cell.isValid, Int.natCast_nonneg, and_self, decide_true, Bool.not_true,
    Bool.false_eq_true, if_false, hwidth, Int.toNat_natCast]
  rw [if_neg (by omega), if_neg (by omega), hsum]

/-! ### Sparse rasters -/

namespace SparseRaster

theorem isNodata_of_value_eq_ok (s : SparseRaster) {i : Nat} {x : Option Pixel}
    (h : s.value i = .ok x) : s.isNodata i = .ok x.isNone := by
  obtain ⟨⟨row, slot⟩, hp, h⟩ := bind_eq_ok.mp h
  cases slot with
  | found k =>
    -- a found entry is data
    obtain ⟨v, -, rfl⟩ := map_eq_ok.mp h
    simp [isNodata, hp]
  | vacant k =>
    simp only [pure_eq_ok] at h
    simp [isNodata, hp, ← h]

theorem hasNodata_eq (s : SparseRaster) : s.hasNodata = decide (0 < s.nodataCount) := by
  rw [hasNodata, nodataCount, Bool.eq_iff_iff, decide_eq_true_eq, decide_eq_true_eq]
  omega

theorem lookup_eq_none {es : List SparseEntry} {i : Nat} (h : ∀ e ∈ es, e.index ≠ i) :
    lookup es i = none := by
  simp only [lookup, Option.map_eq_none_iff, List.find?_eq_none, beq_iff_eq]
  exact h

theorem lookup_cons_of_ne {e : SparseEntry} {es : List SparseEntry} {i : Nat} (h : e.index ≠ i) :
    lookup (e :: es) i = lookup es i := by
  simp [lookup, h]

/-- Looking up each index of `[k, k + n)` in turn finds the entries whose increasing indices lie
there, in order. -/
theorem filterMap_lookup_range' (n : Nat) : ∀ (k : Nat) {es : List SparseEntry},
    (es.map (·.index)).Pairwise (· < ·) → (∀ e ∈ es, k ≤ e.index ∧ e.index < k + n) →
    (List.range' k n).filterMap (fun i => (lookup es i).map (i, ·)) =
      es.map fun e => (e.index, e.value) := by
  induction n with
  | zero =>
    intro k es _ hin
    -- no index lies in an empty range
    have hnil : es = [] := List.eq_nil_iff_forall_not_mem.mpr fun e he => by
      have := hin e he
      omega
    simp [hnil]
  | succ n ih =>
    intro k es hs hin
    rw [List.range'_succ, List.filterMap_cons]
    cases es with
    | nil => simp [lookup]
    | cons e es =>
      obtain ⟨hlt, hs'⟩ := List.pairwise_cons.mp (List.map_cons ▸ hs)
      by_cases hk : e.index = k
      · -- the first entry is at the first index; the rest lie after it
        have hrest : ∀ i ∈ List.range' (k + 1) n, lookup (e :: es) i = lookup es i :=
          fun i hi => lookup_cons_of_ne (by rw [List.mem_range'_1] at hi; omega)
        have hes : ∀ e' ∈ es, k + 1 ≤ e'.index ∧ e'.index < k + 1 + n := fun e' he' => by
          have h1 := hlt e'.index (List.mem_map_of_mem he')
          have h2 := hin e' (List.mem_cons_of_mem e he')
          omega
        rw [List.filterMap_congr fun i hi => by rw [hrest i hi], ih (k + 1) hs' hes]
        simp [lookup, hk]
      · -- no entry is at the first index
        have hes : ∀ e' ∈ e :: es, k + 1 ≤ e'.index ∧ e'.index < k + 1 + n := by
          intro e' he'
          have h2 := hin e' he'
          rcases List.mem_cons.mp he' with rfl | he'
          · omega
          · have h1 := hlt e'.index (List.mem_map_of_mem he')
            have h3 := hin e List.mem_cons_self
            omega
        have hnone : lookup (e :: es) k = none := lookup_eq_none fun e' he' => by
          have := hes e' he'
          omega
        rw [hnone, Option.map_none, ih (k + 1) hs hes]

/-- Looking up every index of a grid of `n` cells in turn finds the entries, in order. -/
theorem filterMap_lookup_range {n : Nat} {es : List SparseEntry} (h : EntriesOk n es) :
    (List.range n).filterMap (fun i => (lookup es i).map (i, ·)) =
      es.map fun e => (e.index, e.value) := by
  rw [List.range_eq_range']
  exact filterMap_lookup_range' n 0 h.sorted fun e he =>
    ⟨Nat.zero_le _, by simpa using h.lt e he⟩

namespace Layout

variable {s : SparseRaster} {rows : List Row}

theorem len_eq (h : s.Layout rows) : s.len = rows.length * s.metadata.cols.toNat := by
  simp [len, Metadata.cellCount, Metadata.size, GridSize.cellCount, h.length_rows]

/-- The data cells of a laid-out raster, with their indices, are the entries of its rows. -/
theorem filterMap_toOptions (h : s.Layout rows) (hw : s.metadata.cols < wordSize) :
    (List.range s.len).filterMap (fun i => (s.toOptions.getD i none).map (i, ·)) =
      (entriesOf s.metadata.cols.toNat rows).map fun e => (e.index, e.value) := by
  have hcell : ∀ i ∈ List.range s.len,
      s.toOptions.getD i none = lookup (entriesOf s.metadata.cols.toNat rows) i := by
    intro i hi
    have hi' := List.mem_range.mp hi
    rw [h.toOptions_eq hw, List.getD_eq_getElem?_getD, List.getElem?_map, List.getElem?_range hi',
      Option.map_some, Option.getD_some, lookup_entriesOf h.col_lt (h.len_eq ▸ hi')]
  rw [List.filterMap_congr fun i hi => by rw [hcell i hi], h.len_eq]
  exact filterMap_lookup_range
    (entriesOk_entriesOf h.col_lt fun row hrow => (h.row_ok row hrow).sorted)

/-- The values of a laid-out raster are its data cells, in order. -/
theorem values_eq_filterMap (h : s.Layout rows) (hw : s.metadata.cols < wordSize) :
    s.values = s.toOptions.filterMap id := by
  have hlen : s.toOptions.length = s.len := by simp [h.toOptions_eq hw]
  calc s.values
      = ((entriesOf s.metadata.cols.toNat rows).map fun e => (e.index, e.value)).map (·.2) := by
        rw [List.map_map]
        exact (h.map_value_entriesOf _).symm
    _ = (List.range s.len).filterMap fun i => s.toOptions.getD i none := by
        rw [← h.filterMap_toOptions hw, List.map_filterMap]
        simp [Function.comp_def]
    _ = s.toOptions.filterMap id := by
        rw [← hlen, filterMap_range_getD]

/-- The stored cells of a laid-out raster with coordinate dimensions are its data cells, each at
the cell of its index. -/
theorem storedCells_eq_ofIndex (h : s.Layout rows) (hd : s.metadata.CoordDims) :
    ((List.range s.len).filterMap fun i => (s.toOptions.getD i none).map (i, ·)).mapM
        (fun p => (Cell.ofIndex p.1 s.metadata.cols).map (·, p.2)) = .ok s.storedCells := by
  have hok := entriesOk_entriesOf h.col_lt fun row hrow => (h.row_ok row hrow).sorted
  -- the entries lie in the grid, so their rows and columns are coordinates
  have hcell : ∀ p ∈ (entriesOf s.metadata.cols.toNat rows).map (fun e => (e.index, e.value)),
      (Cell.ofIndex p.1 s.metadata.cols).map (·, p.2) =
        .ok (Cell.ofDivMod p.1 s.metadata.cols, p.2) := by
    intro p hp
    obtain ⟨e, he, rfl⟩ := List.mem_map.mp hp
    have hlt := hok.lt e he
    have hpos : 0 < s.metadata.cols.toNat := Nat.pos_of_ne_zero fun h0 => by
      rw [h0, Nat.mul_zero] at hlt
      exact Nat.not_lt_zero _ hlt
    have hrow : e.index / s.metadata.cols.toNat < rows.length :=
      (Nat.div_lt_iff_lt_mul hpos).mpr hlt
    have hrows := hd.rows_lt
    rw [h.length_rows] at hrow
    dsimp only
    rw [Cell.ofIndex_eq (by omega) hd.cols_lt (by omega)]
    rfl
  rw [h.filterMap_toOptions hd.cols_lt_wordSize, mapM_eq_ok_map hcell, h.storedCells_eq,
    List.map_map, entriesOf, List.map_flatMap]
  congr 1
  apply List.flatMap_congr
  intro k hk
  have hk' := List.mem_range.mp hk
  have hmem : rows.getD k [] ∈ rows := by
    rw [List.getD_eq_getElem?_getD, List.getElem?_eq_getElem hk', Option.getD_some]
    exact List.getElem_mem hk'
  rw [List.map_map]
  apply List.map_congr_left
  intro e he
  have hcol := h.col_lt _ hmem e he
  obtain ⟨hdiv, hmod⟩ :=
    div_mod_index (k := k) (show e.1.toNat < s.metadata.cols.toNat by omega)
  simp only [Function.comp_apply, Cell.ofDivMod, hdiv, hmod, Int.toNat_of_nonneg hcol.1]

end Layout

end SparseRaster

/-! ### Walking the whole grid -/

namespace Area

/-- The cells of a whole grid, row by row, are the cells of its indices in order. -/
theorem cells_full (rows cols : Int) :
    (full ⟨rows, cols⟩).cells =
      (List.range (rows.toNat * cols.toNat)).map (Cell.ofDivMod · cols) := by
  unfold cells
  by_cases he : (full ⟨rows, cols⟩).isEmpty
  · -- an empty grid has no index
    have h0 : rows.toNat * cols.toNat = 0 := by
      unfold isEmpty full at he
      rcases of_decide_eq_true he with h | h <;> simp [Int.toNat_eq_zero.mpr h]
    rw [if_pos he, h0, List.range_zero, List.map_nil]
  · rw [if_neg he]
    simp only [full, Int.zero_add]
    -- one row at a time
    induction rows.toNat with
    | zero => simp
    | succ R ih =>
      rw [List.range_succ, List.flatMap_append, ih, Nat.succ_mul, List.range_add, List.map_append,
        List.map_map, List.flatMap_singleton]
      congr 1
      apply List.map_congr_left
      intro j hj
      obtain ⟨hdiv, hmod⟩ := SparseRaster.div_mod_index (k := R) (List.mem_range.mp hj)
      simp only [Function.comp_apply, Cell.ofDivMod, hdiv, hmod]

/-- The whole of a grid whose counts are coordinates can be walked over a buffer of one value
per cell. -/
theorem fits_full {rows cols : Int} (hrf : Coord.fits rows = true) (hcf : Coord.fits cols = true) :
    (full ⟨rows, cols⟩).fits cols (rows.toNat * cols.toNat) = .ok true := by
  unfold fits
  by_cases he : (full ⟨rows, cols⟩).isEmpty
  · rw [if_pos he]
    rfl
  · rw [if_neg he]
    have hpos : ¬(rows ≤ 0 ∨ cols ≤ 0) := by
      unfold isEmpty full at he
      exact fun h => he (decide_eq_true h)
    have hfits : ∀ n : Int, -2 ^ 31 ≤ n ∧ n < 2 ^ 31 → Coord.fits n = true := fun n hn =>
      decide_eq_true hn
    simp only [Coord.fits, decide_eq_true_eq] at hrf hcf
    -- the last cell is the last row and column
    have hbr : (full ⟨rows, cols⟩).bottomRight = .ok ⟨rows - 1, cols - 1⟩ := by
      unfold bottomRight
      rw [if_neg he]
      simp [full, Coord.add, Coord.sub, Coord.checked, hfits rows (by omega), hfits cols (by omega),
        hfits (rows - 1) (by omega), hfits (cols - 1) (by omega)]
    have hrows : rows.toNat = (rows - 1).toNat + 1 := by omega
    rw [hbr, ok_bind, hrows, Nat.succ_mul]
    simp only [full, Bool.and_eq_true, decide_eq_true_eq, pure_eq_ok]
    exact ⟨decide_eq_true ⟨Int.le_refl 0, Int.le_refl 0, by omega⟩, by omega⟩

end Area

namespace RasterIterator

/-- Collecting an iterator over the whole of a grid that its buffer fills yields, in index order,
the stored values that the value filter lets through. -/
theorem finish_full {data : Array Pixel} {rows cols : Int} (hrf : Coord.fits rows = true)
    (hcf : Coord.fits cols = true) (hs : data.size = rows.toNat * cols.toNat) {vf : ValueFilter}
    {cell : Nat → Option Pixel}
    (hvf : ∀ i (hi : i < data.size),
      (vf.excludes i data[i]).map (fun b => if b then none else some data[i]) = .ok (cell i)) :
    (⟨data, AreaWalker.new (Area.full ⟨rows, cols⟩) cols, .invalid, vf, .all⟩ :
      RasterIterator).finish.map (·.1.map (·.2)) = .ok ((List.range data.size).filterMap cell) := by
  have hsw : data.size < wordSize := by
    simp only [Coord.fits, decide_eq_true_eq] at hrf hcf
    rw [hs]
    simp only [wordSize]
    have := Nat.mul_le_mul (show rows.toNat ≤ 2 ^ 31 by omega)
      (show cols.toNat ≤ 2 ^ 31 by omega)
    omega
  have hw : (Area.full ⟨rows, cols⟩).Walkable cols data.size :=
    ⟨hs ▸ Area.fits_full hrf hcf, hcf, hsw⟩
  -- the iterator keeps, at the cell of each index, the value the filter lets through
  have ht : AreaWalker.takes (⟨data, AreaWalker.new (Area.full ⟨rows, cols⟩) cols, .invalid, vf,
      .all⟩ : RasterIterator).keep cols ((Area.full ⟨rows, cols⟩).cells.drop 0) =
        .ok ((List.range data.size).filterMap fun i => (cell i).map (Cell.ofDivMod i cols, ·)) := by
    rw [List.drop_zero, Area.cells_full, ← hs]
    refine filterMapM_map_eq_ok fun i hi => ?_
    have hi' : i < data.size := List.mem_range.mp hi
    obtain ⟨b, hb, hcell⟩ := map_eq_ok.mp (hvf i hi')
    rw [Cell.position_ofDivMod]
    simp only [keep, LocationFilter.excludes, ok_bind, Buffer.get_of_lt hi', hb]
    cases b <;> (rw [← hcell]; rfl)
  rw [finish_eq hw (AreaWalker.new_eq_onCell _ _) ht, ok_map, List.map_filterMap]
  congr 2
  funext i
  cases cell i <;> rfl

end RasterIterator

namespace DenseRaster

variable {d : DenseRaster}

/-- Iterating the values of a well-formed dense raster, by collecting the iterator over its whole
grid that skips what the policy reads as missing, yields its data values. -/
theorem valueIter_eq (h : d.Wf) (hd : d.metadata.CoordDims) :
    (Raster.dense d).valueIter = .ok d.dataValues := by
  have hs : d.data.size = d.metadata.rows.toNat * d.metadata.cols.toNat := h.size_data
  have hcell : ∀ i (hi : i < d.data.size),
      ((ValueFilter.policy d.policy).excludes i d.data[i]).map
        (fun b => if b then none else some d.data[i]) = .ok (d.toOptions.getD i none) := by
    intro i hi
    simp [ValueFilter.excludes, toOptions, NodataPolicy.read, List.getD_eq_getElem?_getD, hi]
    rfl
  have hw := RasterIterator.finish_full hd.rows_fits hd.cols_fits hs hcell
  rw [← length_toOptions, filterMap_range_getD, ← dataValues_eq] at hw
  have hwalk : d.walk .everything = .ok ⟨d.data,
      AreaWalker.new (Area.full ⟨d.metadata.rows, d.metadata.cols⟩) d.metadata.cols, .invalid,
      .policy d.policy, .all⟩ := by
    rw [walk_eq h hd]
    rfl
  obtain ⟨r, hr, hmap⟩ := map_eq_ok.mp hw
  rw [Raster.valueIter, hwalk, ok_bind, hr, ok_bind]
  exact congrArg Except.ok hmap

end DenseRaster

namespace MaskedRaster

variable {k : MaskedRaster}

/-- Iterating the values of a well-formed masked raster, by collecting the iterator over its
whole grid that skips the flagged cells, yields its data values. -/
theorem valueIter_eq (h : k.Wf) (hd : k.metadata.CoordDims) :
    (Raster.masked k).valueIter = .ok k.dataValues := by
  have hs : k.data.size = k.metadata.rows.toNat * k.metadata.cols.toNat := h.size_data
  have hcell : ∀ i (hi : i < k.data.size),
      ((ValueFilter.mask k.mask).excludes i k.data[i]).map
        (fun b => if b then none else some k.data[i]) = .ok (k.toOptions.getD i none) := by
    intro i hi
    have hopt : k.toOptions.getD i none = k.cellAt i := by
      simp [toOptions, List.getD_eq_getElem?_getD, hi]
    rw [hopt, cellAt]
    by_cases hm : k.mask.isEmpty
    · -- an empty mask flags nothing
      simp [ValueFilter.excludes, Array.isEmpty_iff.mp hm, hi]
      rfl
    · -- otherwise the mask flags every cell
      have hmi : i < k.mask.size := by
        rcases h.size_mask with hnil | hsize
        · simp [hnil] at hm
        · omega
      simp [ValueFilter.excludes, hm, Buffer.get_of_lt hmi, Array.getD, hmi, hi]
  have hw := RasterIterator.finish_full hd.rows_fits hd.cols_fits hs hcell
  rw [← length_toOptions, filterMap_range_getD] at hw
  have hwalk : k.walk .everything = .ok ⟨k.data,
      AreaWalker.new (Area.full ⟨k.metadata.rows, k.metadata.cols⟩) k.metadata.cols, .invalid,
      .mask k.mask, .all⟩ := by
    rw [walk_eq h hd]
    rfl
  obtain ⟨r, hr, hmap⟩ := map_eq_ok.mp hw
  rw [Raster.valueIter, hwalk, ok_bind, hr, ok_bind]
  exact congrArg Except.ok hmap

end MaskedRaster

namespace Raster

/-! ### Traversals written with the reads of one cell -/

section ByIndex

variable (r : Raster)

/-- The cells read one index at a time through `value`. -/
def cellsByIndex : Outcome (List (Option Pixel)) := (List.range r.len).mapM r.value

/-- The values of the data cells, read one index at a time. -/
def dataValuesByIndex : Outcome (List Pixel) := r.cellsByIndex.map (·.filterMap id)

/-- The number of missing cells, asked one index at a time through `isNodata`. -/
def nodataCountByIndex : Outcome Nat := ((List.range r.len).mapM r.isNodata).map (·.count true)

/-- Whether some cell is missing, asked one index at a time until one is. -/
def hasNodataByIndex : Outcome Bool := (List.range r.len).anyM r.isNodata

/-- A cell that reads as a value or as missing is asked about as data or as missing. -/
theorem isNodata_of_value_eq_ok {i : Nat} {x : Option Pixel} (h : r.value i = .ok x) :
    r.isNodata i = .ok x.isNone := by
  cases r with
  | dense d => exact d.isNodata_of_value_eq_ok h
  | masked k => exact k.isNodata_of_value_eq_ok h
  | sparse s => exact s.isNodata_of_value_eq_ok h

theorem hasNodata_eq : r.hasNodata = decide (0 < r.nodataCount) := by
  cases r with
  | dense d => exact d.hasNodata_eq
  | masked k => exact k.hasNodata_eq
  | sparse s => exact s.hasNodata_eq

end ByIndex

variable {r : Raster}

theorem Wf.isNodata_eq (h : r.Wf) {i : Nat} (hi : i < r.len) :
    r.isNodata i = (r.value i).map Option.isNone := by
  rw [r.isNodata_of_value_eq_ok (h.value_eq hi), h.value_eq hi]
  rfl

theorem Wf.dataValues_eq (h : r.Wf) : r.dataValues = r.toOptions.filterMap id := by
  cases r with
  | dense d => exact d.dataValues_eq
  | masked k => rfl
  | sparse s =>
    obtain ⟨⟨rows, hl⟩, hw⟩ := h
    exact hl.values_eq_filterMap hw

theorem Wf.nodataCount_eq (h : r.Wf) : r.nodataCount = r.toOptions.countP (·.isNone) := by
  cases r with
  | dense d => exact d.nodataCount_eq
  | masked k => exact MaskedRaster.Wf.nodataCount_eq h
  | sparse s =>
    -- the cells that are not missing are the stored values
    have hsome : s.toOptions.countP (·.isSome) = s.storedCount := by
      rw [SparseRaster.storedCount, ← SparseRaster.dataValues, ← Raster.dataValues,
        Wf.dataValues_eq h, List.length_filterMap_eq_countP]
      rfl
    have hnot : (fun x : Option Pixel => decide ¬x.isNone = true) = (·.isSome) := by
      funext x
      cases x <;> rfl
    have hcount := List.length_eq_countP_add_countP (fun x : Option Pixel => x.isNone)
      (l := s.toOptions)
    rw [hnot, hsome, SparseRaster.Wf.length_toOptions h] at hcount
    show s.len - s.storedCount = s.toOptions.countP (·.isNone)
    omega

theorem Wf.cellsByIndex_eq (h : r.Wf) : r.cellsByIndex = .ok r.toOptions := by
  rw [cellsByIndex, mapM_eq_ok_map fun i hi => h.value_eq (List.mem_range.mp hi),
    ← h.length_toOptions, SparseRaster.map_getD_range]

theorem Wf.dataValuesByIndex_eq (h : r.Wf) : r.dataValuesByIndex = .ok r.dataValues := by
  rw [dataValuesByIndex, h.cellsByIndex_eq, h.dataValues_eq]
  rfl

/-- Asking every index in turn whether it is missing asks each cell of the list of all cells. -/
theorem Wf.mapM_isNodata (h : r.Wf) :
    (List.range r.len).mapM r.isNodata = .ok (r.toOptions.map (·.isNone)) := by
  rw [mapM_eq_ok_map (g := fun i => (r.toOptions.getD i none).isNone) fun i hi => by
      rw [h.isNodata_eq (List.mem_range.mp hi), h.value_eq (List.mem_range.mp hi)]
      rfl,
    ← h.length_toOptions, map_range_getD]

theorem Wf.nodataCountByIndex_eq (h : r.Wf) : r.nodataCountByIndex = .ok r.nodataCount := by
  rw [nodataCountByIndex, h.mapM_isNodata, h.nodataCount_eq, ok_map, List.count_eq_countP,
    List.countP_map]
  simp [Function.comp_def]

theorem Wf.hasNodataByIndex_eq (h : r.Wf) : r.hasNodataByIndex = .ok r.hasNodata := by
  have hany : (List.range r.len).any (fun i => (r.toOptions.getD i none).isNone) =
      r.toOptions.any (·.isNone) := by
    rw [← h.length_toOptions]
    conv_rhs => rw [← SparseRaster.map_getD_range r.toOptions none, List.any_map]
    rfl
  rw [hasNodataByIndex, anyM_eq_ok_any fun i hi => (h.isNodata_eq (List.mem_range.mp hi)).trans
      (by rw [h.value_eq (List.mem_range.mp hi)]; rfl), hany, r.hasNodata_eq, h.nodataCount_eq]
  congr 1
  rw [Bool.eq_iff_iff, List.any_eq_true, decide_eq_true_eq, List.countP_pos_iff]


/-! ### Every reachable raster -/

/-- The traversals that a raster's storage gives agree with the ones written with the reads of
one cell, and the traversals only a storage has are what they stand for. -/
structure TraversalsAgree (r : Raster) : Prop where
  /-- The list of all cells has one entry per cell. -/
  length_toOptions : r.toOptions.length = r.len
  /-- Reading each index in turn gives the list of all cells. -/
  cellsByIndex_eq : r.cellsByIndex = .ok r.toOptions
  /-- A cell is asked about as missing exactly when it reads as none. -/
  isNodata_eq : ∀ i < r.len, r.isNodata i = (r.value i).map Option.isNone
  dataValuesByIndex_eq : r.dataValuesByIndex = .ok r.dataValues
  nodataCountByIndex_eq : r.nodataCountByIndex = .ok r.nodataCount
  hasNodataByIndex_eq : r.hasNodataByIndex = .ok r.hasNodata
  hasNodata_eq : r.hasNodata = decide (0 < r.nodataCount)
  /-- The stored cells of a sparse raster are its present cells in order of index, each at the
  cell of its index. -/
  storedCells_eq : ∀ s, r = .sparse s →
    ((List.range s.len).filterMap fun i => (s.toOptions.getD i none).map (i, ·)).mapM
      (fun p => (Cell.ofIndex p.1 s.metadata.cols).map (·, p.2)) = .ok s.storedCells
  /-- The cells of a sparse raster with the nodata value filled in. -/
  withNodata_eq : ∀ s, r = .sparse s → s.withNodata = s.toOptions.map (·.getD s.nodata)
  /-- Iterating the values yields the data values in order: for a raster with a buffer this
  collects the iterator over the whole grid, which skips the missing cells. -/
  valueIter_eq : r.valueIter = .ok r.dataValues

/-- On every reachable raster the storage's traversals agree with reading one cell at a time. -/
theorem Reachable.traversalsAgree (h : r.Reachable) : r.TraversalsAgree := by
  obtain ⟨hw, hd⟩ := h.sound
  refine ⟨hw.length_toOptions, hw.cellsByIndex_eq, fun i hi => hw.isNodata_eq hi,
    hw.dataValuesByIndex_eq, hw.nodataCountByIndex_eq, hw.hasNodataByIndex_eq, r.hasNodata_eq,
    ?_, fun s _ => rfl, ?_⟩
  · -- the stored cells of a sparse raster
    rintro s rfl
    obtain ⟨⟨rows, hl⟩, -⟩ := hw
    exact hl.storedCells_eq_ofIndex hd
  · -- the iterator over the whole grid of a raster with a buffer
    cases r with
    | dense d => exact DenseRaster.valueIter_eq hw hd
    | masked k => exact MaskedRaster.valueIter_eq hw hd
    | sparse s => rfl

/-- A sparse raster storing two of its six cells, and a dense and a masked raster of three cells,
one of them at the nodata value, are reachable: their traversals agree, and they read the stored
values, or the values that are not nodata, in row-major order. -/
theorem traversalsAgree_each_backend :
    ∃ s d k, Backend.sparse.ofList .int32 (Metadata.sized ⟨2, 3⟩ (some (BinaryFloat.ofInt (-1))))
        [.int (-1), .int (-1), .int 7, .int 4, .int (-1), .int (-1)] = .ok s ∧
      Backend.dense.ofOptions .int32 (Metadata.sized ⟨1, 3⟩ (some (BinaryFloat.ofInt 5)))
        [some (.int 4), none, some (.int 9)] = .ok d ∧
      Backend.masked.ofList .int32 (Metadata.sized ⟨1, 3⟩ (some (BinaryFloat.ofInt 5)))
        [.int 4, .int 5, .int 9] = .ok k ∧
      s.TraversalsAgree ∧ d.TraversalsAgree ∧ k.TraversalsAgree ∧
      s.toOptions = [none, none, some (.int 7), some (.int 4), none, none] ∧
      s.dataValues = [.int 7, .int 4] ∧ s.nodataCount = 4 ∧
      d.toOptions = [some (.int 4), none, some (.int 9)] ∧ d.dataValues = [.int 4, .int 9] ∧
      k.toOptions = [some (.int 4), none, some (.int 9)] ∧ k.dataValues = [.int 4, .int 9] := by
  have hm : (Metadata.sized ⟨1, 3⟩ (some (BinaryFloat.ofInt 5))).CoordDims := ⟨rfl, rfl⟩
  obtain ⟨s, hs⟩ : ∃ s, Backend.sparse.ofList .int32
      (Metadata.sized ⟨2, 3⟩ (some (BinaryFloat.ofInt (-1))))
      [.int (-1), .int (-1), .int 7, .int 4, .int (-1), .int (-1)] = .ok s := ⟨_, rfl⟩
  obtain ⟨d, hd⟩ : ∃ d, Backend.dense.ofOptions .int32
      (Metadata.sized ⟨1, 3⟩ (some (BinaryFloat.ofInt 5))) [some (.int 4), none, some (.int 9)] =
        .ok d := ⟨_, rfl⟩
  -- the mask of a masked raster is found with a search over the buffer, which does not reduce
  have hk : Backend.masked.ofList .int32 (Metadata.sized ⟨1, 3⟩ (some (BinaryFloat.ofInt 5)))
      [.int 4, .int 5, .int 9] = .ok (masked ⟨.int32, Metadata.sized ⟨1, 3⟩
        (some (BinaryFloat.ofInt 5)), #[.int 4, .int 5, .int 9], #[false, true, false]⟩) := by
    have hflags : #[Pixel.int 4, .int 5, .int 9].map (MaskedRaster.isNodataValue
        ⟨.int32, Metadata.sized ⟨1, 3⟩ (some (BinaryFloat.ofInt 5)), #[.int 4, .int 5, .int 9],
          #[]⟩) = #[false, true, false] := by decide +kernel
    have hany : (#[false, true, false] : Array Bool).any id = true := by simp
    show Except.ok (masked (MaskedRaster.initNodataValues _)) = _
    rw [MaskedRaster.initNodataValues, hflags]
    simp only [hany, ↓reduceIte]
    rfl
  have hs' := Reachable.traversalsAgree (.built (.ofList ⟨rfl, rfl⟩ hs))
  have hd' := Reachable.traversalsAgree (.built (.ofOptions hm hd))
  have hk' := Reachable.traversalsAgree (.built (.ofList hm hk))
  cases hs
  cases hd
  exact ⟨_, _, _, rfl, rfl, hk, hs', hd', hk', rfl, rfl, rfl, rfl, rfl, rfl, rfl⟩

end Raster

end Georaster
