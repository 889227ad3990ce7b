import Georaster.Proofs.Raster.Storage
import Georaster.Grid.Walk
/-!
# The cursor and the iterators over an area

The cells of an area in row-major order (`Area.cells`) are the `k`-th cells `Area.cellAt`, `k / n`
rows below and `k % n` columns right of the first, for `n` the number of columns. Over an area
that fits its buffer (`Area.Walkable`), the cursor stands at every moment on one of these cells
or past the last one: it is `AreaWalker.onCell a cols k`. One step from the `k`-th cell hands out
that cell with its row-major position `row * cols + col` (`Cell.position`) and stands on the
`k + 1`-th; past the last cell a step gives nothing (`AreaWalker.step_onCell`). Everything else
follows from this one step:

* a search from the `k`-th cell finds the first of the cells from there that it takes, and stands
  past it (`AreaWalker.seek_of_cons`, `AreaWalker.seek_of_nil`);
* a `RasterIterator` yields, one at a time and each as its current cell, exactly the cells of the
  area that the filters keep with the value stored at each position, and then nothing with no
  current cell (`RasterIterator.nexts_eq`, `RasterIterator.finish_eq`);
* along the area the positions strictly increase and stay below the buffer's length
  (`Area.pairwise_position`, `Area.fits_mem`), so a `RasterIteratorMut` never rebases an index
  below the start of its tail nor reads past its end: it reads the values the read iterator
  reads, hands out the same positions in the same order, and writing a value through them
  writes exactly those positions (`RasterIteratorMut.assign_eq`).
-/

namespace Georaster

section Outcomes

variable {α β γ ε : Type}

theorem toOption_bind_eq_some {x : Except ε (Option β)} {b : β} :
    x.toOption.bind id = some b ↔ x = .ok (some b) := by
  cases x <;> simp [Except.toOption]

/-- Two filtering traversals whose steps agree on the list are the same. -/
theorem filterMapM_congr {f g : α → Except ε (Option β)} :
    ∀ {l : List α}, (∀ a ∈ l, f a = g a) → l.filterMapM f = l.filterMapM g
  | [], _ => rfl
  | a :: l, h => by
    rw [List.filterMapM_cons, List.filterMapM_cons, h a List.mem_cons_self,
      filterMapM_congr fun b hb => h b (List.mem_cons_of_mem a hb)]

/-- Mapping what a filtering traversal keeps is mapping what each of its steps keeps. -/
theorem filterMapM_map (f : α → Except ε (Option β)) (g : β → γ) :
    ∀ l : List α, (l.filterMapM f).map (List.map g) = l.filterMapM fun a => (f a).map (Option.map g)
  | [] => rfl
  | a :: l => by
    rw [List.filterMapM_cons, List.filterMapM_cons, ← filterMapM_map f g l]
    cases f a with
    | error e => rfl
    | ok o =>
      cases o with
      | none => rfl
      | some b => cases l.filterMapM f <;> rfl

/-- What a successful filtering traversal keeps is what its steps keep. -/
theorem filterMapM_eq_ok_filterMap {f : α → Except ε (Option β)} :
    ∀ {l : List α} {bs : List β}, l.filterMapM f = .ok bs →
      bs = l.filterMap fun a => (f a).toOption.bind id
  | [], bs, h => by
    rw [List.filterMapM_nil, pure_eq_ok] at h
    exact h.symm
  | a :: l, bs, h => by
    rw [List.filterMapM_cons] at h
    obtain ⟨o, ho, h⟩ := bind_eq_ok.mp h
    cases o with
    | none =>
      rw [List.filterMap_cons, ho]
      exact filterMapM_eq_ok_filterMap h
    | some b =>
      obtain ⟨bs', hbs', h⟩ := bind_eq_ok.mp h
      rw [List.filterMap_cons, ho, ← filterMapM_eq_ok_filterMap hbs', ← pure_eq_ok.mp h]
      rfl

end Outcomes

/-- Setting one value at each position of a list: the positions in the list hold the value, where
they lie in the array, and every other position keeps its value. -/
theorem getElem?_foldl_setIfInBounds {α β : Type} (k : β → Nat) (v : α) :
    ∀ (l : List β) (d : Array α) (j : Nat),
      (l.foldl (fun d y => d.setIfInBounds (k y) v) d)[j]? =
        if j ∈ l.map k then d[j]?.map fun _ => v else d[j]?
  | [], d, j => by simp
  | y :: l, d, j => by
    rw [List.foldl_cons, getElem?_foldl_setIfInBounds k v l]
    simp only [List.map_cons, List.mem_cons, Array.getElem?_setIfInBounds]
    by_cases hy : k y = j
    · subst hy
      by_cases hd : k y < d.size <;> simp [hd]
    · by_cases hl : j ∈ l.map k <;> simp [hy, hl, Ne.symm hy]

theorem size_foldl_setIfInBounds {α β : Type} (k : β → Nat) (v : α) :
    ∀ (l : List β) (d : Array α), (l.foldl (fun d y => d.setIfInBounds (k y) v) d).size = d.size
  | [], _ => rfl
  | y :: l, d => by
    rw [List.foldl_cons, size_foldl_setIfInBounds k v l, Array.size_setIfInBounds]

namespace Coord

theorem fits_iff {n : Int} : fits n = true ↔ -2 ^ 31 ≤ n ∧ n < 2 ^ 31 := by
  simp [fits]

theorem add_of_fits {a b : Int} (h : fits (a + b) = true) : add a b = .ok (a + b) :=
  (checked_eq_ok_iff _ _ _).mpr ⟨h, rfl⟩

theorem sub_of_fits {a b : Int} (h : fits (a - b) = true) : sub a b = .ok (a - b) :=
  (checked_eq_ok_iff _ _ _).mpr ⟨h, rfl⟩

theorem eq_of_add_eq_ok {a b n : Int} (h : add a b = .ok n) : n = a + b :=
  ((checked_eq_ok_iff _ _ _).mp h).2.symm

theorem eq_of_sub_eq_ok {a b n : Int} (h : sub a b = .ok n) : n = a - b :=
  ((checked_eq_ok_iff _ _ _).mp h).2.symm

end Coord

namespace Cell

/-- The row-major position of a cell in a grid of `cols` columns, as a count. -/
def position (c : Cell) (cols : Int) : Nat := c.row.toNat * cols.toNat + c.col.toNat

/-- The index of a valid cell in a grid of machine-word width is its row-major position, while
that position is a machine word. -/
theorem index_eq_position {c : Cell} {cols : Int} (hr : 0 ≤ c.row) (hc : 0 ≤ c.col)
    (h0 : 0 ≤ cols) (hcw : cols < wordSize) (hw : c.position cols < wordSize) :
    c.index cols = .ok (c.position cols) := by
  have hwidth : (cols % (wordSize : Int)).toNat = cols.toNat := by
    rw [Int.emod_eq_of_lt h0 hcw]
  unfold position at hw
  unfold index
  simp only [isValid, hr, hc, and_self, decide_true, Bool.not_true, Bool.false_eq_true, if_false,
    hwidth]
  rw [if_neg (by omega), if_neg (by omega)]
  rfl

end Cell

/-! ### The cells of an area -/

namespace Area

/-- The cells of the area in row-major order. -/
def cells (a : Area) : List Cell :=
  if a.isEmpty then []
  else
    (List.range a.rows.toNat).flatMap fun (i : Nat) =>
      (List.range a.cols.toNat).map fun (j : Nat) => Cell.mk (a.topLeft.row + i) (a.topLeft.col + j)

/-- The `k`-th cell of the area: `k / n` rows below and `k % n` columns right of the first cell,
for `n` the number of columns. -/
def cellAt (a : Area) (k : Nat) : Cell :=
  ⟨a.topLeft.row + (k / a.cols.toNat : Nat), a.topLeft.col + (k % a.cols.toNat : Nat)⟩

variable {a : Area} {cols : Int} {len : Nat}

/-- The cell `q` rows below and `m < n` columns right of the first is the `q * n + m`-th. -/
theorem cellAt_mul_add {q m : Nat} (hm : m < a.cols.toNat) :
    a.cellAt (q * a.cols.toNat + m) = ⟨a.topLeft.row + q, a.topLeft.col + m⟩ := by
  obtain ⟨hdiv, hmod⟩ := SparseRaster.div_mod_index (k := q) hm
  simp only [cellAt, hdiv, hmod]

/-- The cells of an area are its `k`-th cells, one for each index below the number of cells. -/
theorem cells_eq_map (a : Area) : a.cells = (List.range a.cellCount).map a.cellAt := by
  unfold cells cellCount
  split
  · rfl
  · -- one row at a time
    induction a.rows.toNat with
    | zero => simp
    | succ R ih =>
      rw [List.range_succ, List.flatMap_append, ih, Nat.succ_mul, List.range_add, List.map_append,
        List.map_map, List.flatMap_singleton]
      congr 1
      apply List.map_congr_left
      intro j hj
      exact (cellAt_mul_add (List.mem_range.mp hj)).symm

@[simp] theorem length_cells (a : Area) : a.cells.length = a.cellCount := by
  rw [cells_eq_map, List.length_map, List.length_range]

theorem getElem?_cells (a : Area) (k : Nat) :
    a.cells[k]? = if k < a.cellCount then some (a.cellAt k) else none := by
  rw [cells_eq_map, List.getElem?_map]
  by_cases hk : k < a.cellCount
  · rw [List.getElem?_range hk, if_pos hk]
    rfl
  · rw [List.getElem?_eq_none (by rw [List.length_range]; omega), if_neg hk]
    rfl

/-- A cell lies in an area exactly when it lies in its rows and in its columns. -/
theorem mem_cells {p : Cell} :
    p ∈ a.cells ↔ a.topLeft.row ≤ p.row ∧ p.row < a.topLeft.row + a.rows ∧
      a.topLeft.col ≤ p.col ∧ p.col < a.topLeft.col + a.cols := by
  unfold cells
  split
  · -- an empty area has no row or no column
    rename_i he
    simp only [isEmpty, decide_eq_true_eq] at he
    simp only [List.not_mem_nil, false_iff]
    omega
  · rename_i he
    simp only [isEmpty, decide_eq_true_eq, not_or, not_le] at he
    simp only [List.mem_flatMap, List.mem_range, List.mem_map]
    constructor
    · rintro ⟨i, hi, j, hj, rfl⟩
      dsimp only
      omega
    · rintro ⟨h1, h2, h3, h4⟩
      refine ⟨(p.row - a.topLeft.row).toNat, by omega, (p.col - a.topLeft.col).toNat, by omega, ?_⟩
      obtain ⟨row, col⟩ := p
      dsimp only at h1 h2 h3 h4 ⊢
      rw [Cell.mk.injEq]
      omega

theorem isEmpty_eq_false_of_mem {p : Cell} (h : p ∈ a.cells) : a.isEmpty = false := by
  rw [mem_cells] at h
  simp only [isEmpty, decide_eq_false_iff_not, not_or, not_le]
  omega

/-- The last cell of an area that holds cells is its last row and column; both ends are
coordinates. -/
theorem bottomRight_eq {br : Cell} (he : a.isEmpty = false) (h : a.bottomRight = .ok br) :
    br = ⟨a.topLeft.row + a.rows - 1, a.topLeft.col + a.cols - 1⟩ ∧
      Coord.fits (a.topLeft.row + a.rows) = true ∧ Coord.fits (a.topLeft.col + a.cols) = true := by
  unfold bottomRight at h
  rw [if_neg (by simp [he])] at h
  obtain ⟨endRow, hendRow, h⟩ := bind_eq_ok.mp h
  obtain ⟨row, hrow, h⟩ := bind_eq_ok.mp h
  obtain ⟨endCol, hendCol, h⟩ := bind_eq_ok.mp h
  obtain ⟨col, hcol, h⟩ := bind_eq_ok.mp h
  refine ⟨?_, ((Coord.checked_eq_ok_iff _ _ _).mp hendRow).1,
    ((Coord.checked_eq_ok_iff _ _ _).mp hendCol).1⟩
  rw [← pure_eq_ok.mp h, Coord.eq_of_sub_eq_ok hrow, Coord.eq_of_add_eq_ok hendRow,
    Coord.eq_of_sub_eq_ok hcol, Coord.eq_of_add_eq_ok hendCol]

/-- An area with cells that fits a buffer starts at a valid cell, lies in the grid's columns, ends
at coordinates, and its last cell's position lies in the buffer. -/
theorem fits_bounds (h : a.fits cols len = .ok true) (he : a.isEmpty = false) :
    0 ≤ a.topLeft.row ∧ 0 ≤ a.topLeft.col ∧ a.topLeft.col + a.cols ≤ cols ∧
      Coord.fits (a.topLeft.row + a.rows) = true ∧ Coord.fits (a.topLeft.col + a.cols) = true ∧
      (a.topLeft.row + a.rows - 1).toNat * cols.toNat + (a.topLeft.col + a.cols - 1).toNat < len := by
  unfold fits at h
  rw [if_neg (by simp [he])] at h
  obtain ⟨br, hbr, h⟩ := bind_eq_ok.mp h
  obtain ⟨rfl, hrow, hcol⟩ := bottomRight_eq he hbr
  simp only [pure_eq_ok, Bool.and_eq_true, decide_eq_true_eq] at h
  obtain ⟨⟨h0, h1, hlt⟩, hlast⟩ := h
  exact ⟨h0, h1, by omega, hrow, hcol, hlast⟩

/-- The cells of an area that fits a buffer are valid cells of the grid's columns whose
positions lie in the buffer. -/
theorem fits_mem (h : a.fits cols len = .ok true) {p : Cell} (hp : p ∈ a.cells) :
    0 ≤ p.row ∧ 0 ≤ p.col ∧ p.col < cols ∧ p.position cols < len := by
  obtain ⟨h0, h1, hcol, -, -, hlast⟩ := fits_bounds h (isEmpty_eq_false_of_mem hp)
  rw [mem_cells] at hp
  -- the position grows with the row and with the column
  have hrow : p.row.toNat * cols.toNat ≤ (a.topLeft.row + a.rows - 1).toNat * cols.toNat :=
    Nat.mul_le_mul_right _ (by omega)
  refine ⟨by omega, by omega, by omega, ?_⟩
  unfold Cell.position
  omega

/-- Along the cells of an area that fits a buffer, the row-major positions strictly increase. -/
theorem pairwise_position (h : a.fits cols len = .ok true) :
    (a.cells.map (·.position cols)).Pairwise (· < ·) := by
  unfold cells
  split
  · exact List.Pairwise.nil
  · rename_i he
    obtain ⟨h0, h1, hcol, -⟩ := fits_bounds h (by simpa using he)
    rw [List.pairwise_map, List.pairwise_flatMap]
    refine ⟨fun i _ => ?_, List.pairwise_lt_range.imp ?_⟩
    · -- along a row the column grows
      rw [List.pairwise_map]
      refine List.pairwise_lt_range.imp ?_
      intro j j' hjj'
      unfold Cell.position
      dsimp only
      omega
    · -- every cell of a row comes before every cell of a later row
      intro i i' hii' p hp q hq
      simp only [List.mem_map, List.mem_range] at hp hq
      obtain ⟨j, hj, rfl⟩ := hp
      obtain ⟨j', hj', rfl⟩ := hq
      have hrow := Nat.mul_le_mul_right cols.toNat
        (show (a.topLeft.row + i).toNat + 1 ≤ (a.topLeft.row + i').toNat by omega)
      rw [Nat.succ_mul] at hrow
      unfold Cell.position
      dsimp only
      omega

/-- The cells after the `k`-th lie at later positions than it. -/
theorem position_lt_of_mem_drop (h : a.fits cols len = .ok true) {k : Nat} {c p : Cell}
    (hc : a.cells[k]? = some c) (hp : p ∈ a.cells.drop (k + 1)) :
    c.position cols < p.position cols := by
  have hk : k < a.cells.length := (List.getElem?_eq_some_iff.mp hc).1
  have hmem : c ∈ a.cells.take (k + 1) := by
    rw [List.mem_take_iff_getElem]
    exact ⟨k, by simp only [length_cells] at hk ⊢; omega, (List.getElem?_eq_some_iff.mp hc).2⟩
  exact List.pairwise_map.mp (pairwise_position h) |>.rel_of_mem_take_of_mem_drop hmem hp

/-- The `k'`-th cell lies among the cells from the `k`-th on, for `k ≤ k'`. -/
theorem mem_drop_of_getElem? {k k' : Nat} {c : Cell} (hle : k ≤ k') (hc : a.cells[k']? = some c) :
    c ∈ a.cells.drop k :=
  List.mem_iff_getElem?.mpr ⟨k' - k, by rw [List.getElem?_drop, Nat.add_sub_cancel' hle]; exact hc⟩

/-- An area that can be walked over a buffer of `len` values in a grid of `cols` columns: it fits
the buffer, the number of columns is a coordinate, and the buffer is shorter than a machine
word. -/
structure Walkable (a : Area) (cols : Int) (len : Nat) : Prop where
  fits : a.fits cols len = .ok true
  cols_fits : Coord.fits cols = true
  len_lt : len < wordSize

end Area

/-! ### The cursor -/

namespace AreaWalker

/-- The cursor over the area standing on its `k`-th cell, or past the last one. -/
def onCell (a : Area) (cols : Int) (k : Nat) : AreaWalker := ⟨a, cols, a.cells[k]?.getD .invalid⟩

variable {a : Area} {cols : Int} {len : Nat}

/-- A new cursor stands on the first cell. -/
theorem new_eq_onCell (a : Area) (cols : Int) : new a cols = onCell a cols 0 := by
  unfold new onCell
  rw [Area.getElem?_cells]
  by_cases he : a.isEmpty = true
  · have h0 : a.cellCount = 0 := by simp [Area.cellCount, he]
    simp [he, h0]
  · have hne : 0 < a.rows ∧ 0 < a.cols := by simpa [Area.isEmpty] using he
    have hpos : 0 < a.cellCount := by
      simp only [Area.cellCount, he, if_false, Bool.false_eq_true]
      exact Nat.mul_pos (by omega) (by omega)
    simp [he, hpos, Area.cellAt]

/-- Past the last cell every cursor is the exhausted one. -/
theorem onCell_of_le {k : Nat} (hk : a.cellCount ≤ k) : onCell a cols k = onCell a cols a.cellCount := by
  simp only [onCell, Area.getElem?_cells, if_neg (Nat.not_lt.mpr hk), Nat.lt_irrefl, if_false]

/-- Within an area that fits a buffer, the cell following the `k`-th is the `k + 1`-th, or the
invalid cell past the last. -/
theorem following_cellAt (hfit : a.fits cols len = .ok true) (w : AreaWalker) (hw : w.area = a)
    {k : Nat} (hk : k < a.cellCount) :
    w.following (a.cellAt k) = .ok (a.cells[k + 1]?.getD .invalid) := by
  have he : a.isEmpty = false := by
    cases he : a.isEmpty
    · rfl
    · simp [Area.cellCount, he] at hk
  have hne : 0 < a.rows ∧ 0 < a.cols := by simpa [Area.isEmpty] using he
  obtain ⟨h0, h1, -, hrowf, hcolf, -⟩ := Area.fits_bounds hfit he
  rw [Coord.fits_iff] at hrowf hcolf
  have hcount : a.cellCount = a.rows.toNat * a.cols.toNat := by
    simp only [Area.cellCount, he, if_false, Bool.false_eq_true]
  -- the `k`-th cell is `q` rows and `m` columns from the first
  obtain ⟨q, m, hm, rfl⟩ : ∃ q m, m < a.cols.toNat ∧ k = q * a.cols.toNat + m :=
    ⟨k / a.cols.toNat, k % a.cols.toNat, Nat.mod_lt _ (by omega), (Nat.div_add_mod' k _).symm⟩
  have hq : q < a.rows.toNat := by
    by_contra hq
    have := Nat.mul_le_mul_right a.cols.toNat (Nat.not_lt.mp hq)
    omega
  -- every sum the step computes is a coordinate
  have hcol1 : Coord.add (a.topLeft.col + m) 1 = pure (a.topLeft.col + m + 1) :=
    Coord.add_of_fits (Coord.fits_iff.mpr ⟨by omega, by omega⟩)
  have hrow1 : Coord.add (a.topLeft.row + q) 1 = pure (a.topLeft.row + q + 1) :=
    Coord.add_of_fits (Coord.fits_iff.mpr ⟨by omega, by omega⟩)
  have hendCol : Coord.add a.topLeft.col a.cols = pure (a.topLeft.col + a.cols) :=
    Coord.add_of_fits (Coord.fits_iff.mpr hcolf)
  have hendRow : Coord.add a.topLeft.row a.rows = pure (a.topLeft.row + a.rows) :=
    Coord.add_of_fits (Coord.fits_iff.mpr hrowf)
  rw [Area.cellAt_mul_add hm, Area.getElem?_cells]
  subst hw
  unfold following
  dsimp only
  rw [hcol1, pure_bind, hendCol, pure_bind]
  by_cases hwrap : m + 1 < w.area.cols.toNat
  · -- a column further along the same row
    have hnext : q * w.area.cols.toNat + m + 1 = q * w.area.cols.toNat + (m + 1) := by omega
    have hrowEnd := Nat.mul_le_mul_right w.area.cols.toNat (show q + 1 ≤ w.area.rows.toNat by omega)
    rw [Nat.add_mul, Nat.one_mul] at hrowEnd
    rw [if_neg (by omega), pure_bind, hendRow, pure_bind]
    dsimp only
    rw [if_neg (by omega), if_pos (by rw [hcount]; omega), hnext, Area.cellAt_mul_add hwrap]
    simp only [Option.getD_some, Nat.cast_add, Nat.cast_one, Int.add_assoc]
    rfl
  · -- the last column: the first column of the next row, if there is one
    have hnext : q * w.area.cols.toNat + m + 1 = (q + 1) * w.area.cols.toNat + 0 := by
      rw [Nat.add_mul, Nat.one_mul]
      omega
    rw [if_pos (by omega), hrow1, map_pure, pure_bind, hendRow, pure_bind, hnext]
    dsimp only
    by_cases hlast : q + 1 < w.area.rows.toNat
    · have hlt : (q + 1) * w.area.cols.toNat + 0 < w.area.cellCount := by
        rw [hcount]
        have := Nat.mul_le_mul_right w.area.cols.toNat (show q + 2 ≤ w.area.rows.toNat by omega)
        rw [Nat.add_mul] at this
        omega
      rw [if_neg (by omega), if_pos hlt, Area.cellAt_mul_add (by omega)]
      simp only [Option.getD_some, Nat.cast_add, Nat.cast_one, Nat.cast_zero, Int.add_zero,
        Int.add_assoc]
      rfl
    · have hge : ¬(q + 1) * w.area.cols.toNat + 0 < w.area.cellCount := by
        rw [hcount]
        have := Nat.mul_le_mul_right w.area.cols.toNat (show w.area.rows.toNat ≤ q + 1 by omega)
        omega
      rw [if_pos (by omega), if_neg hge]
      rfl

/-- One step of the cursor on the `k`-th cell of an area that can be walked: the cell, with its
position, and the cursor on the next cell; nothing past the last cell. -/
theorem step_onCell (h : a.Walkable cols len) (k : Nat) :
    (onCell a cols k).step =
      .ok (a.cells[k]?.map fun c => (c, c.position cols, onCell a cols (k + 1))) := by
  by_cases hk : k < a.cellCount
  · have hc : a.cells[k]? = some (a.cellAt k) := by rw [Area.getElem?_cells, if_pos hk]
    obtain ⟨hr, hcc, hlt, hpos⟩ := Area.fits_mem h.fits (List.mem_of_getElem? hc)
    have hcols := Coord.fits_iff.mp h.cols_fits
    have hindex : (a.cellAt k).index cols = .ok ((a.cellAt k).position cols) :=
      Cell.index_eq_position hr hcc (by omega) (by simp only [wordSize]; omega)
        (by have := h.len_lt; omega)
    unfold step
    simp only [onCell, hc, Option.getD_some, Option.map_some]
    rw [if_neg (by simp [Cell.isValid, hr, hcc]),
      following_cellAt h.fits _ rfl hk, ok_bind, hindex, ok_bind]
    rfl
  · have hc : a.cells[k]? = none := by rw [Area.getElem?_cells, if_neg hk]
    unfold step
    simp only [onCell, hc, Option.getD_none, Option.map_none]
    rfl

section Steps

variable {β : Type} {keep : Cell → Nat → Outcome (Option β)} {w w' : AreaWalker}

/-- A search with an exhausted cursor finds nothing. -/
theorem seek_of_step_none (h : w.step = .ok none) : w.seek keep = .ok (none, w) := by
  rw [seek]
  split <;> rename_i heq <;> rw [heq] at h <;> cases h
  rfl

/-- A search stops at a cell that `keep` takes, with what it takes there. -/
theorem seek_of_step_kept {c : Cell} {i : Nat} {b : β} (h : w.step = .ok (some (c, i, w')))
    (hk : keep c i = .ok (some b)) : w.seek keep = .ok (some (c, b), w') := by
  rw [seek]
  split <;> rename_i heq <;> rw [heq] at h <;> cases h
  rw [hk]
  rfl

/-- A search passes a cell that `keep` skips and goes on from the next one. -/
theorem seek_of_step_skipped {c : Cell} {i : Nat} (h : w.step = .ok (some (c, i, w')))
    (hk : keep c i = .ok none) : w.seek keep = w'.seek keep := by
  rw [seek]
  split <;> rename_i heq <;> rw [heq] at h <;> cases h
  rw [hk]
  rfl

/-- A search fails where `keep` fails at a cell. -/
theorem seek_of_step_error {c : Cell} {i : Nat} {e : Fault} (h : w.step = .ok (some (c, i, w')))
    (hk : keep c i = .error e) : w.seek keep = .error e := by
  rw [seek]
  split <;> rename_i heq <;> rw [heq] at h <;> cases h
  rw [hk]
  rfl

end Steps

/-- What a search by `keep` takes from the cells, in order, each looked at with its position in a
grid of `cols` columns. -/
def takes {β : Type} (keep : Cell → Nat → Outcome (Option β)) (cols : Int) (cs : List Cell) :
    Outcome (List (Cell × β)) :=
  cs.filterMapM fun c => do pure ((← keep c (c.position cols)).map (c, ·))

section Search

variable {β : Type} {keep : Cell → Nat → Outcome (Option β)}

/-- What a search takes from a cell and the cells after it: nothing from the cell and the rest
from the cells after it, or the cell with what `keep` gives for it, then the rest. -/
theorem takes_cons {c : Cell} {cs : List Cell} {ys : List (Cell × β)}
    (h : takes keep cols (c :: cs) = .ok ys) :
    (keep c (c.position cols) = .ok none ∧ takes keep cols cs = .ok ys) ∨
      ∃ b ys', keep c (c.position cols) = .ok (some b) ∧ takes keep cols cs = .ok ys' ∧
        ys = (c, b) :: ys' := by
  unfold takes at h
  rw [List.filterMapM_cons] at h
  obtain ⟨o, ho, h⟩ := bind_eq_ok.mp h
  obtain ⟨x, hx, ho⟩ := bind_eq_ok.mp ho
  cases pure_eq_ok.mp ho
  cases x with
  | none => exact .inl ⟨hx, h⟩
  | some b =>
    obtain ⟨ys', hys', h⟩ := bind_eq_ok.mp h
    exact .inr ⟨b, ys', hx, hys', (pure_eq_ok.mp h).symm⟩

/-- A search fails on a cell and the cells after it where `keep` fails at the cell, or passes it
or takes it and then fails on the cells after it. -/
theorem takes_cons_error {c : Cell} {cs : List Cell} {e : Fault}
    (h : takes keep cols (c :: cs) = .error e) :
    keep c (c.position cols) = .error e ∨ (keep c (c.position cols) = .ok none ∧
      takes keep cols cs = .error e) ∨
      ∃ b, keep c (c.position cols) = .ok (some b) ∧ takes keep cols cs = .error e := by
  unfold takes at h
  rw [List.filterMapM_cons] at h
  cases hx : keep c (c.position cols) with
  | error e' =>
    rw [hx] at h
    cases h
    exact .inl rfl
  | ok o =>
    rw [hx] at h
    cases o with
    | none => exact .inr (.inl ⟨rfl, h⟩)
    | some b =>
      refine .inr (.inr ⟨b, rfl, ?_⟩)
      cases hr : cs.filterMapM fun c => do pure ((← keep c (c.position cols)).map (c, ·)) with
      | error e'' =>
        rw [hr] at h
        cases h
        exact hr
      | ok l =>
        rw [hr] at h
        cases h

/-- Below the number of cells, the cells from the `k`-th are the `k`-th and those after it. -/
theorem drop_cells_eq {k : Nat} (hk : k < a.cellCount) :
    a.cells.drop k = a.cellAt k :: a.cells.drop (k + 1) := by
  have hk' : k < a.cells.length := by rw [Area.length_cells]; exact hk
  rw [List.drop_eq_getElem_cons hk']
  congr
  have h := Area.getElem?_cells a k
  rw [if_pos hk, List.getElem?_eq_getElem hk'] at h
  exact Option.some.inj h

/-- A search from the `k`-th cell that takes none of the cells from there exhausts the cursor. -/
theorem seek_of_nil (h : a.Walkable cols len) {k : Nat}
    (ht : takes keep cols (a.cells.drop k) = .ok []) :
    (onCell a cols k).seek keep = .ok (none, onCell a cols a.cellCount) := by
  have hstep := step_onCell h k
  rw [Area.getElem?_cells] at hstep
  by_cases hk : k < a.cellCount
  · rw [drop_cells_eq hk] at ht
    rw [if_pos hk, Option.map_some] at hstep
    rcases takes_cons ht with ⟨hkeep, hrest⟩ | ⟨b, ys', -, -, hys⟩
    · -- the `k`-th cell is skipped, and the search goes on from the next one
      rw [seek_of_step_skipped hstep hkeep]
      exact seek_of_nil h hrest
    · cases hys
  · rw [if_neg hk, Option.map_none] at hstep
    rw [seek_of_step_none hstep, onCell_of_le (Nat.not_lt.mp hk)]
termination_by a.cellCount - k

/-- A search from the `k`-th cell stops at the first cell from there that it takes, with what it
takes there, and stands on the cell after it. -/
theorem seek_of_cons (h : a.Walkable cols len) {k : Nat} {c : Cell} {b : β}
    {rest : List (Cell × β)} (ht : takes keep cols (a.cells.drop k) = .ok ((c, b) :: rest)) :
    ∃ k', k ≤ k' ∧ a.cells[k']? = some c ∧ (onCell a cols k).seek keep =
      .ok (some (c, b), onCell a cols (k' + 1)) ∧
      takes keep cols (a.cells.drop (k' + 1)) = .ok rest := by
  by_cases hk : k < a.cellCount
  · rw [drop_cells_eq hk] at ht
    have hstep := step_onCell h k
    rw [Area.getElem?_cells, if_pos hk, Option.map_some] at hstep
    rcases takes_cons ht with ⟨hkeep, hrest⟩ | ⟨b', ys', hkeep, hrest, hys⟩
    · -- the `k`-th cell is skipped, and the search goes on from the next one
      rw [seek_of_step_skipped hstep hkeep]
      obtain ⟨k', hle, hrest'⟩ := seek_of_cons h hrest
      exact ⟨k', by omega, hrest'⟩
    · -- the `k`-th cell is taken
      obtain ⟨hcb, rfl⟩ := List.cons.inj hys
      obtain ⟨rfl, rfl⟩ := Prod.mk.inj hcb
      exact ⟨k, le_rfl, by rw [Area.getElem?_cells, if_pos hk], seek_of_step_kept hstep hkeep,
        hrest⟩
  · have hnil : a.cells.drop k = [] := List.drop_eq_nil_of_le (by rw [Area.length_cells]; omega)
    rw [hnil] at ht
    cases ht
termination_by a.cellCount - k

/-- A search from the `k`-th cell over cells on which `keep` fails fails there, or takes a cell
from there and stands past it with the failure still ahead. -/
theorem seek_of_error (h : a.Walkable cols len) {k : Nat} {e : Fault}
    (ht : takes keep cols (a.cells.drop k) = .error e) :
    (onCell a cols k).seek keep = .error e ∨
      ∃ k' c b, k ≤ k' ∧ a.cells[k']? = some c ∧
        (onCell a cols k).seek keep = .ok (some (c, b), onCell a cols (k' + 1)) ∧
        takes keep cols (a.cells.drop (k' + 1)) = .error e := by
  by_cases hk : k < a.cellCount
  · rw [drop_cells_eq hk] at ht
    have hstep := step_onCell h k
    rw [Area.getElem?_cells, if_pos hk, Option.map_some] at hstep
    have hc : a.cells[k]? = some (a.cellAt k) := by rw [Area.getElem?_cells, if_pos hk]
    rcases takes_cons_error ht with hkeep | ⟨hkeep, hrest⟩ | ⟨b, hkeep, hrest⟩
    · exact .inl (seek_of_step_error hstep hkeep)
    · -- the `k`-th cell is skipped, and the search goes on from the next one
      rw [seek_of_step_skipped hstep hkeep]
      rcases seek_of_error h hrest with hfail | ⟨k', c, b, hle, hrest'⟩
      · exact .inl hfail
      · exact .inr ⟨k', c, b, by omega, hrest'⟩
    · exact .inr ⟨k, _, b, le_rfl, hc, seek_of_step_kept hstep hkeep, hrest⟩
  · have hnil : a.cells.drop k = [] := List.drop_eq_nil_of_le (by rw [Area.length_cells]; omega)
    rw [hnil] at ht
    cases ht
termination_by a.cellCount - k

/-- Two searches from the `k`-th cell whose `keep`s agree on the cells from there, up to a map of
what they take, stop at the same cell and fail alike. -/
theorem seek_map (h : a.Walkable cols len) {γ : Type} {keep' : Cell → Nat → Outcome (Option γ)}
    (g : Cell → β → γ) {k : Nat}
    (hk : ∀ c ∈ a.cells.drop k,
      keep' c (c.position cols) = (keep c (c.position cols)).map (Option.map (g c))) :
    (onCell a cols k).seek keep' =
      ((onCell a cols k).seek keep).map fun r => (r.1.map fun y => (y.1, g y.1 y.2), r.2) := by
  have hstep := step_onCell h k
  rw [Area.getElem?_cells] at hstep
  by_cases hlt : k < a.cellCount
  · rw [if_pos hlt, Option.map_some] at hstep
    rw [drop_cells_eq hlt] at hk
    have hkc := hk _ List.mem_cons_self
    cases hkeep : keep (a.cellAt k) ((a.cellAt k).position cols) with
    | error e =>
      rw [hkeep] at hkc
      rw [seek_of_step_error hstep hkc, seek_of_step_error hstep hkeep]
      rfl
    | ok o =>
      rw [hkeep] at hkc
      cases o with
      | none =>
        -- both pass the `k`-th cell and go on from the next one
        rw [seek_of_step_skipped hstep hkc, seek_of_step_skipped hstep hkeep]
        exact seek_map h g fun c hc => hk c (List.mem_cons_of_mem _ hc)
      | some b =>
        rw [seek_of_step_kept hstep hkc, seek_of_step_kept hstep hkeep]
        rfl
  · rw [if_neg hlt, Option.map_none] at hstep
    rw [seek_of_step_none hstep, seek_of_step_none hstep]
    rfl
termination_by a.cellCount - k

end Search

end AreaWalker

/-! ### Reading an area -/

namespace RasterIterator

open AreaWalker

/-- The items of `n` calls of `nextEntry` in turn, each with the iterator's current cell after
it. -/
def nexts : Nat → RasterIterator → Outcome (List (Option (Cell × Pixel) × Cell))
  | 0, _ => pure []
  | n + 1, it => do
    let (x, it') ← it.nextEntry
    pure ((x, it'.current) :: (← nexts n it'))

/-- Collecting an exhausted iterator yields nothing. -/
theorem finish_of_none {it done : RasterIterator} (h : it.nextEntry = .ok (none, done)) :
    it.finish = .ok ([], done) := by
  rw [finish]
  split <;> rename_i heq <;> rw [heq] at h <;> cases h
  rfl

/-- Collecting an iterator yields its next entry, then what collecting the rest yields. -/
theorem finish_of_some {it it' : RasterIterator} {x : Cell × Pixel}
    (h : it.nextEntry = .ok (some x, it')) :
    it.finish = it'.finish.map fun r => (x :: r.1, r.2) := by
  rw [finish]
  split <;> rename_i heq <;> rw [heq] at h <;> cases h
  cases it'.finish <;> rfl

variable {a : Area} {cols : Int} {len : Nat} {k : Nat} {it : RasterIterator}

/-- An iterator whose cursor stands on the `k`-th cell, with nothing left to yield, yields
nothing and is exhausted with no current cell. -/
theorem nextEntry_of_nil (h : a.Walkable cols len) (hw : it.walker = onCell a cols k)
    (ht : takes it.keep cols (a.cells.drop k) = .ok []) :
    it.nextEntry = .ok (none, { it with walker := onCell a cols a.cellCount, current := .invalid }) := by
  rw [nextEntry, hw, seek_of_nil h ht, ok_bind]
  rfl

/-- An iterator whose cursor stands on the `k`-th cell yields the first cell from there that it
keeps, with its value, as its current cell, and stands on the cell after it. -/
theorem nextEntry_of_cons (h : a.Walkable cols len) (hw : it.walker = onCell a cols k)
    {c : Cell} {v : Pixel} {rest : List (Cell × Pixel)}
    (ht : takes it.keep cols (a.cells.drop k) = .ok ((c, v) :: rest)) :
    ∃ k', k ≤ k' ∧ a.cells[k']? = some c ∧
      it.nextEntry = .ok (some (c, v), { it with walker := onCell a cols (k' + 1), current := c }) ∧
      takes it.keep cols (a.cells.drop (k' + 1)) = .ok rest := by
  obtain ⟨k', hle, hc, hseek, hrest⟩ := seek_of_cons h ht
  refine ⟨k', hle, hc, ?_, hrest⟩
  rw [nextEntry, hw, hseek, ok_bind]
  rfl

/-- Collecting an iterator whose cursor stands on the `k`-th cell yields what it keeps from
there, and leaves it exhausted with no current cell. -/
theorem finish_eq (h : a.Walkable cols len) :
    ∀ {vs : List (Cell × Pixel)} {it : RasterIterator} {k : Nat}, it.walker = onCell a cols k →
      takes it.keep cols (a.cells.drop k) = .ok vs →
      it.finish = .ok (vs, { it with walker := onCell a cols a.cellCount, current := .invalid })
  | [], it, k, hw, ht => finish_of_none (nextEntry_of_nil h hw ht)
  | (c, v) :: vs, it, k, hw, ht => by
    obtain ⟨k', -, -, hnext, hrest⟩ := nextEntry_of_cons h hw ht
    have hrec := finish_eq h (show ({ it with walker := onCell a cols (k' + 1), current := c } :
      RasterIterator).walker = onCell a cols (k' + 1) from rfl) hrest
    rw [finish_of_some hnext, hrec, ok_map]

/-- Collecting an iterator fails where its next entry fails. -/
theorem finish_of_error_entry {it : RasterIterator} {e : Fault} (h : it.nextEntry = .error e) :
    it.finish = .error e := by
  rw [finish]
  split <;> rename_i heq <;> rw [heq] at h <;> cases h
  rfl

/-- Collecting an iterator whose cursor stands on the `k`-th cell fails where what it keeps from
there fails. -/
theorem finish_of_error (h : a.Walkable cols len) {e : Fault} {it : RasterIterator} {k : Nat}
    (hw : it.walker = onCell a cols k) (ht : takes it.keep cols (a.cells.drop k) = .error e) :
    it.finish = .error e := by
  rcases seek_of_error h ht with hfail | ⟨k', c, v, hle, hc, hseek, hrest⟩
  · exact finish_of_error_entry (by rw [nextEntry, hw, hfail]; rfl)
  · -- the iterator yields a cell before the failure, and the rest of the collection fails
    have hnext : it.nextEntry =
        .ok (some (c, v), { it with walker := onCell a cols (k' + 1), current := c }) := by
      rw [nextEntry, hw, hseek, ok_bind]
      rfl
    have hk' : k' < a.cellCount := by simpa using (List.getElem?_eq_some_iff.mp hc).1
    have hrec := finish_of_error h
      (show ({ it with walker := onCell a cols (k' + 1), current := c } : RasterIterator).walker =
        onCell a cols (k' + 1) from rfl) hrest
    rw [finish_of_some hnext, hrec]
    rfl
termination_by a.cellCount - k

/-- Collecting an iterator whose cursor stands on the `k`-th cell gives what it keeps from there,
and fails where that fails. -/
theorem finish_fst (h : a.Walkable cols len) (hw : it.walker = onCell a cols k) :
    it.finish.map (·.1) = takes it.keep cols (a.cells.drop k) := by
  cases ht : takes it.keep cols (a.cells.drop k) with
  | error e => rw [finish_of_error h hw ht]; rfl
  | ok vs => rw [finish_eq h hw ht]; rfl

/-- Driven by `nextEntry`, an iterator whose cursor stands on the `k`-th cell yields what it keeps
from there one at a time, each as its current cell; once that runs out it yields nothing, with
no current cell, at every later call. -/
theorem nexts_eq (h : a.Walkable cols len) (n : Nat) :
    ∀ {vs : List (Cell × Pixel)} {it : RasterIterator} {k : Nat}, it.walker = onCell a cols k →
      takes it.keep cols (a.cells.drop k) = .ok vs →
      it.nexts n = .ok ((vs.map fun y => (some y, y.1)).take n ++
        List.replicate (n - vs.length) (none, Cell.invalid)) := by
  induction n with
  | zero =>
    intro vs it k _ _
    simp [nexts]
  | succ n ih =>
    intro vs it k hw ht
    cases vs with
    | nil =>
      -- an exhausted iterator stays exhausted
      have hrest : takes it.keep cols (a.cells.drop a.cellCount) = .ok [] := by
        rw [List.drop_eq_nil_of_le (by rw [Area.length_cells])]
        rfl
      have hrec := ih (show ({ it with walker := onCell a cols a.cellCount, current := .invalid } :
        RasterIterator).walker = onCell a cols a.cellCount from rfl) hrest
      simp only [nexts, nextEntry_of_nil h hw ht, ok_bind, hrec, pure_eq_ok]
      simp [List.replicate_succ]
    | cons y vs =>
      obtain ⟨c, v⟩ := y
      obtain ⟨k', -, -, hnext, hrest⟩ := nextEntry_of_cons h hw ht
      have hrec := ih (show ({ it with walker := onCell a cols (k' + 1), current := c } :
        RasterIterator).walker = onCell a cols (k' + 1) from rfl) hrest
      simp only [nexts, hnext, ok_bind, hrec, pure_eq_ok]
      simp

end RasterIterator

/-! ### Writing an area -/

namespace RasterIteratorMut

open AreaWalker

/-- The read iterator over `data` with the writing iterator's cursor and filters. -/
def reader (it : RasterIteratorMut) (data : Array Pixel) : RasterIterator :=
  ⟨data, it.walker, it.current, it.values, it.locations⟩

/-- A writing iterator follows the read iterator over `data` from the `k`-th cell of the area:
its cursor stands there, its buffer is as long as `data` and agrees with it from the start of
its tail on, and the cells from the `k`-th on lie at or past that start. -/
structure Follows (it : RasterIteratorMut) (data : Array Pixel) (a : Area) (cols : Int)
    (k : Nat) : Prop where
  walker_eq : it.walker = onCell a cols k
  size_eq : it.data.size = data.size
  agree : ∀ j, it.offset ≤ j → it.data[j]? = data[j]?
  offset_le : ∀ c ∈ a.cells.drop k, it.offset ≤ c.position cols

/-- Exhausting a writing iterator writes nothing. -/
theorem assign_of_none {it done : RasterIteratorMut} {v : Pixel}
    (h : it.next = .ok (none, done)) : it.assign v = .ok ([], done) := by
  rw [assign]
  split <;> rename_i heq <;> rw [heq] at h <;> cases h
  rfl

/-- A writing iterator writes the value at the position it hands out, then goes on. -/
theorem assign_of_some {it it' : RasterIteratorMut} {p : Nat} {v : Pixel}
    (h : it.next = .ok (some p, it')) :
    it.assign v = (do
      let data ← Buffer.set it'.data p v
      let r ← assign { it' with data } v
      pure ((it'.current, p) :: r.1, r.2)) := by
  rw [assign]
  split <;> rename_i heq <;> rw [heq] at h <;> cases h
  rfl

/-- Handing out a value changes nothing in the buffer. -/
theorem data_of_next {it it' : RasterIteratorMut} {o : Option Nat}
    (h : it.next = .ok (o, it')) : it'.data = it.data := by
  unfold next at h
  obtain ⟨r, -, h⟩ := bind_eq_ok.mp h
  split at h <;> cases pure_eq_ok.mp h <;> rfl

/-- Writing keeps the length of the buffer. -/
theorem size_of_assign {it done : RasterIteratorMut} {v : Pixel} {ws : List (Cell × Nat)}
    (h : it.assign v = .ok (ws, done)) : done.data.size = it.data.size := by
  revert ws h
  fun_induction assign it v with
  | case1 it e hn => intro ws h; cases h
  | case2 it d hn => intro ws h; cases h; rw [data_of_next hn]
  | case3 it p it' hn ih =>
    intro ws h
    obtain ⟨d, hd, h⟩ := bind_eq_ok.mp h
    obtain ⟨r, hr, h⟩ := bind_eq_ok.mp h
    cases pure_eq_ok.mp h
    rw [ih d hr, ← data_of_next hn]
    exact Buffer.size_of_set_eq_ok hd

variable {a : Area} {cols : Int} {k : Nat} {data : Array Pixel} {it : RasterIteratorMut}

/-- A value at or past the start of the tail is read from the tail at its rebased index. -/
theorem get_rest {p : Nat} (ho : it.offset ≤ p) (hp : p < it.data.size) :
    Buffer.get it.rest (p - it.offset) = .ok it.data[p] := by
  have hlt : p - it.offset < it.rest.size := by
    simp only [rest, Array.size_extract]
    omega
  rw [Buffer.get_of_lt hlt]
  simp only [rest, Array.getElem_extract]
  congr 2
  omega

/-- At a cell of the area from the `k`-th on, a writing iterator that follows the read iterator
over `data` reads what that iterator reads, and takes the cell exactly when it does, at the
cell's position rebased against its tail. -/
theorem keep_eq (hfit : a.fits cols data.size = .ok true) (hf : it.Follows data a cols k)
    {c : Cell} (hc : c ∈ a.cells.drop k) :
    it.keep c (c.position cols) =
      ((it.reader data).keep c (c.position cols)).map
        (Option.map fun _ => c.position cols - it.offset) := by
  have hpos := (Area.fits_mem hfit (List.mem_of_mem_drop hc)).2.2.2
  have ho := hf.offset_le c hc
  have hp : c.position cols < it.data.size := hf.size_eq ▸ hpos
  have hval : it.data[c.position cols] = data[c.position cols] := by
    have := hf.agree (c.position cols) ho
    rw [Array.getElem?_eq_getElem hp, Array.getElem?_eq_getElem hpos] at this
    exact Option.some.inj this
  unfold keep RasterIterator.keep reader
  dsimp only
  cases it.locations.excludes c with
  | error e => rfl
  | ok b =>
    cases b
    · rw [ok_bind, ok_bind, if_neg Bool.false_ne_true, if_neg Bool.false_ne_true,
        if_neg (by omega), get_rest ho hp, Buffer.get_of_lt hpos, ok_bind, ok_bind, hval]
      cases it.values.excludes (c.position cols) data[c.position cols] with
      | error e => rfl
      | ok b' => cases b' <;> rfl
    · rfl

/-- A writing iterator that follows the read iterator over `data` from the `k`-th cell searches as
that iterator does, taking each cell at its position rebased against the tail. -/
theorem seek_keep (h : a.Walkable cols data.size) (hf : it.Follows data a cols k) :
    it.walker.seek it.keep = ((onCell a cols k).seek (it.reader data).keep).map
      fun r => (r.1.map fun y => (y.1, y.1.position cols - it.offset), r.2) := by
  rw [hf.walker_eq]
  exact seek_map h (fun c _ => c.position cols - it.offset) fun c hc => keep_eq h.fits hf hc

/-- Where the read iterator's search stops at a cell, the writing iterator hands out the cell's
position in the buffer and starts its tail past it. -/
theorem next_of_seek_kept (h : a.Walkable cols data.size) (hf : it.Follows data a cols k)
    {k' : Nat} {c : Cell} {v : Pixel} (hle : k ≤ k') (hc : a.cells[k']? = some c)
    (hseek : (onCell a cols k).seek (it.reader data).keep =
      .ok (some (c, v), onCell a cols (k' + 1))) :
    it.next = .ok (some (c.position cols),
      { it with
        offset := c.position cols + 1
        walker := onCell a cols (k' + 1)
        current := c }) := by
  have hs : it.walker.seek it.keep =
      .ok (some (c, c.position cols - it.offset), onCell a cols (k' + 1)) := by
    rw [seek_keep h hf, hseek]
    rfl
  have ho : it.offset ≤ c.position cols := hf.offset_le c (Area.mem_drop_of_getElem? hle hc)
  rw [next, hs, ok_bind]
  dsimp only
  rw [Nat.add_sub_cancel' ho]
  rfl

/-- Where the read iterator's search finds nothing, the writing iterator hands out nothing and is
exhausted with no current cell. -/
theorem next_of_nil (h : a.Walkable cols data.size) (hf : it.Follows data a cols k)
    (ht : takes (it.reader data).keep cols (a.cells.drop k) = .ok []) :
    it.next = .ok (none, { it with walker := onCell a cols a.cellCount, current := .invalid }) := by
  rw [next, seek_keep h hf, seek_of_nil h ht, ok_map, ok_bind]
  rfl

/-- Where the read iterator's search stops at a cell, writing through the writing iterator writes
the value at the cell's position and goes on from past it. -/
theorem assign_of_seek_kept (h : a.Walkable cols data.size) (hf : it.Follows data a cols k)
    {k' : Nat} {c : Cell} {b : Pixel} (hle : k ≤ k') (hc : a.cells[k']? = some c)
    (hseek : (onCell a cols k).seek (it.reader data).keep =
      .ok (some (c, b), onCell a cols (k' + 1))) (v : Pixel) :
    it.assign v =
      (assign
        { it with
          data := it.data.setIfInBounds (c.position cols) v
          offset := c.position cols + 1
          walker := onCell a cols (k' + 1)
          current := c } v).map
        fun r => ((c, c.position cols) :: r.1, r.2) := by
  have hp : c.position cols < it.data.size :=
    hf.size_eq ▸ (Area.fits_mem h.fits (List.mem_of_getElem? hc)).2.2.2
  rw [assign_of_some (next_of_seek_kept h hf hle hc hseek)]
  dsimp only
  rw [Buffer.set_of_lt hp, ok_bind]
  cases assign _ v <;> rfl

/-- Writing at the position just handed out keeps the writing iterator following the read
iterator over `data`: the value written lies before the new tail, and every cell still ahead lies
in it. -/
theorem Follows.write (h : a.Walkable cols data.size) (hf : it.Follows data a cols k) {k' : Nat}
    {c : Cell} (hle : k ≤ k') (hc : a.cells[k']? = some c) (v : Pixel) :
    Follows
      { it with
        data := it.data.setIfInBounds (c.position cols) v
        offset := c.position cols + 1
        walker := onCell a cols (k' + 1)
        current := c }
      data a cols (k' + 1) where
  walker_eq := rfl
  size_eq := by
    dsimp only
    rw [Array.size_setIfInBounds, hf.size_eq]
  agree j hj := by
    dsimp only at hj ⊢
    have ho : it.offset ≤ c.position cols := hf.offset_le c (Area.mem_drop_of_getElem? hle hc)
    rw [Array.getElem?_setIfInBounds_ne (by omega)]
    exact hf.agree j (by omega)
  offset_le _ hc' := Area.position_lt_of_mem_drop h.fits hc hc'

/-- Writing `v` through a writing iterator that follows the read iterator over `data` from the
`k`-th cell writes it, in order, at the position of every cell that iterator yields from there,
and nowhere else; the iterator ends exhausted with no current cell. -/
theorem assign_eq (h : a.Walkable cols data.size) (v : Pixel) :
    ∀ {vs : List (Cell × Pixel)} {it : RasterIteratorMut} {k : Nat}, it.Follows data a cols k →
      takes (it.reader data).keep cols (a.cells.drop k) = .ok vs →
      ∃ done, it.assign v = .ok (vs.map fun y => (y.1, y.1.position cols), done) ∧
        done.walker = onCell a cols a.cellCount ∧ done.current = .invalid ∧
        done.data = vs.foldl (fun d y => d.setIfInBounds (y.1.position cols) v) it.data
  | [], _, _, hf, ht => ⟨_, assign_of_none (next_of_nil h hf ht), rfl, rfl, rfl⟩
  | (c, b) :: vs, it, k, hf, ht => by
    obtain ⟨k', hle, hc, hseek, hrest⟩ := seek_of_cons h ht
    obtain ⟨done, hdone, hw, hcur, hdata⟩ := assign_eq h v (hf.write h hle hc v) hrest
    refine ⟨done, ?_, hw, hcur, by rw [List.foldl_cons]; exact hdata⟩
    rw [assign_of_seek_kept h hf hle hc hseek v, hdone, ok_map]
    rfl

/-- Writing through a writing iterator that follows the read iterator over `data` from the `k`-th
cell fails where what that iterator keeps from there fails. -/
theorem assign_of_error (h : a.Walkable cols data.size) (v : Pixel) {e : Fault}
    {it : RasterIteratorMut} {k : Nat} (hf : it.Follows data a cols k)
    (ht : takes (it.reader data).keep cols (a.cells.drop k) = .error e) :
    it.assign v = .error e := by
  rcases seek_of_error h ht with hfail | ⟨k', c, b, hle, hc, hseek, hrest⟩
  · have hs := seek_keep h hf
    rw [hfail] at hs
    rw [assign]
    split <;> rename_i heq <;> rw [next, hs] at heq <;> cases heq
    rfl
  · -- the iterator writes a cell before the failure, and the rest of the writing fails
    have hk' : k' < a.cellCount := by simpa using (List.getElem?_eq_some_iff.mp hc).1
    rw [assign_of_seek_kept h hf hle hc hseek v, assign_of_error h v (hf.write h hle hc v) hrest]
    rfl
termination_by a.cellCount - k

/-- Writing through a writing iterator that follows the read iterator over `data` from the `k`-th
cell writes at the positions of the cells that iterator yields from there, and fails where that
fails. -/
theorem assign_fst (h : a.Walkable cols data.size) (hf : it.Follows data a cols k) (v : Pixel) :
    (it.assign v).map (·.1) =
      (takes (it.reader data).keep cols (a.cells.drop k)).map
        (List.map fun y => (y.1, y.1.position cols)) := by
  cases ht : takes (it.reader data).keep cols (a.cells.drop k) with
  | error e => rw [assign_of_error h v hf ht]; rfl
  | ok vs =>
    obtain ⟨done, hdone, -⟩ := assign_eq h v hf ht
    rw [hdone]
    rfl

end RasterIteratorMut

/-! ### The iterators over a buffer -/

/-- What an iterator over `data` yields at a cell: nothing when the location filter skips the
cell, otherwise the cell with its row-major position and the value stored there, unless the
value filter skips that value. -/
def AreaWalker.yieldAt (data : Array Pixel) (cols : Int) (values : ValueFilter)
    (locations : LocationFilter) (c : Cell) : Outcome (Option (Cell × Nat × Pixel)) := do
  if ← locations.excludes c then pure none
  else
    let i := c.position cols
    let v := data.getD i default
    pure (if ← values.excludes i v then none else some (c, i, v))

section Buffer

variable {data : Array Pixel} {cols : Int} {a : Area} {values : ValueFilter}
  {locations : LocationFilter}

namespace AreaWalker

/-- A yielded cell comes with its position and the value stored there. -/
theorem eq_of_yieldAt {c : Cell} {y : Cell × Nat × Pixel}
    (h : yieldAt data cols values locations c = .ok (some y)) :
    y = (c, c.position cols, data.getD (c.position cols) default) := by
  unfold yieldAt at h
  obtain ⟨b, -, h⟩ := bind_eq_ok.mp h
  cases b
  · obtain ⟨b', -, h⟩ := bind_eq_ok.mp h
    cases b'
    · exact (Option.some.inj (pure_eq_ok.mp h)).symm
    · cases pure_eq_ok.mp h
  · cases pure_eq_ok.mp h

/-- Every cell yielded along an area is a cell of the area, with its position and the value
stored there. -/
theorem mem_yields {vs : List (Cell × Nat × Pixel)}
    (h : a.cells.filterMapM (yieldAt data cols values locations) = .ok vs) {y : Cell × Nat × Pixel}
    (hy : y ∈ vs) :
    y.1 ∈ a.cells ∧ y = (y.1, y.1.position cols, data.getD (y.1.position cols) default) := by
  rw [filterMapM_eq_ok_filterMap h, List.mem_filterMap] at hy
  obtain ⟨c, hc, hy⟩ := hy
  cases eq_of_yieldAt (toOption_bind_eq_some.mp hy)
  exact ⟨hc, rfl⟩

/-- The positions yielded along an area that fits the buffer strictly increase and lie in the
buffer. -/
theorem positions_of_yields (hfit : a.fits cols data.size = .ok true)
    {vs : List (Cell × Nat × Pixel)}
    (h : a.cells.filterMapM (yieldAt data cols values locations) = .ok vs) :
    (vs.map (·.2.1)).Pairwise (· < ·) ∧ ∀ y ∈ vs, y.2.1 < data.size := by
  have hvs := filterMapM_eq_ok_filterMap h
  constructor
  · -- the yielded cells are a sublist of the area, in its order
    rw [hvs, List.pairwise_map]
    refine List.Pairwise.filterMap _ ?_ (List.pairwise_map.mp (Area.pairwise_position hfit))
    intro c c' hcc' y hy y' hy'
    rw [eq_of_yieldAt (toOption_bind_eq_some.mp hy), eq_of_yieldAt (toOption_bind_eq_some.mp hy')]
    exact hcc'
  · intro y hy
    obtain ⟨hc, hy⟩ := mem_yields h hy
    rw [hy]
    exact (Area.fits_mem hfit hc).2.2.2

end AreaWalker

namespace RasterIterator

/-- Along an area that fits the buffer, a read iterator over `data` keeps what `yieldAt` yields:
its reads never leave the buffer. -/
theorem takes_keep (hfit : a.fits cols data.size = .ok true) (w : AreaWalker) (c : Cell) :
    AreaWalker.takes (⟨data, w, c, values, locations⟩ : RasterIterator).keep cols a.cells =
      (a.cells.filterMapM (AreaWalker.yieldAt data cols values locations)).map
        (List.map fun y => (y.1, y.2.2)) := by
  unfold AreaWalker.takes
  rw [filterMapM_map]
  refine filterMapM_congr fun p hp => ?_
  have hpos := (Area.fits_mem hfit hp).2.2.2
  unfold keep AreaWalker.yieldAt
  dsimp only
  rw [Buffer.get_of_lt hpos, Array.getD_eq_getD_getElem?, Array.getElem?_eq_getElem hpos,
    Option.getD_some]
  cases locations.excludes p with
  | error e => rfl
  | ok b =>
    cases b
    · simp only [ok_bind, Bool.false_eq_true, ↓reduceIte]
      cases values.excludes (p.position cols) data[p.position cols] with
      | error e => rfl
      | ok b' => cases b' <;> rfl
    · rfl

theorem new_of_fits (hfit : a.fits cols data.size = .ok true) :
    new data cols a values locations =
      .ok ⟨data, AreaWalker.new a cols, .invalid, values, locations⟩ := by
  rw [new, hfit]
  rfl

/-- A read iterator over an area that can be walked starts with no current cell and yields the
cells that `yieldAt` yields, with their values, in order: all at once when collected, one at a
time, each as its current cell, when driven by `nextEntry`, and then nothing, with no current
cell, at every later call. It fails where a filter fails, and only there. -/
theorem yields_area (h : a.Walkable cols data.size) :
    ∃ it, new data cols a values locations = .ok it ∧ it.current = .invalid ∧
      it.finish.map (·.1) =
        (a.cells.filterMapM (AreaWalker.yieldAt data cols values locations)).map
          (List.map fun y => (y.1, y.2.2)) ∧
      ∀ vs, a.cells.filterMapM (AreaWalker.yieldAt data cols values locations) = .ok vs →
        ∀ n, it.nexts n = .ok ((vs.map fun y => (some (y.1, y.2.2), y.1)).take n ++
          List.replicate (n - vs.length) (none, Cell.invalid)) := by
  have hw : (⟨data, AreaWalker.new a cols, .invalid, values, locations⟩ : RasterIterator).walker =
      AreaWalker.onCell a cols 0 :=
    AreaWalker.new_eq_onCell a cols
  refine ⟨_, new_of_fits h.fits, rfl, ?_, fun vs hvs n => ?_⟩
  · rw [finish_fst h hw, List.drop_zero, takes_keep h.fits]
  · have ht : AreaWalker.takes (⟨data, AreaWalker.new a cols, .invalid, values, locations⟩ :
        RasterIterator).keep cols (a.cells.drop 0) = .ok (vs.map fun y => (y.1, y.2.2)) := by
      rw [List.drop_zero, takes_keep h.fits, hvs]
      rfl
    rw [nexts_eq h n hw ht, List.map_map, List.length_map]
    rfl

end RasterIterator

namespace RasterIteratorMut

theorem new_of_fits (hfit : a.fits cols data.size = .ok true) :
    new data cols a values locations =
      .ok ⟨data, 0, AreaWalker.new a cols, .invalid, values, locations⟩ := by
  rw [new, hfit]
  rfl

/-- A new writing iterator follows the read iterator over its buffer from the first cell. -/
theorem follows_new :
    (⟨data, 0, AreaWalker.new a cols, .invalid, values, locations⟩ : RasterIteratorMut).Follows
      data a cols 0 where
  walker_eq := AreaWalker.new_eq_onCell a cols
  size_eq := rfl
  agree _ _ := rfl
  offset_le _ _ := Nat.zero_le _

/-- A writing iterator over an area that can be walked hands out the positions of the cells that
`yieldAt` yields, in order, and writing a value through them writes it at exactly those
positions: its rebasing never underflows and its tail never runs out. It fails where a filter
fails, and only there. -/
theorem writes_area (h : a.Walkable cols data.size) :
    ∃ it, new data cols a values locations = .ok it ∧ ∀ v : Pixel,
      (it.assign v).map (·.1) =
        (a.cells.filterMapM (AreaWalker.yieldAt data cols values locations)).map
          (List.map fun y => (y.1, y.2.1)) ∧
      ∀ vs, a.cells.filterMapM (AreaWalker.yieldAt data cols values locations) = .ok vs →
        ∃ done, it.assign v = .ok (vs.map fun y => (y.1, y.2.1), done) ∧
          done.current = .invalid ∧ done.data.size = data.size ∧
          ∀ j, done.data[j]? = if j ∈ vs.map (·.2.1) then some v else data[j]? := by
  have hf : (⟨data, 0, AreaWalker.new a cols, .invalid, values, locations⟩ :
      RasterIteratorMut).Follows data a cols 0 := follows_new
  -- the iterator reads as the read iterator over its own buffer
  have ht : AreaWalker.takes ((⟨data, 0, AreaWalker.new a cols, .invalid, values, locations⟩ :
      RasterIteratorMut).reader data).keep cols (a.cells.drop 0) =
        (a.cells.filterMapM (AreaWalker.yieldAt data cols values locations)).map
          (List.map fun y => (y.1, y.2.2)) := by
    rw [List.drop_zero]
    exact RasterIterator.takes_keep h.fits _ _
  -- every yielded position is the position of its cell
  have hmap : ∀ {vs : List (Cell × Nat × Pixel)},
      a.cells.filterMapM (AreaWalker.yieldAt data cols values locations) = .ok vs →
      (vs.map fun y => (y.1, y.2.2)).map (fun y => (y.1, y.1.position cols)) =
        vs.map fun y => (y.1, y.2.1) := by
    intro vs hvs
    rw [List.map_map]
    refine List.map_congr_left fun y hy => ?_
    obtain ⟨-, hy⟩ := AreaWalker.mem_yields hvs hy
    rw [hy]
    rfl
  refine ⟨_, new_of_fits h.fits, fun v => ⟨?_, fun vs hvs => ?_⟩⟩
  · rw [assign_fst h hf v, ht]
    cases hvs : a.cells.filterMapM (AreaWalker.yieldAt data cols values locations) with
    | error e => rfl
    | ok vs =>
      rw [ok_map, ok_map, ok_map, hmap hvs]
  · rw [hvs, ok_map] at ht
    obtain ⟨done, hdone, -, hcur, hdata⟩ := assign_eq h v hf ht
    have hlt := (AreaWalker.positions_of_yields h.fits hvs).2
    have hpos : (vs.map fun y => (y.1, y.2.2)).map (fun y => y.1.position cols) = vs.map (·.2.1) := by
      rw [List.map_map]
      refine List.map_congr_left fun y hy => ?_
      obtain ⟨-, hy⟩ := AreaWalker.mem_yields hvs hy
      rw [hy]
      rfl
    refine ⟨done, by rw [hdone, hmap hvs], hcur, ?_, fun j => ?_⟩
    · rw [hdata, size_foldl_setIfInBounds]
    · rw [hdata, getElem?_foldl_setIfInBounds, hpos]
      split
      · rename_i hj
        obtain ⟨y, hy, rfl⟩ := List.mem_map.mp hj
        rw [Array.getElem?_eq_getElem (hlt y hy)]
        rfl
      · rfl

end RasterIteratorMut

end Buffer

end Georaster
