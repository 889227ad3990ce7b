import Georaster.Proofs.Sparse.Map
/-!
# Reading every cell of a sparse raster

`toOptions` reads the cells in order by merging the grid with the entries: one cursor on the next
entry, one on the row of that entry, moved on past the rows that end before it (`skipEnded`). On
a raster laid out in sound rows the entries at their indices (`entriesOf`) increase, and the entry
cursor stands at the first entry at or past the cell being read (`Cursor`); so the cell reads that
entry when it is the cell's, and is missing otherwise. Both the merge and the bisection of
`value` read the cell of the rows (`cellOf`).
-/

namespace Georaster

namespace SparseRaster

/-- The value of the entry at index `i`, if there is one. -/
def lookup (es : List SparseEntry) (i : Nat) : Option Pixel :=
  (es.find? (·.index == i)).map (·.value)

/-- The entry cursor `e` stands at the first entry at or past index `i`. -/
structure Cursor (es : List SparseEntry) (i e : Nat) : Prop where
  le_length : e ≤ es.length
  before : ∀ j (hj : j < es.length), j < e → es[j].index < i
  after : ∀ j (hj : j < es.length), e ≤ j → i ≤ es[j].index

/-- When the entry at the cursor is the cell's, the cell reads its value. -/
theorem Cursor.lookup_of_eq {es : List SparseEntry} {i e : Nat} (h : Cursor es i e)
    (he : e < es.length) (hi : es[e].index = i) :
    lookup es i = some es[e].value := by
  unfold lookup
  rw [Option.map_eq_some_iff]
  refine ⟨es[e], List.find?_eq_some_iff_getElem.mpr ⟨by simp [hi], e, he, rfl, fun j hj => ?_⟩, rfl⟩
  have := h.before j (by omega) hj
  simp only [Bool.not_eq_eq_eq_not, Bool.not_true, beq_eq_false_iff_ne, ne_eq]
  omega

section Cursor

variable {es : List SparseEntry} (hs : (es.map (·.index)).Pairwise (· < ·)) {i e : Nat}
include hs

theorem index_lt_of_sorted {j j' : Nat} (hj : j < es.length) (hj' : j' < es.length)
    (hjj' : j < j') : es[j].index < es[j'].index := by
  have := List.pairwise_iff_getElem.mp hs j j' (by simpa using hj) (by simpa using hj') hjj'
  simpa using this

/-- When the entry at the cursor is past the cell, or there is none, the cell is missing: the
entries before the cursor are before the cell, the later ones past it. -/
theorem Cursor.lookup_of_ne (h : Cursor es i e) (hne : ∀ he : e < es.length, es[e].index ≠ i) :
    lookup es i = none := by
  unfold lookup
  rw [Option.map_eq_none_iff, List.find?_eq_none]
  intro x hx hxi
  obtain ⟨j, hj, rfl⟩ := List.getElem_of_mem hx
  have hji : es[j].index = i := by simpa using hxi
  rcases Nat.lt_or_ge j e with hje | hje
  · have := h.before j hj hje
    omega
  · have he : e < es.length := by omega
    have hat := h.after e he (Nat.le_refl e)
    rcases Nat.lt_or_eq_of_le hje with hlt | rfl
    · have := index_lt_of_sorted hs he hj hlt
      have := hne he
      omega
    · exact hne he hji

/-- Reading the entry at the cursor moves the cursor on. -/
theorem Cursor.next_of_eq (h : Cursor es i e) (he : e < es.length) (hi : es[e].index = i) :
    Cursor es (i + 1) (e + 1) where
  le_length := he
  before j hj hje := by
    rcases Nat.lt_or_eq_of_le (Nat.le_of_lt_succ hje) with hlt | rfl
    · have := h.before j hj hlt
      omega
    · omega
  after j hj hje := by
    have := index_lt_of_sorted hs he hj hje
    omega

/-- Past a missing cell, the cursor stays. -/
theorem Cursor.next_of_ne (h : Cursor es i e) (hne : ∀ he : e < es.length, es[e].index ≠ i) :
    Cursor es (i + 1) e where
  le_length := h.le_length
  before j hj hje := by
    have := h.before j hj hje
    omega
  after j hj hje := by
    have he : e < es.length := by omega
    have hat := h.after e he (Nat.le_refl e)
    have := hne he
    rcases Nat.lt_or_eq_of_le hje with hlt | rfl
    · have := index_lt_of_sorted hs he hj hlt
      omega
    · omega

end Cursor

theorem Cursor.zero (es : List SparseEntry) : Cursor es 0 0 :=
  ⟨Nat.zero_le _, fun _ _ h => absurd h (Nat.not_lt_zero _), fun _ _ _ => Nat.zero_le _⟩

/-! ### Entries at their positions -/

/-- Entry `p` of row `k` stands in the concatenation past the rows before. -/
theorem getElem?_flatten_offset {α : Type} (L : List (List α)) {k p : Nat} (hk : k < L.length)
    (hp : p < L[k].length) : L.flatten[((L.take k).map List.length).sum + p]? = some L[k][p] := by
  rw [flatten_eq_split L hk, ← List.length_flatten, List.getElem?_append_right (by omega),
    Nat.add_sub_cancel_left, List.getElem?_append_left hp, List.getElem?_eq_getElem hp]

namespace Layout

variable {r : SparseRaster} {rows : List Row}

/-- Position `p` of row `k` holds, in the three lists, the column and the value of the row's entry
`p`, and its entry is at index `k * cols + column`. -/
theorem getElem?_entry (h : r.Layout rows) (cols : Nat) {k p : Nat} (hk : k < rows.length)
    (hp : p < rows[k].length) :
    r.colIndices[r.offset k + p]? = some rows[k][p].1 ∧ r.values[r.offset k + p]? = some rows[k][p].2 ∧
      (entriesOf cols rows)[r.offset k + p]? =
        some ⟨k * cols + rows[k][p].1.toNat, rows[k][p].2⟩ := by
  have hflat := getElem?_flatten_offset rows hk hp
  rw [← h.offset_eq (Nat.le_of_lt hk)] at hflat
  refine ⟨?_, ?_, ?_⟩
  · rw [h.cols_eq, flatMap_map_eq, List.getElem?_map, hflat]
    rfl
  · rw [h.values_eq, flatMap_map_eq, List.getElem?_map, hflat]
    rfl
  · -- the entries are the rows' blocks, of the rows' lengths
    set blocks := (List.range rows.length).map fun j =>
      (rows.getD j []).map fun e => (⟨j * cols + e.1.toNat, e.2⟩ : SparseEntry) with hblocks
    have hlen : blocks.map List.length = rows.map List.length := by
      apply List.ext_getElem (by simp [hblocks])
      intro j h₁ h₂
      simp [hblocks, List.getD_eq_getElem?_getD, List.getElem?_eq_getElem (by simpa using h₂)]
    have hbk : k < blocks.length := by simpa [hblocks] using hk
    have hblock : blocks[k] = rows[k].map fun e => (⟨k * cols + e.1.toNat, e.2⟩ : SparseEntry) := by
      simp [hblocks, List.getD_eq_getElem?_getD, List.getElem?_eq_getElem hk]
    have hbp : p < blocks[k].length := by simpa [hblock] using hp
    have hoff : ((blocks.take k).map List.length).sum = r.offset k := by
      rw [List.map_take, hlen, ← List.map_take, h.offset_eq (Nat.le_of_lt hk)]
    have := getElem?_flatten_offset blocks hbk hbp
    rw [hoff] at this
    rw [entriesOf, List.flatMap_def, this]
    simp [hblock]

/-- The entries at their indices carry the values, in order. -/
theorem map_value_entriesOf (h : r.Layout rows) (cols : Nat) :
    (entriesOf cols rows).map (·.value) = r.values := by
  rw [entriesOf, List.map_flatMap, h.values_eq, ← range_flatMap_getD rows]
  apply List.flatMap_congr
  intro k _
  rw [List.map_map]
  rfl

theorem length_entriesOf (h : r.Layout rows) (cols : Nat) :
    (entriesOf cols rows).length = r.values.length := by
  rw [← h.map_value_entriesOf cols, List.length_map]

/-- The columns of a laid-out raster lie in its grid. -/
theorem col_lt (h : r.Layout rows) :
    ∀ row ∈ rows, ∀ e ∈ row, 0 ≤ e.1 ∧ e.1 < (r.metadata.cols.toNat : Int) := by
  intro row hrow e he
  have := (h.row_ok row hrow).col_mem e he
  omega

/-- The entry cursor's row: the row cursor moves on past every row that ends at or before the
entry, and stops at the row holding it. -/
theorem skipEnded_spec (h : r.Layout rows) {entry : Nat} (hlt : entry < r.values.length) :
    ∀ (d row : Nat), rows.length - row = d → row ≤ rows.length → r.offset row ≤ entry →
      skipEnded entry row (r.rowOffsets.drop (row + 1)) < rows.length ∧
        r.offset (skipEnded entry row (r.rowOffsets.drop (row + 1))) ≤ entry ∧
        entry < r.offset (skipEnded entry row (r.rowOffsets.drop (row + 1)) + 1) := by
  have hlast : r.offset rows.length = r.values.length := by
    rw [h.offset_eq (Nat.le_refl _), List.take_length, h.length_values]
  intro d
  induction d with
  | zero =>
    -- the last row is passed only by an entry past the last offset
    intro row hd hle hrow
    have : row = rows.length := by omega
    subst this
    omega
  | succ d ih =>
    intro row hd hle hrow
    have hrow' : row + 1 < r.rowOffsets.length := by rw [h.offsets_eq, length_offsetsOf]; omega
    have hnext : r.rowOffsets[row + 1] = r.offset (row + 1) := by
      simp [offset, List.getD_eq_getElem?_getD, List.getElem?_eq_getElem hrow']
    rw [List.drop_eq_getElem_cons hrow', skipEnded, hnext]
    split
    · exact ih (row + 1) (by omega) (by omega) (by assumption)
    · refine ⟨by omega, hrow, by omega⟩

/-- The entry at a position between the offsets of row `k` is an entry of row `k`: its column
lies in the grid and its index is in row `k` at that column. -/
theorem entry_between (h : r.Layout rows) {k e : Nat} (hk : k < rows.length)
    (hlo : r.offset k ≤ e) (hhi : e < r.offset (k + 1)) :
    ∃ col v, 0 ≤ col ∧ col < (r.metadata.cols.toNat : Int) ∧ r.colIndices[e]? = some col ∧
      r.values[e]? = some v ∧
      (entriesOf r.metadata.cols.toNat rows)[e]? = some ⟨k * r.metadata.cols.toNat + col.toNat, v⟩ := by
  have hp : e - r.offset k < rows[k].length := by
    rw [h.offset_succ hk] at hhi
    omega
  obtain ⟨hcol, hval, hent⟩ := h.getElem?_entry r.metadata.cols.toNat hk hp
  rw [Nat.add_sub_cancel' hlo] at hcol hval hent
  have hbound := h.col_lt _ (List.getElem_mem hk) _ (List.getElem_mem hp)
  exact ⟨_, _, hbound.1, hbound.2, hcol, hval, hent⟩

end Layout

/-- An index lies in row `k` at column `col` exactly when `k` and `col` are its quotient and
remainder. -/
theorem index_eq_iff {n k i : Nat} {col : Int} (h0 : 0 ≤ col) (hcol : col < n) :
    k * n + col.toNat = i ↔ k = i / n ∧ col = ((i % n : Nat) : Int) := by
  have hlt : col.toNat < n := by omega
  constructor
  · rintro rfl
    obtain ⟨hdiv, hmod⟩ := div_mod_index (k := k) hlt
    rw [hdiv, hmod]
    exact ⟨rfl, by omega⟩
  · rintro ⟨rfl, rfl⟩
    rw [Int.toNat_natCast]
    exact Nat.div_add_mod' i n

/-- The merge's test: the row cursor is the cell's row and the entry's column, as a machine word,
the cell's column. -/
theorem merge_test_iff {n k i : Nat} {col : Int} (h0 : 0 ≤ col) (hcol : col < n)
    (hn : (n : Int) < wordSize) :
    (k = i / n ∧ (col % (wordSize : Int)).toNat = i % n) ↔ k * n + col.toNat = i := by
  rw [Int.emod_eq_of_lt h0 (by omega), index_eq_iff h0 hcol]
  omega

/-- The cell at index `i` of sound rows is the value of the entry at index `i`. -/
theorem lookup_entriesOf {cols : Nat} {rows : List Row}
    (hrows : ∀ row ∈ rows, ∀ e ∈ row, 0 ≤ e.1 ∧ e.1 < cols) {i : Nat}
    (hi : i < rows.length * cols) : lookup (entriesOf cols rows) i = cellOf rows cols i := by
  have hpos : 0 < cols := Nat.pos_of_ne_zero fun h0 => by simp [h0] at hi
  have hk : i / cols < rows.length := (Nat.div_lt_iff_lt_mul hpos).mpr hi
  -- the entry at index `i` is among the entries of row `i / cols`
  have hsame : (entriesOf cols rows).filter (·.index == i) =
      ((entriesOf cols rows).filter (·.index / cols = i / cols)).filter (·.index == i) := by
    rw [List.filter_filter]
    apply List.filter_congr
    intro e _
    by_cases he : e.index = i <;> simp [he]
  -- and within the row, at index `i` exactly at column `i % cols`
  have hrow : (rows[i / cols].filter fun e =>
        (⟨i / cols * cols + e.1.toNat, e.2⟩ : SparseEntry).index == i) =
      rows[i / cols].filter (·.1 == ((i % cols : Nat) : Int)) := by
    apply List.filter_congr
    intro e he
    have hb := hrows _ (List.getElem_mem hk) e he
    simp only [beq_eq_decide, index_eq_iff hb.1 hb.2, true_and]
  rw [lookup, ← List.head?_filter, hsame, filter_entriesOf hrows hk, List.filter_map,
    Function.comp_def, hrow, List.head?_map, Option.map_map, cellOf,
    ← List.getElem_eq_getD (h := hk) [], valueIn, ← List.head?_filter]
  rfl

namespace Layout

variable {r : SparseRaster} {rows : List Row}

/-- The merge reads the entries' values at their indices: from a cursor on the entries and a row
cursor at or before the entry's row, the next `c` cells read the entries at their indices. -/
theorem cellsFrom_eq (h : r.Layout rows) (hw : r.metadata.cols < wordSize) :
    ∀ (c i e row : Nat), Cursor (entriesOf r.metadata.cols.toNat rows) i e →
      row ≤ rows.length → r.offset row ≤ e →
      r.cellsFrom c i e row =
        (List.range' i c).map (lookup (entriesOf r.metadata.cols.toNat rows)) := by
  have hwn := width_eq h.cols_nonneg hw
  set n := r.metadata.cols.toNat with hn
  have hs := (entriesOk_entriesOf h.col_lt fun row hrow => (h.row_ok row hrow).sorted).sorted
  have hlen := h.length_entriesOf n
  intro c
  induction c with
  | zero =>
    intro i e row _ _ _
    rfl
  | succ c ih =>
    intro i e row hcur hrow hoff
    rw [List.range'_succ, List.map_cons]
    simp only [cellsFrom]
    by_cases he : e < r.values.length
    · -- the row cursor moves on to the entry's row, and the entry is the cell's or later
      obtain ⟨hk, hlo, hhi⟩ := h.skipEnded_spec he _ row rfl hrow hoff
      set k := skipEnded e row (r.rowOffsets.drop (row + 1))
      obtain ⟨col, v, hc0, hcn, hcol, hval, hent⟩ := h.entry_between hk hlo hhi
      have he' : e < (entriesOf n rows).length := hlen ▸ he
      have hget : (entriesOf n rows)[e] = ⟨k * n + col.toNat, v⟩ :=
        (List.getElem?_eq_some_iff.mp hent).2
      have hv : r.values[e] = v := (List.getElem?_eq_some_iff.mp hval).2
      have htest := merge_test_iff (k := k) (i := i) hc0 hcn (by omega)
      rw [dif_pos he, hwn, List.getD_eq_getElem?_getD, hcol, Option.getD_some]
      by_cases hi : k * n + col.toNat = i
      · have hat : (entriesOf n rows)[e].index = i := by rw [hget]; exact hi
        rw [if_pos (htest.mpr hi), hcur.lookup_of_eq he' hat, hget, hv]
        congr 1
        exact ih (i + 1) (e + 1) k (hcur.next_of_eq hs he' hat) (Nat.le_of_lt hk) (by omega)
      · have hne : ∀ he' : e < (entriesOf n rows).length, (entriesOf n rows)[e].index ≠ i :=
          fun _ => by rw [hget]; exact hi
        rw [if_neg (mt htest.mp hi), hcur.lookup_of_ne hs hne]
        congr 1
        exact ih (i + 1) e k (hcur.next_of_ne hs hne) (Nat.le_of_lt hk) hlo
    · -- past the last entry every cell is missing
      have hne : ∀ he' : e < (entriesOf n rows).length, (entriesOf n rows)[e].index ≠ i :=
        fun he' => absurd (hlen ▸ he') he
      rw [dif_neg he, hcur.lookup_of_ne hs hne]
      congr 1
      exact ih (i + 1) e row (hcur.next_of_ne hs hne) hrow hoff

/-- Reading every cell of a laid-out raster reads the cell of its rows at each index. -/
theorem toOptions_eq (h : r.Layout rows) (hw : r.metadata.cols < wordSize) :
    r.toOptions = (List.range r.len).map (cellOf rows r.metadata.cols.toNat) := by
  have hzero : r.offset 0 = 0 := by simp [h.offset_eq (Nat.zero_le _)]
  rw [toOptions, h.cellsFrom_eq hw r.len 0 0 0 (Cursor.zero _) (Nat.zero_le _) (by omega),
    ← List.range_eq_range']
  apply List.map_congr_left
  intro i hi
  apply lookup_entriesOf h.col_lt
  rw [h.length_rows]
  simpa [len, Metadata.cellCount, Metadata.size] using List.mem_range.mp hi

end Layout

end SparseRaster

end Georaster
