import Georaster.Proofs.Sparse.Build
/-!
# Editing sparse rasters

Every edit of a sparse raster keeps it laid out in sound rows, and the rows it lays out are
those of the edit. Setting a cell changes the cell's row only (`putIn`): the bisection finds
where the column's entry is or belongs, so an entry is replaced, inserted or removed there, and
shifting the later offsets by one keeps every other row where it was.
-/

namespace Georaster

namespace SparseRaster

/-! ### One row edited in place -/

section Split

variable {α β : Type} (L : List (List α)) {k : Nat}

/-- Row `k` splits the concatenation into the rows before it, its entries and the rows after
it. -/
theorem flatten_eq_split (hk : k < L.length) :
    L.flatten = (L.take k).flatten ++ (L[k] ++ (L.drop (k + 1)).flatten) := by
  conv_lhs => rw [← List.take_append_drop k L, List.drop_eq_getElem_cons hk]
  simp only [List.flatten_append, List.flatten_cons]

theorem flatten_modify (f : List α → List α) (hk : k < L.length) :
    (L.modify k f).flatten = (L.take k).flatten ++ (f L[k] ++ (L.drop (k + 1)).flatten) := by
  rw [List.modify_eq_take_cons_drop hk]
  simp

theorem modify_of_eq_self {f : List α → List α} (hk : k < L.length) (hf : f L[k] = L[k]) :
    L.modify k f = L := by
  rw [List.modify_eq_take_cons_drop hk, hf, ← List.drop_eq_getElem_cons hk, List.take_append_drop]

theorem map_modify_of_eq {f : List α → List α} {g : List α → β} (hk : k < L.length)
    (hf : g (f L[k]) = g L[k]) : (L.modify k f).map g = L.map g := by
  rw [List.modify_eq_take_cons_drop hk, List.map_append, List.map_cons, hf, ← List.map_cons,
    ← List.map_append, ← List.drop_eq_getElem_cons hk, List.take_append_drop]

theorem forall_mem_modify {P : List α → Prop} {f : List α → List α} (hk : k < L.length)
    (hL : ∀ l ∈ L, P l) (hf : P (f L[k])) : ∀ l ∈ L.modify k f, P l := by
  rw [List.modify_eq_take_cons_drop hk]
  intro l hl
  simp only [List.mem_append, List.mem_cons] at hl
  rcases hl with hl | rfl | hl
  · exact hL l (List.mem_of_mem_take hl)
  · exact hf
  · exact hL l (List.mem_of_mem_drop hl)

theorem insertIdx_append_of_le (A B : List α) {p : Nat} (hp : p ≤ A.length) (a : α) :
    (A ++ B).insertIdx p a = A.insertIdx p a ++ B := by
  induction A generalizing p with
  | nil => simp [Nat.le_zero.mp hp]
  | cons x A ih =>
    cases p with
    | zero => simp
    | succ p => simp [List.insertIdx_succ_cons, ih (Nat.le_of_succ_le_succ hp)]

theorem insertIdx_append_length (A B : List α) (p : Nat) (a : α) :
    (A ++ B).insertIdx (A.length + p) a = A ++ B.insertIdx p a := by
  induction A with
  | nil => simp
  | cons x A ih =>
    rw [List.length_cons, Nat.add_right_comm, List.cons_append, List.cons_append,
      List.insertIdx_succ_cons, ih]

variable {f : List α → List α} {p : Nat}

/-- Replacing an element of row `k` replaces it in the concatenation, past the rows before. -/
theorem flatten_modify_of_set (hk : k < L.length) (hp : p < L[k].length) {a : α}
    (hf : f L[k] = L[k].set p a) :
    (L.modify k f).flatten = L.flatten.set (((L.take k).map List.length).sum + p) a := by
  rw [flatten_modify L f hk, flatten_eq_split L hk, hf, ← List.length_flatten, List.set_append,
    if_neg (by omega), Nat.add_sub_cancel_left, List.set_append, if_pos hp]

theorem flatten_modify_of_insertIdx (hk : k < L.length) (hp : p ≤ L[k].length) {a : α}
    (hf : f L[k] = L[k].insertIdx p a) :
    (L.modify k f).flatten = L.flatten.insertIdx (((L.take k).map List.length).sum + p) a := by
  rw [flatten_modify L f hk, flatten_eq_split L hk, hf, ← List.length_flatten,
    insertIdx_append_length, insertIdx_append_of_le _ _ hp]

theorem flatten_modify_of_eraseIdx (hk : k < L.length) (hp : p < L[k].length)
    (hf : f L[k] = L[k].eraseIdx p) :
    (L.modify k f).flatten = L.flatten.eraseIdx (((L.take k).map List.length).sum + p) := by
  rw [flatten_modify L f hk, flatten_eq_split L hk, hf, ← List.length_flatten,
    List.eraseIdx_append_of_length_le (by omega), Nat.add_sub_cancel_left,
    List.eraseIdx_append_of_lt_length hp]

/-- The lengths of the rows add up to the same with row `k` edited, once each side is given the
other's row `k`. -/
theorem sum_lengths_modify (f : List α → List α) (hk : k < L.length) :
    ((L.modify k f).map List.length).sum + L[k].length =
      (L.map List.length).sum + (f L[k]).length := by
  have hnew := congrArg List.length (flatten_modify L f hk)
  have hold := congrArg List.length (flatten_eq_split L hk)
  simp only [List.length_append, List.length_flatten] at hnew hold
  omega

end Split

theorem getElem_offsetsOf (rows : List Row) {j : Nat} (hj : j < (offsetsOf rows).length) :
    (offsetsOf rows)[j] = ((rows.take j).map List.length).sum := by
  rw [List.getElem_eq_getD 0, getD_offsetsOf rows (by simp at hj; omega)]

/-- Editing row `k` moves the offsets after it by the change in its length and keeps the others. -/
theorem getElem_offsetsOf_modify (rows : List Row) (f : Row → Row) {k j : Nat}
    (hk : k < rows.length) (hj : j < (offsetsOf rows).length)
    (hj' : j < (offsetsOf (rows.modify k f)).length) :
    (offsetsOf (rows.modify k f))[j] +
        (if k < j then rows[k].length else 0) =
      (offsetsOf rows)[j] + (if k < j then (f rows[k]).length else 0) := by
  rw [getElem_offsetsOf, getElem_offsetsOf, List.take_modify]
  by_cases hkj : k < j
  · have hk' : k < (rows.take j).length := by simp; omega
    have := sum_lengths_modify (rows.take j) f hk'
    simp only [List.getElem_take] at this
    simp only [hkj, if_true]
    exact this
  · rw [List.modify_eq_self (by simp; omega)]
    simp [hkj]

/-! ### Where a column is, or belongs, in a row -/

/-- The number of entries of a row below column `c`: the position of the column's entry, or where
it would be inserted. -/
def rank (row : Row) (c : Int) : Nat := (row.map (·.1)).countP (· < c)

/-- The row with column `c` given `v`: a value replaces the column's entry or is inserted where the
column belongs; none removes the column's entry. -/
def putIn (row : Row) (c : Int) : Option Pixel → Row
  | some x => if c ∈ row.map (·.1) then row.set (rank row c) (c, x)
    else row.insertIdx (rank row c) (c, x)
  | none => if c ∈ row.map (·.1) then row.eraseIdx (rank row c) else row

theorem rank_le (row : Row) (c : Int) : rank row c ≤ row.length := by
  have := List.countP_le_length (l := row.map (·.1)) (p := fun x => decide (x < c))
  rwa [List.length_map] at this

section Rank

variable {row : Row} (hs : (row.map (·.1)).Pairwise (· < ·)) {c : Int}
  (hmem : c ∈ row.map (·.1))
include hs hmem

theorem rank_lt_of_mem : rank row c < row.length := by
  obtain ⟨j, hj, hjc⟩ := List.getElem_of_mem hmem
  rw [rank, countP_lt_of_getElem hs hj hjc]
  simpa using hj

/-- In a sorted row holding column `c`, the rank of `c` is the position of its entry. -/
theorem getElem_rank (hlt : rank row c < row.length) : row[rank row c].1 = c := by
  obtain ⟨j, hj, hjc⟩ := List.getElem_of_mem hmem
  have hrank : rank row c = j := countP_lt_of_getElem hs hj hjc
  simp only [hrank]
  simpa using hjc

end Rank

/-- Inserted at the count of the elements below it, an element missing from a strictly increasing
list keeps it strictly increasing. -/
theorem pairwise_insertIdx_countP {xs : List Int} (hs : xs.Pairwise (· < ·)) {c : Int}
    (hc : c ∉ xs) : (xs.insertIdx (xs.countP (· < c)) c).Pairwise (· < ·) := by
  induction xs with
  | nil => simp
  | cons y ys ih =>
    obtain ⟨hy, hys⟩ := List.pairwise_cons.mp hs
    have hcy : c ≠ y := fun h => hc (h ▸ List.mem_cons_self)
    by_cases hlt : y < c
    · -- `y` stays first, and `c` goes among the rest
      have hle : ys.countP (· < c) ≤ ys.length := List.countP_le_length
      rw [List.countP_cons_of_pos (by simpa using hlt), List.insertIdx_succ_cons,
        List.pairwise_cons]
      refine ⟨fun z hz => ?_, ih hys fun h => hc (List.mem_cons_of_mem _ h)⟩
      rcases (List.mem_insertIdx hle).mp hz with rfl | hz
      · exact hlt
      · exact hy z hz
    · -- every element is above `c`, which goes first
      have hzero : (y :: ys).countP (· < c) = 0 := by
        rw [List.countP_eq_zero]
        intro z hz
        rcases List.mem_cons.mp hz with rfl | hz
        · simpa using hlt
        · have := hy z hz
          simp only [decide_eq_true_eq]
          omega
      rw [hzero, List.insertIdx_zero, List.pairwise_cons]
      refine ⟨fun z hz => ?_, hs⟩
      rcases List.mem_cons.mp hz with rfl | hz
      · omega
      · have := hy z hz
        omega

/-- Replacing the value of a column the row holds keeps its columns. -/
theorem map_fst_putIn_of_mem {row : Row} (hs : (row.map (·.1)).Pairwise (· < ·)) {c : Int}
    (hmem : c ∈ row.map (·.1)) (x : Pixel) : (putIn row c (some x)).map (·.1) = row.map (·.1) := by
  have hlt := rank_lt_of_mem hs hmem
  have hget := getElem_rank hs hmem hlt
  have hlt' : rank row c < (row.map (·.1)).length := by simpa using hlt
  have hself : (row.map (·.1)).set (rank row c) (row.map (·.1))[rank row c] = row.map (·.1) :=
    List.set_getElem_self hlt'
  rw [List.getElem_map, hget] at hself
  simp only [putIn, hmem, if_true, List.map_set]
  exact hself

/-- Setting a column of the grid in a sound row leaves it sound. -/
theorem rowOk_putIn {cols : Int} {row : Row} (h : RowOk cols row) {c : Int}
    (hc : 0 ≤ c ∧ c < cols) (v : Option Pixel) : RowOk cols (putIn row c v) := by
  cases v with
  | none =>
    simp only [putIn]
    split
    · refine ⟨?_, fun e he => h.col_mem e (List.mem_of_mem_eraseIdx he)⟩
      rw [← List.eraseIdx_map]
      exact h.sorted.eraseIdx _
    · exact h
  | some x =>
    by_cases hmem : c ∈ row.map (·.1)
    · refine ⟨map_fst_putIn_of_mem h.sorted hmem x ▸ h.sorted, fun e he => ?_⟩
      simp only [putIn, hmem, if_true] at he
      rcases List.mem_or_eq_of_mem_set he with he | rfl
      · exact h.col_mem e he
      · exact hc
    · simp only [putIn, hmem, if_false]
      refine ⟨?_, fun e he => ?_⟩
      · rw [List.map_insertIdx]
        exact pairwise_insertIdx_countP h.sorted hmem
      · rcases (List.mem_insertIdx (rank_le row c)).mp he with rfl | he
        · exact hc
        · exact h.col_mem e he

/-! ### Setting a cell -/

/-- Inserting an entry in row `k` moves every later offset up by one. -/
theorem offsetsOf_modify_of_succ (rows : List Row) {f : Row → Row} {k : Nat}
    (hk : k < rows.length) (hlen : (f rows[k]).length = rows[k].length + 1) :
    offsetsOf (rows.modify k f) = (offsetsOf rows).mapIdx fun j o => if k < j then o + 1 else o := by
  apply List.ext_getElem (by simp)
  intro j h₁ h₂
  have hj := getElem_offsetsOf_modify rows f hk (by simpa using h₂) (by simpa using h₁)
  rw [List.getElem_mapIdx]
  by_cases hkj : k < j
  · simp only [hkj, if_true] at hj ⊢
    omega
  · simpa only [hkj, if_false, Nat.add_zero] using hj

/-- Removing an entry from row `k` moves every later offset down by one. -/
theorem offsetsOf_modify_of_pred (rows : List Row) {f : Row → Row} {k : Nat}
    (hk : k < rows.length) (hlen : (f rows[k]).length + 1 = rows[k].length) :
    offsetsOf (rows.modify k f) = (offsetsOf rows).mapIdx fun j o => if k < j then o - 1 else o := by
  apply List.ext_getElem (by simp)
  intro j h₁ h₂
  have hj := getElem_offsetsOf_modify rows f hk (by simpa using h₂) (by simpa using h₁)
  rw [List.getElem_mapIdx]
  by_cases hkj : k < j
  · simp only [hkj, if_true] at hj ⊢
    omega
  · simpa only [hkj, if_false, Nat.add_zero] using hj

namespace Layout

variable {r : SparseRaster} {rows : List Row}

/-- The column of an index lies in the grid: the width is the number of columns as a machine
word, at most the number of columns. -/
theorem col_mem_of_width (h : r.Layout rows) (i : Nat) (hw : 0 < r.width) :
    0 ≤ ((i % r.width : Nat) : Int) ∧ ((i % r.width : Nat) : Int) < r.metadata.cols := by
  have hlt := Nat.mod_lt i hw
  have h0 := h.cols_nonneg
  have hle : r.width ≤ r.metadata.cols.toNat := by
    simp only [width, wordSize]
    omega
  omega

/-- Setting a cell edits the cell's row only: row `i / width` gets column `i % width` set. -/
theorem setValue (h : r.Layout rows) {i : Nat} {v : Option Pixel} {r' : SparseRaster}
    (hs : r.setValue i v = .ok r') :
    r'.Layout (rows.modify (i / r.width) fun row => putIn row ((i % r.width : Nat) : Int) v) := by
  unfold SparseRaster.setValue at hs
  obtain ⟨p, hp, hs⟩ := bind_eq_ok.mp hs
  obtain ⟨hw, hk⟩ := h.lt_of_position_eq_ok hp
  rw [h.position_eq hw hk] at hp
  cases hp
  set k := i / r.width with hk_def
  set c : Int := ((i % r.width : Nat) : Int) with hc_def
  have hrow := h.row_ok _ (List.getElem_mem hk)
  have hc : 0 ≤ c ∧ c < r.metadata.cols := h.col_mem_of_width i hw
  have hok := forall_mem_modify rows (f := fun row => putIn row c v) hk h.row_ok
    (rowOk_putIn hrow hc v)
  have hlen := List.length_modify (f := fun row => putIn row c v) (i := k) (l := rows)
  rw [← List.getElem_eq_getD (h := hk) [], search_eq hrow.sorted] at hs
  by_cases hmem : c ∈ rows[k].map (·.1) <;>
    cases v <;> simp only [hmem, if_true, if_false, Slot.shift, pure_eq_ok] at hs <;> subst hs
  · -- the entry of the column is removed, and the later rows move down by one
    have hlt := rank_lt_of_mem hrow.sorted hmem
    have hf : putIn rows[k] c none = rows[k].eraseIdx (rank rows[k] c) := by simp [putIn, hmem]
    refine h.of_rows hlen hok ?_ ?_ ?_
    · rw [h.offsets_eq, offsetsOf_modify_of_pred rows hk
        (by rw [hf, List.length_eraseIdx_of_lt hlt]; omega)]
    · rw [flatMap_map_eq, flatten_modify_of_eraseIdx rows hk hlt hf, ← List.eraseIdx_map,
        ← flatMap_map_eq, ← h.cols_eq, h.offset_eq (Nat.le_of_lt hk)]
      rfl
    · rw [flatMap_map_eq, flatten_modify_of_eraseIdx rows hk hlt hf, ← List.eraseIdx_map,
        ← flatMap_map_eq, ← h.values_eq, h.offset_eq (Nat.le_of_lt hk)]
      rfl
  · -- the value of the column's entry is replaced
    rename_i x
    have hlt := rank_lt_of_mem hrow.sorted hmem
    have hf : putIn rows[k] c (some x) = rows[k].set (rank rows[k] c) (c, x) := by
      simp [putIn, hmem]
    refine h.of_rows hlen hok ?_ ?_ ?_
    · rw [h.offsets_eq, offsetsOf, offsetsOf,
        map_modify_of_eq rows (g := List.length) hk (by rw [hf, List.length_set])]
    · rw [h.cols_eq, List.flatMap_def, List.flatMap_def,
        map_modify_of_eq rows hk (map_fst_putIn_of_mem hrow.sorted hmem x)]
    · rw [flatMap_map_eq, flatten_modify_of_set rows hk hlt hf, List.map_set, ← flatMap_map_eq,
        ← h.values_eq, h.offset_eq (Nat.le_of_lt hk)]
      rfl
  · -- nothing to remove
    rw [modify_of_eq_self rows hk (by simp [putIn, hmem])]
    exact h
  · -- an entry is inserted where the column belongs, and the later rows move up by one
    rename_i x
    have hf : putIn rows[k] c (some x) = rows[k].insertIdx (rank rows[k] c) (c, x) := by
      simp [putIn, hmem]
    refine h.of_rows hlen hok ?_ ?_ ?_
    · rw [h.offsets_eq, offsetsOf_modify_of_succ rows hk
        (by rw [hf, List.length_insertIdx_of_le_length (rank_le _ _)])]
    · rw [flatMap_map_eq, flatten_modify_of_insertIdx rows hk (rank_le _ _) hf,
        List.map_insertIdx, ← flatMap_map_eq, ← h.cols_eq, h.offset_eq (Nat.le_of_lt hk)]
      rfl
    · rw [flatMap_map_eq, flatten_modify_of_insertIdx rows hk (rank_le _ _) hf,
        List.map_insertIdx, ← flatMap_map_eq, ← h.values_eq, h.offset_eq (Nat.le_of_lt hk)]
      rfl

end Layout

/-! ### Edits of every row -/

/-- One row of `retain`: the entries of the row from the cursor on that `keep` accepts are
appended, the cursor moves to the row's end, and the offset after the row becomes the number kept
so far. -/
def retainStep (r : SparseRaster) (keep : Pixel → Bool) :
    Nat × List (Int × Pixel) × List Nat → Nat → Nat × List (Int × Pixel) × List Nat
  | (entry, kept, offsets), row =>
    let rowEnd := r.offset (row + 1)
    let kept := kept ++ ((r.colIndices.zip r.values).extract entry rowEnd).filter fun e => keep e.2
    (max entry rowEnd, kept, offsets.set (row + 1) kept.length)

theorem retain_eq (r : SparseRaster) (keep : Pixel → Bool) :
    r.retain keep =
      let acc := (List.range (r.rowOffsets.length - 1)).foldl (r.retainStep keep)
        (0, [], r.rowOffsets);
      { r with
        rowOffsets := acc.2.2
        colIndices := acc.2.1.map (·.1)
        values := acc.2.1.map (·.2) } := rfl

namespace Layout

variable {r : SparseRaster} {rows : List Row}

/-- The offsets of rows start at zero. -/
theorem offsetsOf_eq_cons (rows : List Row) : offsetsOf rows = 0 :: (offsetsOf rows).drop 1 := by
  cases rows <;> simp [offsetsOf, List.scanl_cons]

/-- After `j` rows, `retain` has kept the accepted entries of those rows and set their offsets;
the cursor is at the end of row `j - 1`, and the later offsets are untouched. -/
theorem foldl_retainStep (h : r.Layout rows) (keep : Pixel → Bool) {j : Nat}
    (hj : j ≤ rows.length) :
    (List.range j).foldl (r.retainStep keep) (0, [], r.rowOffsets) =
      (r.offset j, ((rows.map (·.filter fun e => keep e.2)).take j).flatten,
        offsetsOf ((rows.map (·.filter fun e => keep e.2)).take j) ++
          (offsetsOf rows).drop (j + 1)) := by
  induction j with
  | zero =>
    simp only [List.range_zero, List.foldl_nil, List.take_zero, List.flatten_nil]
    rw [h.offset_eq (Nat.zero_le _), h.offsets_eq, offsetsOf_eq_cons rows]
    rfl
  | succ j ih =>
    have hj' : j < rows.length := hj
    set kept := rows.map (·.filter fun e => keep e.2) with hkept
    have hlen : kept.length = rows.length := List.length_map _
    rw [List.range_succ, List.foldl_append, ih (Nat.le_of_lt hj'), List.foldl_cons,
      List.foldl_nil]
    -- row `j` is the interval of entries from offset `j` to offset `j + 1`
    have hrow : (r.colIndices.zip r.values).extract (r.offset j) (r.offset (j + 1)) = rows[j] := by
      rw [zip_eq_flatten h, h.offset_eq (Nat.le_of_lt hj'), h.offset_eq hj']
      exact extract_flatten rows hj'
    have htake : kept.take (j + 1) = kept.take j ++ [rows[j].filter fun e => keep e.2] := by
      rw [List.take_succ_eq_append_getElem (by omega), List.getElem_map]
    have hnext : j + 1 < (offsetsOf rows).length := by simp; omega
    have hdrop : (offsetsOf rows).drop (j + 1) =
        (offsetsOf rows)[j + 1] :: (offsetsOf rows).drop (j + 2) :=
      List.drop_eq_getElem_cons hnext
    have hoff : (offsetsOf (kept.take j)).length = j + 1 := by simp; omega
    simp only [retainStep]
    rw [hrow, h.offset_succ hj', htake, List.flatten_append, List.flatten_singleton,
      offsetsOf_append, Nat.max_eq_right (Nat.le_add_right _ _)]
    refine Prod.ext rfl (Prod.ext rfl ?_)
    rw [hdrop, List.set_append, if_neg (by omega), hoff, Nat.sub_self, List.set_cons_zero]
    simp [List.length_flatten]

/-- Without entries, every row is empty. -/
theorem clear (h : r.Layout rows) : r.clear.Layout (List.replicate rows.length []) :=
  h.of_rows List.length_replicate
    (fun row hrow => by rw [List.eq_of_mem_replicate hrow]; exact RowOk.nil _)
    (by rw [offsetsOf_replicate_nil, List.map_const', h.offsets_eq, length_offsetsOf])
    (by simp) (by simp)

theorem fillWithNodata (h : r.Layout rows) :
    r.fillWithNodata.Layout (List.replicate rows.length []) := h.clear

/-- The full row of a grid of `cols` columns, every entry holding `v`. -/
theorem rowOk_full {cols : Int} (h0 : 0 ≤ cols) (v : Pixel) :
    RowOk cols ((List.range cols.toNat).map fun (c : Nat) => ((c : Int), v)) := by
  refine ⟨?_, fun e he => ?_⟩
  · rw [List.map_map]
    exact List.pairwise_lt_range.map _ fun a b hab => by simpa using hab
  · obtain ⟨c, hc, rfl⟩ := List.mem_map.mp he
    have := List.mem_range.mp hc
    omega

/-- Filling with a value that marks nodata empties every row; any other value fills every row
with one entry per column. -/
theorem fill (h : r.Layout rows) (v : Pixel) :
    (r.fill v).Layout (if r.isNodataValue v then List.replicate rows.length []
      else List.replicate rows.length
        ((List.range r.metadata.cols.toNat).map fun (c : Nat) => ((c : Int), v))) := by
  unfold SparseRaster.fill
  by_cases hv : r.isNodataValue v
  · simp only [hv, if_true]
    exact h.clear
  · simp only [hv, if_false, Bool.false_eq_true]
    refine h.of_rows List.length_replicate
      (fun row hrow => List.eq_of_mem_replicate hrow ▸ rowOk_full h.cols_nonneg v) ?_ ?_ ?_
    · rw [offsetsOf_replicate, h.length_rows]
      simp
    · simp [List.flatMap_def, List.map_const', Function.comp_def, ← h.length_rows]
    · simp [List.flatMap_def, List.map_const', Function.comp_def, len, Metadata.cellCount,
        Metadata.size, GridSize.cellCount, ← h.length_rows]

/-- Setting every data cell keeps the columns of every row. -/
theorem fillValues (h : r.Layout rows) (v : Pixel) :
    (r.fillValues v).Layout (rows.map (·.map fun e => (e.1, v))) := by
  refine h.of_rows (List.length_map _) (fun row' hrow' => ?_) ?_ ?_ ?_
  · obtain ⟨row, hrow, rfl⟩ := List.mem_map.mp hrow'
    have hok := h.row_ok row hrow
    refine ⟨by simpa [Function.comp_def] using hok.sorted, fun e' he' => ?_⟩
    obtain ⟨e, he, rfl⟩ := List.mem_map.mp he'
    exact hok.col_mem e he
  · simp [h.offsets_eq, offsetsOf, Function.comp_def]
  · simp [h.cols_eq, List.flatMap_def, Function.comp_def]
  · simp [h.values_eq, List.flatMap_def, Function.comp_def, List.map_const']

/-- Other dimensions and no data cell: every row of the new grid is empty. -/
theorem resize (h : r.Layout rows) (m n : Int) :
    (r.resize m n).Layout (List.replicate (max m 0).toNat []) where
  rows_nonneg := show 0 ≤ max m 0 by omega
  cols_nonneg := show 0 ≤ max n 0 by omega
  length_rows := by simp [SparseRaster.resize]
  row_ok := fun row hrow => by rw [List.eq_of_mem_replicate hrow]; exact RowOk.nil _
  offsets_eq := (offsetsOf_replicate_nil _).symm
  cols_eq := by simp [SparseRaster.resize]
  values_eq := by simp [SparseRaster.resize]
  nodata_valid := h.nodata_valid
  nodata_eq := h.nodata_eq

/-- Metadata of the same dimensions whose nodata value the pixel type accepts keep the rows. -/
theorem withMetadata (h : r.Layout rows) {m : Metadata} {n : Pixel}
    (hrows : m.rows = r.metadata.rows) (hcols : m.cols = r.metadata.cols)
    (hn : nodataOf r.type m = .ok n) :
    ({ r with metadata := m, nodata := n } : SparseRaster).Layout rows where
  rows_nonneg := hrows ▸ h.rows_nonneg
  cols_nonneg := hcols ▸ h.cols_nonneg
  length_rows := hrows ▸ h.length_rows
  row_ok := hcols ▸ h.row_ok
  offsets_eq := h.offsets_eq
  cols_eq := h.cols_eq
  values_eq := h.values_eq
  nodata_valid := (nodataOf_eq_ok.mp hn).1
  nodata_eq := (nodataOf_eq_ok.mp hn).2

/-- Dropping the entries that `keep` refuses keeps, in every row, the entries it accepts. -/
theorem retain (h : r.Layout rows) (keep : Pixel → Bool) :
    (r.retain keep).Layout (rows.map (·.filter fun e => keep e.2)) := by
  have hn : r.rowOffsets.length - 1 = rows.length := by
    rw [h.offsets_eq, length_offsetsOf, Nat.add_sub_cancel]
  rw [retain_eq, hn, foldl_retainStep h keep (Nat.le_refl _),
    List.take_of_length_le (by simp), List.drop_of_length_le (by simp), List.append_nil]
  refine h.of_rows (List.length_map _) (fun row' hrow' => ?_) rfl
    (flatMap_map_eq _ _).symm (flatMap_map_eq _ _).symm
  obtain ⟨row, hrow, rfl⟩ := List.mem_map.mp hrow'
  have hok := h.row_ok row hrow
  exact ⟨hok.sorted.sublist (List.filter_sublist.map _),
    fun e he => hok.col_mem e (List.mem_filter.mp he).1⟩

theorem turnValueIntoNodata (h : r.Layout rows) (v : Pixel) :
    (r.turnValueIntoNodata v).Layout (rows.map (·.filter fun e => !e.2.eq v)) :=
  h.retain _

theorem setMetadata (h : r.Layout rows) {m : Metadata} {r' : SparseRaster}
    (hs : r.setMetadata m = .ok r') : r'.Layout rows := by
  unfold SparseRaster.setMetadata at hs
  split at hs
  · cases hs
  · rename_i hsize
    obtain ⟨n, hn, hs⟩ := bind_eq_ok.mp hs
    rw [pure_eq_ok] at hs
    subst hs
    exact h.withMetadata (by omega) (by omega) hn

theorem setNodata (h : r.Layout rows) {n : Option Binary64} {r' : SparseRaster}
    (hs : r.setNodata n = .ok r') : r'.Layout rows := by
  unfold SparseRaster.setNodata at hs
  obtain ⟨x, hx, hs⟩ := bind_eq_ok.mp hs
  rw [pure_eq_ok] at hs
  subst hs
  exact h.withMetadata rfl rfl hx

/-- Inside the grid, setting a cell of a laid-out raster always succeeds. -/
theorem setValue_isOk (h : r.Layout rows) (hw : r.metadata.cols < wordSize) {i : Nat}
    (hi : i < r.len) (v : Option Pixel) : ∃ r', r.setValue i v = .ok r' := by
  obtain ⟨hpos, hk⟩ := h.div_lt_of_lt_len hw hi
  unfold SparseRaster.setValue
  rw [h.position_eq hpos hk, ok_bind]
  dsimp only
  split <;> exact ⟨_, rfl⟩

end Layout

theorem metadata_of_setValue_eq_ok {r r' : SparseRaster} {i : Nat} {v : Option Pixel}
    (h : r.setValue i v = .ok r') : r'.metadata = r.metadata := by
  unfold SparseRaster.setValue at h
  obtain ⟨⟨row, slot⟩, -, h⟩ := bind_eq_ok.mp h
  dsimp only at h
  split at h <;> cases pure_eq_ok.mp h <;> rfl

end SparseRaster

end Georaster
