import Georaster.Proofs.Sparse.Search
/-!
# Building sparse rasters

Every way of building a sparse raster lays out sound rows (`Layout`): without entries, every
row empty; filled, every row full; from a function of the index, the data cells of each row as
the rows are collected; from entries sorted by index, the entries of each row (`groupRows`),
found by counting the entries of each row and summing the counts up.
-/

namespace Georaster

namespace SparseRaster

/-! ### Checks -/

theorem nodataOf_eq_ok {t : PixelType} {m : Metadata} {n : Pixel} :
    nodataOf t m = .ok n ↔
      t.validateNodata m.nodata = .ok () ∧ t.nodataValue m.nodata = some n := by
  unfold nodataOf
  cases hv : t.validateNodata m.nodata with
  | error e => simp
  | ok u =>
    cases hn : t.nodataValue m.nodata with
    | none => simp
    | some v => simp [eq_comm]

theorem checkDataSize_eq_ok {m : Metadata} {n : Nat} :
    m.checkDataSize n = .ok () ↔ 0 ≤ m.rows ∧ 0 ≤ m.cols ∧ m.cellCount = n := by
  unfold Metadata.checkDataSize
  by_cases h : m.rows < 0 ∨ m.cols < 0 ∨ m.cellCount ≠ n
  · simp only [h, if_true, reduceCtorEq, false_iff]
    omega
  · simp only [h, if_false, true_iff]
    omega

/-- An empty raster keeps the type and metadata, takes the nodata value of the metadata, and has
`rows + 1` zero offsets. -/
theorem empty_eq_ok {t : PixelType} {m : Metadata} {r : SparseRaster} :
    empty t m = .ok r ↔ ∃ n, nodataOf t m = .ok n ∧ 0 ≤ m.rows ∧ 0 ≤ m.cols ∧
      r = ⟨t, m, n, List.replicate (m.rows.toNat + 1) 0, [], []⟩ := by
  unfold empty
  cases hn : nodataOf t m with
  | error e => simp
  | ok n =>
    cases hc : m.checkDataSize m.cellCount with
    | error e =>
      have hbad : ¬(0 ≤ m.rows ∧ 0 ≤ m.cols) := fun ⟨h0, h1⟩ => by
        have := checkDataSize_eq_ok.mpr ⟨h0, h1, rfl⟩
        rw [hc] at this
        cases this
      simp only [ok_bind, error_bind, reduceCtorEq, false_iff]
      rintro ⟨n', -, h0, h1, -⟩
      exact hbad ⟨h0, h1⟩
    | ok u =>
      obtain ⟨h0, h1, -⟩ := checkDataSize_eq_ok.mp hc
      simp [h0, h1, eq_comm]

/-! ### Rows of equal length -/

/-- Rows all of one length start at multiples of it. -/
theorem offsetsOf_replicate (n : Nat) (row : Row) :
    offsetsOf (List.replicate n row) = (List.range (n + 1)).map (· * row.length) := by
  apply List.ext_getElem
  · simp
  · intro k hk _
    have hk' : k ≤ n := Nat.lt_succ_iff.mp (by simpa using hk)
    simp only [offsetsOf, List.getElem_scanl, List.getElem_map, List.getElem_range,
      List.map_replicate, List.take_replicate, Nat.min_eq_left hk', ← List.sum_eq_foldl_nat,
      List.sum_replicate_nat]

theorem offsetsOf_replicate_nil (n : Nat) :
    offsetsOf (List.replicate n []) = List.replicate (n + 1) 0 := by
  rw [offsetsOf_replicate]
  apply List.ext_getElem <;> simp

/-- The rows of a raster without entries. -/
theorem layout_empty {t : PixelType} {m : Metadata} {r : SparseRaster} (h : empty t m = .ok r) :
    r.Layout (List.replicate m.rows.toNat []) := by
  obtain ⟨n, hn, h0, h1, rfl⟩ := empty_eq_ok.mp h
  obtain ⟨hv, hnv⟩ := nodataOf_eq_ok.mp hn
  exact {
    rows_nonneg := h0
    cols_nonneg := h1
    length_rows := List.length_replicate
    row_ok := fun row hrow => by
      rw [List.eq_of_mem_replicate hrow]
      exact ⟨List.Pairwise.nil, fun _ he => absurd he List.not_mem_nil⟩
    offsets_eq := (offsetsOf_replicate_nil _).symm
    cols_eq := by simp
    values_eq := by simp
    nodata_valid := hv
    nodata_eq := hnv }

/-! ### Entries sorted by index -/

/-- Filtering a list in which `p` holds on a first part only, then filtering out, gives the list
back. -/
theorem filter_append_filter_not {α : Type} (p : α → Bool) {l : List α}
    (h : l.Pairwise fun a b => p b → p a) : l.filter p ++ l.filter (fun a => !p a) = l := by
  induction l with
  | nil => rfl
  | cons a t ih =>
    obtain ⟨ha, ht⟩ := List.pairwise_cons.mp h
    by_cases hpa : p a
    · simp [hpa, ih ht]
    · have hnone : t.filter p = [] :=
        List.filter_eq_nil_iff.mpr fun b hb hpb => hpa (ha b hb hpb)
      have hall : t.filter (fun a => !p a) = t :=
        List.filter_eq_self.mpr fun b hb => by simpa using fun hpb => hpa (ha b hb hpb)
      simp [hpa, hnone, hall]

/-- A list sorted by a key below `n` is the concatenation of its parts of key `0`, ..., `n - 1`. -/
theorem flatMap_range_filter {α : Type} (key : α → Nat) {n : Nat} {l : List α}
    (hs : l.Pairwise fun a b => key a ≤ key b) (hn : ∀ a ∈ l, key a < n) :
    (List.range n).flatMap (fun k => l.filter (key · = k)) = l := by
  induction n generalizing l with
  | zero =>
    have : l = [] := List.eq_nil_iff_forall_not_mem.mpr fun a ha => by have := hn a ha; omega
    simp [this]
  | succ n ih =>
    -- the parts of keys below `n` make up the elements of key below `n`
    have below : (List.range n).flatMap (fun k => l.filter (key · = k)) =
        l.filter (key · < n) := by
      rw [← ih (hs.filter _) (fun a ha => by simpa using (List.mem_filter.mp ha).2),
        List.flatMap_def, List.flatMap_def]
      congr 1
      apply List.map_congr_left
      intro k hk
      have hkn : k < n := List.mem_range.mp hk
      rw [List.filter_filter]
      apply List.filter_congr
      intro a _
      by_cases hak : key a = k <;> simp [hak, hkn]
    have last : l.filter (key · = n) = l.filter (fun a => !decide (key a < n)) :=
      List.filter_congr fun a ha => by
        have := hn a ha
        by_cases han : key a = n
        · simp [han]
        · simp [han]
          omega
    rw [List.range_succ, List.flatMap_append, List.flatMap_singleton, below, last]
    exact filter_append_filter_not _ (hs.imp fun hab hb => by simp at hb ⊢; omega)

/-- The rows of entries in a grid of `rows` rows and `cols` columns: row `k` holds the entries
whose index lies in it, by column. -/
def groupRows (rows cols : Nat) (es : List SparseEntry) : List Row :=
  (List.range rows).map fun k =>
    (es.filter (·.index / cols = k)).map fun e => (((e.index % cols : Nat) : Int), e.value)

@[simp] theorem length_groupRows (rows cols : Nat) (es : List SparseEntry) :
    (groupRows rows cols es).length = rows := by
  simp [groupRows]

section Sorted

variable {rows cols : Nat} {es : List SparseEntry}

/-- Entries sorted by index and inside the grid come back from their rows in order. -/
theorem flatMap_groupRows {β : Type} (g : Int × Pixel → β)
    (hs : (es.map (·.index)).Pairwise (· < ·)) (hlt : ∀ e ∈ es, e.index < rows * cols) :
    (groupRows rows cols es).flatMap (·.map g) =
      es.map fun e => g (((e.index % cols : Nat) : Int), e.value) := by
  have hkey : es.Pairwise fun a b => a.index / cols ≤ b.index / cols :=
    (List.pairwise_map.mp hs).imp fun hab => Nat.div_le_div_right (Nat.le_of_lt hab)
  have hrow : ∀ e ∈ es, e.index / cols < rows := fun e he =>
    Nat.div_lt_of_lt_mul (by rw [Nat.mul_comm]; exact hlt e he)
  have hsplit := flatMap_range_filter (fun e : SparseEntry => e.index / cols) hkey hrow
  conv => rhs; rw [← hsplit]
  simp [groupRows, List.flatMap_map, List.map_flatMap, Function.comp_def]

/-- The rows of entries sorted by index are sound. -/
theorem rowOk_groupRows (hs : (es.map (·.index)).Pairwise (· < ·))
    (hlt : ∀ e ∈ es, e.index < rows * cols) {c : Int} (hc : c = cols) :
    ∀ row ∈ groupRows rows cols es, RowOk c row := by
  intro row hrow
  obtain ⟨k, -, rfl⟩ := List.mem_map.mp hrow
  have hcols : ∀ e ∈ es, 0 < cols := fun e he =>
    Nat.pos_of_ne_zero fun h0 => by have := hlt e he; simp [h0] at this
  refine ⟨?_, ?_⟩
  · rw [List.map_map, List.pairwise_map]
    refine ((List.pairwise_map.mp hs).filter _).imp_of_mem fun {a b} ha hb hab => ?_
    -- two entries of one row are ordered by column as they are by index
    have hak := of_decide_eq_true (List.mem_filter.mp ha).2
    have hbk := of_decide_eq_true (List.mem_filter.mp hb).2
    have hda := Nat.div_add_mod a.index cols
    have hdb := Nat.div_add_mod b.index cols
    rw [hak] at hda
    rw [hbk] at hdb
    simp only [Function.comp_apply]
    omega
  · intro e he
    obtain ⟨a, ha, rfl⟩ := List.mem_map.mp he
    have := Nat.mod_lt a.index (hcols a (List.mem_filter.mp ha).1)
    constructor <;> simp <;> omega

end Sorted

/-! ### Counting the entries of each row -/

/-- The step of the count: the entry adds one to the offset after its row's. -/
def countEntry (cols : Nat) (o : List Nat) (e : SparseEntry) : List Nat :=
  o.modify (e.index / cols + 1) (· + 1)

theorem length_foldl_countEntry (cols : Nat) (es : List SparseEntry) (acc : List Nat) :
    (es.foldl (countEntry cols) acc).length = acc.length := by
  induction es generalizing acc with
  | nil => rfl
  | cons e es ih => simp [ih, countEntry]

/-- After counting, each offset has grown by the number of entries of the row before it. -/
theorem getD_foldl_countEntry (cols : Nat) (es : List SparseEntry) (acc : List Nat) {j : Nat}
    (hj : j < acc.length) :
    (es.foldl (countEntry cols) acc).getD j 0 =
      acc.getD j 0 + (es.filter (·.index / cols + 1 = j)).length := by
  induction es generalizing acc with
  | nil => simp
  | cons e es ih =>
    have hj' : j < (countEntry cols acc e).length := by simpa [countEntry] using hj
    rw [List.foldl_cons, ih _ hj']
    simp only [countEntry, List.getD_eq_getElem?_getD, List.getElem?_modify,
      List.getElem?_eq_getElem hj, Option.map_eq_map, Option.map_some, Option.getD_some,
      List.filter_cons]
    by_cases he : e.index / cols + 1 = j
    · simp [he]
      omega
    · simp [he]

/-- Counted from zero offsets, the counts are those of the rows, after a first zero; an entry
past the last row adds to no offset. -/
theorem foldl_countEntry (rows cols : Nat) (es : List SparseEntry) :
    es.foldl (countEntry cols) (List.replicate (rows + 1) 0) =
      0 :: (groupRows rows cols es).map List.length := by
  apply List.ext_getElem
  · simp [length_foldl_countEntry]
  · intro j hj _
    have hj' : j < (List.replicate (rows + 1) 0).length := by
      simpa [length_foldl_countEntry] using hj
    rw [List.getElem_eq_getD 0, getD_foldl_countEntry cols es _ hj',
      List.getD_eq_getElem?_getD, List.getElem?_replicate_of_lt (by simpa using hj')]
    cases j with
    | zero => simp
    | succ k =>
      have hk : k < rows := by simpa using hj'
      simp [groupRows]

theorem runningSums_cons_zero (l : List Nat) : runningSums (0 :: l) = l.scanl (· + ·) 0 := by
  simp [runningSums, List.scanl_cons]

/-- Entries that `ofSortedEntries` lays out in a grid of `n` cells: strictly increasing indices,
each a cell of the grid. -/
structure EntriesOk (n : Nat) (es : List SparseEntry) : Prop where
  sorted : (es.map (·.index)).Pairwise (· < ·)
  lt : ∀ e ∈ es, e.index < n

theorem EntriesOk.sublist {n : Nat} {es es' : List SparseEntry} (h : EntriesOk n es)
    (hs : es'.Sublist es) : EntriesOk n es' :=
  ⟨h.sorted.sublist (hs.map _), fun e he => h.lt e (hs.subset he)⟩

/-- Built from entries, a raster keeps the type and the metadata and takes the nodata value of the
metadata. -/
theorem ofSortedEntries_eq_ok {t : PixelType} {m : Metadata} {es : List SparseEntry}
    {r : SparseRaster} (h : ofSortedEntries t m es = .ok r) :
    r.type = t ∧ r.metadata = m ∧ nodataOf t m = .ok r.nodata := by
  obtain ⟨r₀, h₀, hr⟩ := bind_eq_ok.mp h
  simp only [pure_eq_ok] at hr
  subst hr
  obtain ⟨n, hn, -, -, rfl⟩ := empty_eq_ok.mp h₀
  exact ⟨rfl, rfl, hn⟩

/-- Entries sorted by index and inside the grid lay out their rows. -/
theorem layout_ofSortedEntries {t : PixelType} {m : Metadata} {es : List SparseEntry}
    {r : SparseRaster} (h : ofSortedEntries t m es = .ok r) (hes : EntriesOk m.cellCount es) :
    r.Layout (groupRows m.rows.toNat m.cols.toNat es) := by
  obtain ⟨r₀, h₀, hr⟩ := bind_eq_ok.mp h
  simp only [pure_eq_ok] at hr
  subst hr
  have base := layout_empty h₀
  obtain ⟨n, -, -, -, rfl⟩ := empty_eq_ok.mp h₀
  have hs := hes.sorted
  have hlt' : ∀ e ∈ es, e.index < m.rows.toNat * m.cols.toNat := hes.lt
  exact {
    rows_nonneg := base.rows_nonneg
    cols_nonneg := base.cols_nonneg
    length_rows := length_groupRows _ _ _
    row_ok := rowOk_groupRows hs hlt' (Int.toNat_of_nonneg base.cols_nonneg).symm
    offsets_eq := by
      show runningSums (es.foldl (countEntry _) _) = _
      rw [foldl_countEntry, runningSums_cons_zero]
      rfl
    cols_eq := by
      show es.map _ = _
      rw [flatMap_groupRows _ hs hlt']
    values_eq := by
      show es.map _ = _
      rw [flatMap_groupRows _ hs hlt']
    nodata_valid := base.nodata_valid
    nodata_eq := base.nodata_eq }

/-! ### From a list of values -/

/-- The entries of the values that `keep` accepts, at their positions. -/
theorem entriesOk_zipIdx (values : List Pixel) (keep : Pixel × Nat → Bool) :
    EntriesOk values.length
      ((values.zipIdx.filter keep).map fun (v, i) => SparseEntry.mk i v) := by
  have hidx : values.zipIdx.Pairwise fun a b => a.2 < b.2 := by
    have := List.pairwise_lt_range' (s := 0) (n := values.length)
    rwa [← List.zipIdx_map_snd, List.pairwise_map] at this
  refine ⟨?_, fun e he => ?_⟩
  · rw [List.map_map, List.pairwise_map]
    exact (hidx.filter _).imp fun {a b} hab => by
      obtain ⟨v, i⟩ := a
      obtain ⟨w, j⟩ := b
      exact hab
  · obtain ⟨⟨v, i⟩, hmem, rfl⟩ := List.mem_map.mp he
    exact (List.mem_zipIdx' (List.mem_filter.mp hmem).1).1

/-- A raster of a list of values stores, row by row, the values that do not mark nodata. -/
theorem layout_ofList {t : PixelType} {m : Metadata} {values : List Pixel} {r : SparseRaster}
    (h : ofList t m values = .ok r) :
    r.Layout (groupRows m.rows.toNat m.cols.toNat
      ((values.zipIdx.filter fun (v, _) => !v.eq r.nodata && !v.isNaN).map
        fun (v, i) => SparseEntry.mk i v)) := by
  unfold ofList at h
  obtain ⟨n, hn, h⟩ := bind_eq_ok.mp h
  obtain ⟨u, hc, h⟩ := bind_eq_ok.mp h
  obtain ⟨-, -, hcount⟩ := checkDataSize_eq_ok.mp hc
  obtain ⟨-, -, hn'⟩ := ofSortedEntries_eq_ok h
  rw [hn] at hn'
  cases hn'
  exact layout_ofSortedEntries h (hcount ▸ entriesOk_zipIdx values _)



/-! ### From listed cells -/

/-- Of entries in nondecreasing order of index, keeping the last of each index leaves them in
increasing order. -/
theorem keepLast_sublist : ∀ l : List SparseEntry, (keepLast l).Sublist l
  | [] => by simp [keepLast]
  | [a] => by simp [keepLast]
  | a :: b :: rest => by
    rw [keepLast]
    split
    · exact (keepLast_sublist (b :: rest)).cons a
    · exact (keepLast_sublist (b :: rest)).cons_cons a

theorem pairwise_keepLast : ∀ {l : List SparseEntry}, (l.map (·.index)).Pairwise (· ≤ ·) →
    ((keepLast l).map (·.index)).Pairwise (· < ·)
  | [], _ => by simp [keepLast]
  | [a], _ => by simp [keepLast]
  | a :: b :: rest, h => by
    obtain ⟨ha, hb⟩ := List.pairwise_cons.mp (List.pairwise_map.mp h)
    have ih := pairwise_keepLast (l := b :: rest) (List.pairwise_map.mpr hb)
    rw [keepLast]
    split
    · exact ih
    · rename_i hne
      rw [List.map_cons, List.pairwise_cons]
      refine ⟨fun y hy => ?_, ih⟩
      obtain ⟨x, hx, rfl⟩ := List.mem_map.mp hy
      -- the later entries lie at or after `b`, whose index is past `a`'s
      have hab := ha b List.mem_cons_self
      rcases List.mem_cons.mp ((keepLast_sublist _).subset hx) with rfl | hx'
      · omega
      · have := (List.pairwise_cons.mp hb).1 x hx'
        omega

/-- Cells in row-major order: by row, then by column. -/
theorem compare_ne_gt_iff {a b : Cell} :
    (Cell.compare a b != .gt) = true ↔ a.row < b.row ∨ a.row = b.row ∧ a.col ≤ b.col := by
  simp only [Cell.compare, bne_iff_ne, ne_eq, Ordering.then_eq_gt, Int.compare_eq_gt,
    Int.compare_eq_eq]
  omega

/-- Row-major order is transitive. -/
theorem compare_ne_gt_trans (a b c : Cell) (hab : (Cell.compare a b != .gt) = true)
    (hbc : (Cell.compare b c != .gt) = true) : (Cell.compare a c != .gt) = true := by
  rw [compare_ne_gt_iff] at hab hbc ⊢
  omega

/-- Any two cells are ordered one way or the other in row-major order. -/
theorem compare_ne_gt_total (a b : Cell) :
    (Cell.compare a b != .gt || Cell.compare b a != .gt) = true := by
  by_cases hab : (Cell.compare a b != .gt) = true
  · simp [hab]
  · have := compare_ne_gt_iff.not.mp hab
    have : (Cell.compare b a != .gt) = true := compare_ne_gt_iff.mpr (by omega)
    simp [this]

/-- The index of a cell in a grid of `cols` columns. -/
theorem index_le_of_compare {cols : Nat} {a b : Cell} (ha : 0 ≤ a.row ∧ 0 ≤ a.col)
    (hb : 0 ≤ b.row ∧ 0 ≤ b.col) (hac : a.col < cols) (hbc : b.col < cols)
    (hab : (Cell.compare a b != .gt) = true) :
    a.row.toNat * cols + a.col.toNat ≤ b.row.toNat * cols + b.col.toNat := by
  rcases compare_ne_gt_iff.mp hab with hlt | ⟨heq, hle⟩
  · -- a later row starts past every column of an earlier one
    have : (a.row.toNat + 1) * cols ≤ b.row.toNat * cols := Nat.mul_le_mul_right _ (by omega)
    rw [Nat.succ_mul] at this
    omega
  · rw [heq]
    omega

/-- A cell lies in the grid of the metadata: both coordinates nonnegative and below the counts. -/
theorem containsCell_eq_true {m : Metadata} {c : Cell} :
    m.containsCell c = true ↔ 0 ≤ c.row ∧ 0 ≤ c.col ∧ c.row < m.rows ∧ c.col < m.cols := by
  simp only [Metadata.containsCell, Cell.isIn, Cell.isValid, Metadata.size, Bool.and_eq_true,
    decide_eq_true_iff, and_assoc]
  constructor
  · rintro ⟨h0, h1, h⟩
    exact ⟨h0, h1, of_decide_eq_true h⟩
  · rintro ⟨h0, h1, h⟩
    exact ⟨h0, h1, decide_eq_true h⟩

/-- Listed cells of the grid, sorted in row-major order, have nondecreasing indices. -/
theorem pairwise_index_mergeSort {m : Metadata} {triplets : List (Cell × Pixel)}
    (hin : ∀ x ∈ triplets, m.containsCell x.1 = true) :
    (((triplets.mergeSort fun a b => Cell.compare a.1 b.1 != .gt).map
      fun (c, v) => SparseEntry.mk (c.row.toNat * m.cols.toNat + c.col.toNat) v).map
        (·.index)).Pairwise (· ≤ ·) := by
  -- row-major order is a total preorder, so the merge sort sorts by it
  have hsorted : (triplets.mergeSort fun a b => Cell.compare a.1 b.1 != .gt).Pairwise
      fun a b => (Cell.compare a.1 b.1 != .gt) = true :=
    List.pairwise_mergeSort (fun a b c => compare_ne_gt_trans a.1 b.1 c.1)
      (fun a b => compare_ne_gt_total a.1 b.1) triplets
  rw [List.map_map, List.pairwise_map]
  refine hsorted.imp_of_mem fun {a b} ha hb hab => ?_
  obtain ⟨ha0, ha1, -, hac⟩ := containsCell_eq_true.mp (hin a (List.mem_mergeSort.mp ha))
  obtain ⟨hb0, hb1, -, hbc⟩ := containsCell_eq_true.mp (hin b (List.mem_mergeSort.mp hb))
  exact index_le_of_compare ⟨ha0, ha1⟩ ⟨hb0, hb1⟩ (by omega) (by omega) hab

/-- The entries of listed cells of the grid, sorted by cell and one kept for each. -/
theorem entriesOk_keepLast {m : Metadata} {triplets : List (Cell × Pixel)}
    (hin : ∀ x ∈ triplets, m.containsCell x.1 = true) :
    EntriesOk m.cellCount (keepLast ((triplets.mergeSort fun a b => Cell.compare a.1 b.1 != .gt).map
      fun (c, v) => SparseEntry.mk (c.row.toNat * m.cols.toNat + c.col.toNat) v)) := by
  refine ⟨pairwise_keepLast (pairwise_index_mergeSort hin), fun e he => ?_⟩
  obtain ⟨⟨c, v⟩, hx, rfl⟩ := List.mem_map.mp ((keepLast_sublist _).subset he)
  obtain ⟨h0, h1, hr, hc⟩ : 0 ≤ c.row ∧ 0 ≤ c.col ∧ c.row < m.rows ∧ c.col < m.cols :=
    containsCell_eq_true.mp (hin _ (List.mem_mergeSort.mp hx))
  have : (c.row.toNat + 1) * m.cols.toNat ≤ m.rows.toNat * m.cols.toNat :=
    Nat.mul_le_mul_right _ (by omega)
  rw [Nat.succ_mul] at this
  show c.row.toNat * m.cols.toNat + c.col.toNat < m.rows.toNat * m.cols.toNat
  omega

/-- Listed cells of the grid lay out, row by row, the last value listed for each cell. -/
theorem layout_ofTriplets {t : PixelType} {m : Metadata} {triplets : List (Cell × Pixel)}
    {r : SparseRaster} (h : ofTriplets t m triplets = .ok r) :
    r.Layout (groupRows m.rows.toNat m.cols.toNat
      (keepLast ((triplets.mergeSort fun a b => Cell.compare a.1 b.1 != .gt).map
        fun (c, v) => SparseEntry.mk (c.row.toNat * m.cols.toNat + c.col.toNat) v))) := by
  unfold ofTriplets at h
  split at h
  · cases h
  · rename_i hfind
    have hin : ∀ x ∈ triplets, m.containsCell x.1 = true := fun x hx => by
      simpa using List.find?_eq_none.mp hfind x hx
    exact layout_ofSortedEntries h (entriesOk_keepLast hin)

/-! ### From a function of the index -/

/-- A row of `rowsOfCells` is sound: its columns are those of the grid, in increasing order. -/
theorem rowOk_rowsOfCells {rows : Nat} {cols : Int} (h0 : 0 ≤ cols) {cell : Nat → Option Pixel} :
    ∀ row ∈ rowsOfCells rows cols.toNat cell, RowOk cols row := by
  intro row hrow
  obtain ⟨k, -, rfl⟩ := List.mem_map.mp hrow
  refine ⟨?_, fun e he => ?_⟩
  · rw [List.map_filterMap]
    refine List.pairwise_lt_range.filterMap _ fun a a' haa' b hb b' hb' => ?_
    rw [Option.map_map] at hb hb'
    obtain ⟨_, -, rfl⟩ := Option.map_eq_some_iff.mp hb
    obtain ⟨_, -, rfl⟩ := Option.map_eq_some_iff.mp hb'
    simpa using haa'
  · obtain ⟨c, hc, hce⟩ := List.mem_filterMap.mp he
    obtain ⟨v, -, rfl⟩ := Option.map_eq_some_iff.mp hce
    have := List.mem_range.mp hc
    exact ⟨by simp, by simp; omega⟩

/-- One row of `ofCells`: its entries are appended, and the offset after it becomes the number of
entries so far. -/
def appendRow : List Int × List Pixel × List Nat → Row × Nat → List Int × List Pixel × List Nat
  | (cols, values, offsets), row =>
    let values := values ++ row.1.map (·.2)
    (cols ++ row.1.map (·.1), values, offsets.set (row.2 + 1) values.length)

theorem ofCells_eq (t : PixelType) (m : Metadata) (cell : Nat → Option Pixel) :
    ofCells t m cell = (do
      let r ← empty t m
      let acc := (rowsOfCells m.rows.toNat m.cols.toNat cell).zipIdx.foldl appendRow
        ([], [], r.rowOffsets);
      pure { r with rowOffsets := acc.2.2, colIndices := acc.1, values := acc.2.1 }) := rfl

/-- After `j` rows, `ofCells` has appended their entries and set their offsets; the later offsets
are still zero. -/
theorem foldl_appendRow (R : List Row) {n j : Nat} (hn : R.length = n) (hj : j ≤ n) :
    (R.take j).zipIdx.foldl appendRow ([], [], List.replicate (n + 1) 0) =
      ((R.take j).flatMap (·.map (·.1)), (R.take j).flatMap (·.map (·.2)),
        offsetsOf (R.take j) ++ (List.replicate (n + 1) 0).drop (j + 1)) := by
  induction j with
  | zero => simp [offsetsOf, List.replicate_succ]
  | succ j ih =>
    have hj' : j < R.length := by omega
    have hzip : (R.take (j + 1)).zipIdx = (R.take j).zipIdx ++ [(R[j], j)] := by
      rw [List.take_succ_eq_append_getElem hj', List.zipIdx_append]
      simp [Nat.min_eq_left (Nat.le_of_lt hj')]
    have hdrop : (List.replicate (n + 1) 0).drop (j + 1) =
        0 :: (List.replicate (n + 1) 0).drop (j + 2) := by
      simp only [List.drop_replicate]
      rw [show n + 1 - (j + 1) = (n + 1 - (j + 2)) + 1 by omega, List.replicate_succ]
    have hoff : (offsetsOf (R.take j)).length = j + 1 := by simp; omega
    rw [hzip, List.foldl_append, ih (Nat.le_of_lt (by omega)), List.foldl_cons, List.foldl_nil,
      List.take_succ_eq_append_getElem hj']
    simp only [appendRow, List.flatMap_append, List.flatMap_singleton, offsetsOf_append]
    refine Prod.ext rfl (Prod.ext rfl ?_)
    rw [hdrop, List.set_append, if_neg (by omega), hoff, Nat.sub_self, List.set_cons_zero]
    simp [List.length_flatMap]

/-- A raster given by a function of the index lays out, row by row, the cells given a value. -/
theorem layout_ofCells {t : PixelType} {m : Metadata} {cell : Nat → Option Pixel}
    {r : SparseRaster} (h : ofCells t m cell = .ok r) :
    r.Layout (rowsOfCells m.rows.toNat m.cols.toNat cell) := by
  rw [ofCells_eq] at h
  obtain ⟨r₀, h₀, hr⟩ := bind_eq_ok.mp h
  simp only [pure_eq_ok] at hr
  subst hr
  have base := layout_empty h₀
  obtain ⟨n, -, -, -, rfl⟩ := empty_eq_ok.mp h₀
  have hlen : (rowsOfCells m.rows.toNat m.cols.toNat cell).length = m.rows.toNat := by
    simp [rowsOfCells]
  have hfold := foldl_appendRow (rowsOfCells m.rows.toNat m.cols.toNat cell) hlen (Nat.le_refl _)
  rw [List.take_of_length_le (by omega), List.drop_of_length_le (by simp), List.append_nil]
    at hfold
  simp only [hfold]
  exact base.of_rows (by simpa using hlen) (rowOk_rowsOfCells base.cols_nonneg) rfl rfl rfl

/-! ### The other constructors -/

theorem layout_new {t : PixelType} {m : Metadata} {r : SparseRaster} (h : new t m = .ok r) :
    r.Layout (List.replicate m.rows.toNat []) := layout_empty h

theorem layout_filledWithNodata {t : PixelType} {m : Metadata} {r : SparseRaster}
    (h : filledWithNodata t m = .ok r) : r.Layout (List.replicate m.rows.toNat []) := layout_empty h

end SparseRaster

end Georaster
