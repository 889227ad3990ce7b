import Georaster.Proofs.Raster.Construction
import Georaster.Proofs.Raster.Walk
/-!
# Sparse rasters from listed cells

`ofTriplets` builds a sparse raster from cells listed with their values. It refuses the list when
a cell lies outside the raster, naming the first such cell. Otherwise it sorts the pairs by cell
in row-major order, keeps the last entry of each run of one cell and lays the entries out in rows.

That the last value listed for a cell is the one kept rests on two facts:

* the merge sort is stable, so the pairs of one cell keep the order in which they were listed
  (`filter_mergeSort_cell`);
* of entries sorted by index, keeping the last of each run keeps, at each index, the last entry
  of that index (`lookup_keepLast`).

So every cell of the raster reads the value last listed for it, a value equal to the nodata value
included, and a cell that is not listed is missing; one entry is stored for each listed cell
(`ofTriplets_lastListed`).
-/

namespace Georaster

namespace Cell

/-- Cells of a grid are told apart by their row-major positions. -/
theorem eq_of_position_eq {m : Metadata} {c d : Cell} (hc : m.containsCell c = true)
    (hd : m.containsCell d = true) (h : c.position m.cols = d.position m.cols) : c = d := by
  obtain ⟨hc0, hc1, -, hcc⟩ := SparseRaster.containsCell_eq_true.mp hc
  obtain ⟨hd0, hd1, -, hdc⟩ := SparseRaster.containsCell_eq_true.mp hd
  have hcn : c.col.toNat < m.cols.toNat := by omega
  have hdn : d.col.toNat < m.cols.toNat := by omega
  obtain ⟨hcrow, hccol⟩ := SparseRaster.div_mod_index (k := c.row.toNat) hcn
  obtain ⟨hdrow, hdcol⟩ := SparseRaster.div_mod_index (k := d.row.toNat) hdn
  unfold position at h
  rw [h] at hcrow hccol
  have hrow : c.row = d.row := by
    have := hcrow.symm.trans hdrow
    omega
  have hcol : c.col = d.col := by
    have := hccol.symm.trans hdcol
    omega
  cases c
  cases d
  simp only [mk.injEq]
  exact ⟨hrow, hcol⟩

/-- A cell of the grid lies before the last cell. -/
theorem position_lt_cellCount {m : Metadata} {c : Cell} (hc : m.containsCell c = true) :
    c.position m.cols < m.cellCount := by
  obtain ⟨h0, h1, hr, hcol⟩ := SparseRaster.containsCell_eq_true.mp hc
  have hstep : (c.row.toNat + 1) * m.cols.toNat ≤ m.rows.toNat * m.cols.toNat :=
    Nat.mul_le_mul_right _ (by omega)
  rw [Nat.succ_mul] at hstep
  show c.row.toNat * m.cols.toNat + c.col.toNat < m.rows.toNat * m.cols.toNat
  omega

end Cell

namespace SparseRaster

/-! ### The last value listed for a cell -/

/-- The value of the last pair listed for a cell; none when the cell is not listed. -/
def lastListed (ts : List (Cell × Pixel)) (c : Cell) : Option Pixel :=
  ((ts.filter fun x => decide (x.1 = c)).getLast?).map (·.2)

/-- A cell has a last value exactly when it is listed. -/
theorem lastListed_isSome {ts : List (Cell × Pixel)} {c : Cell} :
    (lastListed ts c).isSome ↔ ∃ x ∈ ts, x.1 = c := by
  unfold lastListed
  rw [Option.isSome_map, Option.isSome_iff_ne_none, Ne, List.getLast?_eq_none_iff,
    List.filter_eq_nil_iff]
  simp

/-- The merge sort by cell is stable: the pairs of one cell come out in the order they were
listed. -/
theorem filter_mergeSort_cell (ts : List (Cell × Pixel)) (c : Cell) :
    (ts.mergeSort fun a b => Cell.compare a.1 b.1 != .gt).filter (fun x => decide (x.1 = c)) =
      ts.filter fun x => decide (x.1 = c) := by
  -- the pairs of `c` are all equal in the order, so they are sorted as listed
  have hsorted : (ts.filter fun x => decide (x.1 = c)).Pairwise
      fun a b => (Cell.compare a.1 b.1 != .gt) = true := by
    refine List.pairwise_of_forall_mem_list fun a ha b hb => ?_
    have hac : a.1 = c := of_decide_eq_true (List.mem_filter.mp ha).2
    have hbc : b.1 = c := of_decide_eq_true (List.mem_filter.mp hb).2
    rw [compare_ne_gt_iff, hac, hbc]
    omega
  -- and stay a sublist of the sorted list, of which they are all the pairs of `c`
  have hsub := (List.sublist_mergeSort (fun a b c => compare_ne_gt_trans a.1 b.1 c.1)
    (fun a b => compare_ne_gt_total a.1 b.1) hsorted (List.filter_sublist (l := ts))).filter
      (fun x => decide (x.1 = c))
  simp only [List.filter_filter, Bool.and_self] at hsub
  exact (hsub.eq_of_length ((List.mergeSort_perm ts _).filter _).length_eq.symm).symm

/-- Of entries in nondecreasing order of index, keeping the last of each run of one index keeps,
at every index, the value of the last entry of that index. -/
theorem lookup_keepLast {l : List SparseEntry} (hl : (l.map (·.index)).Pairwise (· ≤ ·))
    (i : Nat) :
    lookup (keepLast l) i = ((l.filter fun e => decide (e.index = i)).getLast?).map (·.value) := by
  induction l using keepLast.induct with
  | case1 a b rest hab ih =>
    -- `a` is dropped for `b`, which has its index and comes later
    obtain ⟨-, hb⟩ := List.pairwise_cons.mp hl
    rw [keepLast, if_pos hab, ih hb]
    by_cases hai : a.index = i
    · have hbi : b.index = i := hab ▸ hai
      simp [hai, hbi]
    · simp [List.filter_cons, hai]
  | case2 a b rest hab ih =>
    -- `a` is the only entry of its index
    obtain ⟨ha, hb⟩ := List.pairwise_cons.mp hl
    rw [keepLast, if_neg hab]
    have hab' : a.index ≤ b.index := ha b.index List.mem_cons_self
    by_cases hai : a.index = i
    · have hlater : ∀ e ∈ b :: rest, e.index ≠ i := by
        intro e he
        have hae : a.index ≤ e.index := ha e.index (List.mem_map_of_mem he)
        rcases List.mem_cons.mp he with rfl | he'
        · omega
        · have hbe : b.index ≤ e.index := (List.pairwise_cons.mp hb).1 e.index
            (List.mem_map_of_mem he')
          omega
      have hnone : (b :: rest).filter (fun e => decide (e.index = i)) = [] :=
        List.filter_eq_nil_iff.mpr fun e he => by simpa using hlater e he
      rw [List.filter_cons_of_pos (by simpa using hai), hnone]
      simp [lookup, hai]
    · rw [lookup_cons_of_ne hai, ih hb,
        List.filter_cons_of_neg (a := a) (by simpa using hai)]
  | case3 l hl' =>
    -- fewer than two entries: nothing is dropped
    cases l with
    | nil => rfl
    | cons a t =>
      cases t with
      | nil => by_cases hai : a.index = i <;> simp [keepLast, lookup, hai]
      | cons b rest => exact absurd rfl (hl' a b rest)

/-! ### Building from listed cells -/

section Listed

variable {t : PixelType} {m : Metadata} {ts : List (Cell × Pixel)}

/-- Of cells listed in the grid, sorted and one entry kept for each, the entry read at a cell of
the grid holds the value last listed for that cell. -/
theorem lookup_ofTriplets_entries (hin : ∀ x ∈ ts, m.containsCell x.1 = true) {c : Cell}
    (hc : m.containsCell c = true) :
    lookup (keepLast ((ts.mergeSort fun a b => Cell.compare a.1 b.1 != .gt).map
      fun (d, v) => SparseEntry.mk (d.row.toNat * m.cols.toNat + d.col.toNat) v))
        (c.position m.cols) = lastListed ts c := by
  rw [lookup_keepLast (pairwise_index_mergeSort hin), List.filter_map]
  -- among cells of the grid, only `c` has the index of `c`
  have hsame : ∀ x ∈ ts.mergeSort (fun a b => Cell.compare a.1 b.1 != .gt),
      ((fun e : SparseEntry => decide (e.index = c.position m.cols)) ∘
        fun (d, v) => SparseEntry.mk (d.row.toNat * m.cols.toNat + d.col.toNat) v) x =
      decide (x.1 = c) := by
    rintro ⟨d, v⟩ hx
    show decide (d.position m.cols = c.position m.cols) = decide (d = c)
    exact decide_eq_decide.mpr
      ⟨Cell.eq_of_position_eq (hin _ (List.mem_mergeSort.mp hx)) hc, fun h => h ▸ rfl⟩
  rw [List.filter_congr hsame, filter_mergeSort_cell, List.getLast?_map, Option.map_map]
  rfl

/-- With no cell outside the grid, the list is sorted and laid out. -/
theorem ofTriplets_eq_ofSortedEntries (hin : ∀ x ∈ ts, m.containsCell x.1 = true) :
    ofTriplets t m ts = ofSortedEntries t m (keepLast
      ((ts.mergeSort fun a b => Cell.compare a.1 b.1 != .gt).map
        fun (d, v) => SparseEntry.mk (d.row.toNat * m.cols.toNat + d.col.toNat) v)) := by
  unfold ofTriplets
  rw [List.find?_eq_none.mpr fun x hx => by simp [hin x hx]]

/-- A list with a cell outside the grid is refused with an invalid argument that names a listed
cell outside the grid. -/
theorem ofTriplets_eq_error (hout : ∃ x ∈ ts, m.containsCell x.1 = false) :
    ∃ c v, (c, v) ∈ ts ∧ m.containsCell c = false ∧ ofTriplets t m ts =
      .error (.invalidArgument s!"Cell {c.display} outside of raster {m.rows}x{m.cols}") := by
  cases hf : ts.find? (fun (c, _) => !m.containsCell c) with
  | none =>
    obtain ⟨x, hx, hxout⟩ := hout
    have := List.find?_eq_none.mp hf x hx
    simp [hxout] at this
  | some x =>
    obtain ⟨c, v⟩ := x
    have hout' := List.find?_some hf
    refine ⟨c, v, List.mem_of_find?_eq_some hf, by simpa using hout', ?_⟩
    unfold ofTriplets
    rw [hf]

/-- Entries are laid out whenever the type can use the metadata's nodata value and the counts are
nonnegative. -/
theorem ofSortedEntries_isOk {n : Pixel} (hn : nodataOf t m = .ok n) (h0 : 0 ≤ m.rows)
    (h1 : 0 ≤ m.cols) (es : List SparseEntry) : ∃ r, ofSortedEntries t m es = .ok r := by
  have hempty := empty_eq_ok.mpr ⟨n, hn, h0, h1, rfl⟩
  unfold ofSortedEntries
  rw [hempty]
  exact ⟨_, rfl⟩

/-- One entry is stored for each listed cell. -/
theorem storedCount_ofTriplets (hin : ∀ x ∈ ts, m.containsCell x.1 = true) {r : SparseRaster}
    (h : ofTriplets t m ts = .ok r) : r.storedCount = (ts.map (·.1)).toFinset.card := by
  set es := keepLast ((ts.mergeSort fun a b => Cell.compare a.1 b.1 != .gt).map
    fun (d, v) => SparseEntry.mk (d.row.toNat * m.cols.toNat + d.col.toNat) v) with hes
  have hok := entriesOk_keepLast hin
  have hlt : ∀ e ∈ es, e.index < m.rows.toNat * m.cols.toNat := hok.lt
  have hcount : r.storedCount = es.length := by
    rw [storedCount, (layout_ofTriplets h).values_eq, flatMap_groupRows _ hok.sorted hlt,
      List.length_map]
  -- the kept indices are distinct, and they are the indices of the listed cells
  have hnodup : (es.map (·.index)).Nodup := hok.sorted.imp Nat.ne_of_lt
  have hkeys : (es.map (·.index)).toFinset =
      (ts.map (·.1)).toFinset.image (·.position m.cols) := by
    ext i
    simp only [List.mem_toFinset, Finset.mem_image, List.mem_map]
    constructor
    · rintro ⟨e, he, rfl⟩
      obtain ⟨x, hx, rfl⟩ := List.mem_map.mp ((keepLast_sublist _).subset he)
      exact ⟨x.1, ⟨x, List.mem_mergeSort.mp hx, rfl⟩, rfl⟩
    · rintro ⟨c, ⟨x, hx, rfl⟩, rfl⟩
      -- a listed cell has a last value, found among the kept entries
      have hsome : (lookup es (x.1.position m.cols)).isSome := by
        rw [hes, lookup_ofTriplets_entries hin (hin x hx)]
        exact lastListed_isSome.mpr ⟨x, hx, rfl⟩
      rw [lookup, Option.isSome_map, List.find?_isSome] at hsome
      obtain ⟨e, he, hidx⟩ := hsome
      exact ⟨e, he, by simpa using hidx⟩
  rw [hcount, ← List.length_map (f := (·.index)), ← List.toFinset_card_of_nodup hnodup, hkeys,
    Finset.card_image_of_injOn]
  -- cells of the grid are told apart by their positions
  intro c hc d hd hcd
  obtain ⟨x, hx, rfl⟩ := List.mem_map.mp (List.mem_toFinset.mp hc)
  obtain ⟨y, hy, rfl⟩ := List.mem_map.mp (List.mem_toFinset.mp hd)
  exact Cell.eq_of_position_eq (hin x hx) (hin y hy) hcd

end Listed

/-- Building a sparse raster from listed cells, in a grid of coordinate counts whose nodata value
the type accepts: a list with a cell outside the grid is refused with an invalid argument naming
such a cell; any other list gives a raster of the metadata that satisfies the storage invariant,
whose every cell reads the value last listed for it (even one equal to the nodata value), a cell
not listed being missing, and that stores one entry for each listed cell. -/
theorem ofTriplets_lastListed (t : PixelType) {m : Metadata} (hm : m.CoordDims) (h0 : 0 ≤ m.rows)
    (h1 : 0 ≤ m.cols) (hv : t.validateNodata m.nodata = .ok ()) (hn : m.nodata ≠ none)
    (ts : List (Cell × Pixel)) :
    ((∃ x ∈ ts, m.containsCell x.1 = false) → ∃ c v, (c, v) ∈ ts ∧ m.containsCell c = false ∧
        ofTriplets t m ts = .error (.invalidArgument
          s!"Cell {c.display} outside of raster {m.rows}x{m.cols}")) ∧
    ((∀ x ∈ ts, m.containsCell x.1 = true) → ∃ r, ofTriplets t m ts = .ok r ∧
        r.metadata = m ∧ r.Csr ∧
        (∀ c, m.containsCell c = true → (c.index m.cols >>= r.value) = .ok (lastListed ts c)) ∧
        r.storedCount = (ts.map (·.1)).toFinset.card) := by
  refine ⟨ofTriplets_eq_error, fun hin => ?_⟩
  -- the type has the nodata value, so the entries are laid out
  obtain ⟨n, hnv⟩ := Option.ne_none_iff_exists'.mp
    (mt (PixelType.nodataValue_eq_none_iff hv).mp hn)
  obtain ⟨r, hr⟩ := ofSortedEntries_isOk (nodataOf_eq_ok.mpr ⟨hv, hnv⟩) h0 h1 _
  have hmeta : r.metadata = m := (ofSortedEntries_eq_ok hr).2.1
  rw [← ofTriplets_eq_ofSortedEntries hin] at hr
  have hl := layout_ofTriplets hr
  refine ⟨r, hr, hmeta, hl.csr, fun c hc => ?_, storedCount_ofTriplets hin hr⟩
  -- a cell of the grid has its position as index, and reads the rows' cell there
  obtain ⟨hc0, hc1, -, -⟩ := containsCell_eq_true.mp hc
  have hpos := Cell.position_lt_cellCount hc
  have hw : r.metadata.cols < wordSize := hmeta ▸ hm.cols_lt_wordSize
  rw [Cell.index_eq_position hc0 hc1 h1 hm.cols_lt_wordSize
      (hpos.trans hm.cellCount_lt_wordSize), ok_bind,
    hl.value_eq hw (by rwa [len, hmeta]), hmeta, @cellOf_groupRows m.rows.toNat m.cols.toNat _ _ hpos,
    lookup_ofTriplets_entries hin hc]

/-- Listing cell (0, 1) of a one-by-two grid twice, the raster holds the later value there. -/
theorem ofTriplets_lastListed_repeated :
    ∃ r, ofTriplets .float64 (Metadata.sized ⟨1, 2⟩ (some Metadata.zero))
        [(⟨0, 1⟩, .double Metadata.zero), (⟨0, 1⟩, .double Metadata.half)] = .ok r ∧
      ((Cell.mk 0 1).index 2 >>= r.value) = .ok (some (.double Metadata.half)) := by
  obtain ⟨r, hr, -, -, hread, -⟩ := (ofTriplets_lastListed .float64
    (m := Metadata.sized ⟨1, 2⟩ (some Metadata.zero)) ⟨rfl, rfl⟩ (by decide) (by decide) rfl
    (by simp [Metadata.sized])
    [(⟨0, 1⟩, .double Metadata.zero), (⟨0, 1⟩, .double Metadata.half)]).2 (by decide)
  exact ⟨r, hr, hread _ (by decide)⟩

end SparseRaster

end Georaster
