import Georaster.Proofs.Sparse.Edit
/-!
# Mapping the values of a sparse raster

Mapping visits the stored cells only: a cell is kept, its value mapped, when the map gives a
value, and dropped otherwise. On a raster laid out in sound rows the stored cells are the rows'
entries at their indices (`entriesOf`), sorted and in the grid; grouped back by row they give the
rows again (`groupRows_entriesOf`). So the result lays out the rows with every entry mapped
(`mapRow`), and a cell of the result reads as the cell of the raster, mapped.
-/

namespace Georaster

namespace SparseRaster

/-! ### The entries of rows -/

/-- The entries of rows at their indices in a grid of `cols` columns. -/
def entriesOf (cols : Nat) (rows : List Row) : List SparseEntry :=
  (List.range rows.length).flatMap fun k =>
    (rows.getD k []).map fun e => ⟨k * cols + e.1.toNat, e.2⟩

theorem map_getD_range {α : Type} (L : List α) (d : α) :
    (List.range L.length).map (L.getD · d) = L := by
  apply List.ext_getElem (by simp)
  intro k h₁ h₂
  simp [List.getD_eq_getElem?_getD, h₂]

/-- A concatenation of blocks of which only block `k` can be nonempty is that block. -/
theorem flatMap_eq_of_eq_nil {α β : Type} {f : α → List β} {l : List α} {k : α} (hk : k ∈ l)
    (hnd : l.Nodup) (h : ∀ x ∈ l, x ≠ k → f x = []) : l.flatMap f = f k := by
  induction l with
  | nil => simp at hk
  | cons x l ih =>
    obtain ⟨hx, hnd⟩ := List.nodup_cons.mp hnd
    rw [List.flatMap_cons]
    by_cases hxk : x = k
    · subst hxk
      have hrest : l.flatMap f = [] := List.flatMap_eq_nil_iff.mpr fun y hy =>
        h y (List.mem_cons_of_mem _ hy) fun hyx => hx (hyx ▸ hy)
      rw [hrest, List.append_nil]
    · rw [h x List.mem_cons_self hxk, List.nil_append]
      exact ih ((List.mem_cons.mp hk).resolve_left (Ne.symm hxk)) hnd
        fun y hy => h y (List.mem_cons_of_mem _ hy)

/-- A cell of row `k` lies in row `k`, at its column. -/
theorem div_mod_index {cols k c : Nat} (hc : c < cols) :
    (k * cols + c) / cols = k ∧ (k * cols + c) % cols = c := by
  have hpos : 0 < cols := by omega
  rw [Nat.mul_comm, Nat.mul_add_div hpos, Nat.div_eq_of_lt hc, Nat.mul_add_mod, Nat.mod_eq_of_lt hc]
  exact ⟨rfl, rfl⟩

section Rows

variable {cols : Nat} {rows : List Row}
  (hrows : ∀ row ∈ rows, ∀ e ∈ row, 0 ≤ e.1 ∧ e.1 < cols)
include hrows

/-- The entries of row `k` are those whose index lies in row `k`. -/
theorem filter_entriesOf {k : Nat} (hk : k < rows.length) :
    (entriesOf cols rows).filter (·.index / cols = k) =
      rows[k].map fun e => ⟨k * cols + e.1.toNat, e.2⟩ := by
  have hcol : ∀ j (hj : j < rows.length), ∀ e ∈ rows[j], e.1.toNat < cols := fun j hj e he => by
    have := hrows _ (List.getElem_mem hj) e he
    omega
  unfold entriesOf
  rw [List.filter_flatMap, flatMap_eq_of_eq_nil (k := k) (List.mem_range.mpr hk) List.nodup_range]
  · -- every entry of row `k` is kept
    rw [← List.getElem_eq_getD (h := hk) [], List.filter_eq_self]
    intro e he
    obtain ⟨x, hx, rfl⟩ := List.mem_map.mp he
    simp [(div_mod_index (k := k) (hcol k hk x hx)).1]
  · -- and none of another row
    intro j hj hjk
    have hj' := List.mem_range.mp hj
    rw [← List.getElem_eq_getD (h := hj') [], List.filter_eq_nil_iff]
    intro e he
    obtain ⟨x, hx, rfl⟩ := List.mem_map.mp he
    simp [(div_mod_index (k := j) (hcol j hj' x hx)).1, hjk]

/-- Grouped back by row, the entries of sound rows are the rows. -/
theorem groupRows_entriesOf : groupRows rows.length cols (entriesOf cols rows) = rows := by
  apply List.ext_getElem (by simp)
  intro k h₁ h₂
  simp only [groupRows, List.getElem_map, List.getElem_range]
  rw [filter_entriesOf hrows h₂, List.map_map]
  conv_rhs => rw [← List.map_id rows[k]]
  apply List.map_congr_left
  intro e he
  have he' := hrows _ (List.getElem_mem h₂) e he
  have hmod := (div_mod_index (k := k) (show e.1.toNat < cols by omega)).2
  simp only [Function.comp_apply, id_eq, hmod]
  exact Prod.ext (Int.toNat_of_nonneg he'.1) rfl

/-- The entries of sound rows are sorted and in the grid. -/
theorem entriesOk_entriesOf (hsorted : ∀ row ∈ rows, (row.map (·.1)).Pairwise (· < ·)) :
    EntriesOk (rows.length * cols) (entriesOf cols rows) := by
  refine ⟨?_, fun e he => ?_⟩
  · rw [entriesOf, List.map_flatMap, List.pairwise_flatMap]
    refine ⟨fun k hk => ?_, List.pairwise_lt_range.imp_of_mem fun {k k'} hk hk' hkk' => ?_⟩
    · -- within a row, the indices increase with the columns
      have hk' := List.mem_range.mp hk
      rw [← List.getElem_eq_getD (h := hk') [], List.map_map]
      have hs := hsorted _ (List.getElem_mem hk')
      rw [List.pairwise_map] at hs ⊢
      refine hs.imp_of_mem fun {a b} ha hb hab => ?_
      have := hrows _ (List.getElem_mem hk') a ha
      have := hrows _ (List.getElem_mem hk') b hb
      simp only [Function.comp_apply]
      omega
    · -- a later row starts past every column of an earlier one
      intro x hx y hy
      have hlt := List.mem_range.mp hk
      have hlt' := List.mem_range.mp hk'
      rw [← List.getElem_eq_getD (h := hlt) [], List.map_map] at hx
      rw [← List.getElem_eq_getD (h := hlt') [], List.map_map] at hy
      obtain ⟨a, ha, rfl⟩ := List.mem_map.mp hx
      obtain ⟨b, hb, rfl⟩ := List.mem_map.mp hy
      have := hrows _ (List.getElem_mem hlt) a ha
      have hstep : (k + 1) * cols ≤ k' * cols := Nat.mul_le_mul_right _ hkk'
      rw [Nat.succ_mul] at hstep
      simp only [Function.comp_apply]
      omega
  · obtain ⟨k, hk, he⟩ := List.mem_flatMap.mp he
    have hk' := List.mem_range.mp hk
    rw [← List.getElem_eq_getD (h := hk') []] at he
    obtain ⟨a, ha, rfl⟩ := List.mem_map.mp he
    have := hrows _ (List.getElem_mem hk') a ha
    have hstep : (k + 1) * cols ≤ rows.length * cols := Nat.mul_le_mul_right _ hk'
    rw [Nat.succ_mul] at hstep
    show k * cols + a.1.toNat < rows.length * cols
    omega

end Rows

/-! ### Mapping the entries -/

/-- A row with each entry's value mapped, the entries mapped to none dropped. -/
def mapRow (op : Pixel → Option Pixel) (row : Row) : Row :=
  row.filterMap fun e => (op e.2).map fun v => (e.1, v)

/-- Mapping keeps the columns of the entries that the map gives a value. -/
theorem map_fst_mapRow (op : Pixel → Option Pixel) (row : Row) :
    (mapRow op row).map (·.1) = (row.filter fun e => (op e.2).isSome).map (·.1) := by
  induction row with
  | nil => rfl
  | cons e row ih =>
    cases hop : op e.2 with
    | none => simpa [mapRow, hop] using ih
    | some v => simpa [mapRow, hop] using ih

/-- Mapping keeps a sound row sound: it keeps some of its entries, at their columns. -/
theorem rowOk_mapRow {cols : Int} {row : Row} (h : RowOk cols row) (op : Pixel → Option Pixel) :
    RowOk cols (mapRow op row) := by
  refine ⟨?_, fun e he => ?_⟩
  · rw [map_fst_mapRow]
    exact h.sorted.sublist (List.filter_sublist.map _)
  · obtain ⟨a, ha, hae⟩ := List.mem_filterMap.mp he
    obtain ⟨v, -, rfl⟩ := Option.map_eq_some_iff.mp hae
    exact h.col_mem a ha

/-- A value read in a mapped row is the mapped value; the columns must be distinct, so that the
entry dropped by the map hides no other entry of its column. -/
theorem valueIn_mapRow (op : Pixel → Option Pixel) {row : Row} (hd : (row.map (·.1)).Nodup)
    (c : Int) : valueIn (mapRow op row) c = (valueIn row c).bind op := by
  induction row with
  | nil => rfl
  | cons e row ih =>
    obtain ⟨he, hd⟩ := List.nodup_cons.mp hd
    by_cases hc : e.1 = c
    · -- the entry of the column: the rest holds no other
      have hrest : valueIn row c = none := valueIn_eq_none_iff.mpr (hc ▸ he)
      have hval : valueIn (e :: row) c = some e.2 := by simp [valueIn, hc]
      cases hop : op e.2 with
      | none =>
        have hdrop : mapRow op (e :: row) = mapRow op row := by simp [mapRow, hop]
        rw [hdrop, ih hd, hrest, hval]
        simp [hop]
      | some v => simp [mapRow, valueIn, hop, hc]
    · cases hop : op e.2 with
      | none => simpa [mapRow, valueIn, hop, hc] using ih hd
      | some v => simpa [mapRow, valueIn, hop, hc] using ih hd

/-! ### The stored cells and the mapped raster -/

theorem range_flatMap_getD {β : Type} (L : List Row) (g : Row → List β) :
    (List.range L.length).flatMap (fun k => g (L.getD k [])) = L.flatMap g := by
  rw [List.flatMap_def, List.flatMap_def]
  conv_rhs => rw [← map_getD_range L []]
  rw [List.map_map]
  rfl

theorem zip_map_snd {α β γ : Type} (l : List (α × β)) (f : β → γ) :
    l.zip ((l.map (·.2)).map f) = l.map fun a => (a, f a.2) := by
  induction l with
  | nil => rfl
  | cons a l ih => simp only [List.map_cons, List.zip_cons_cons, ih]

/-- The entry of a stored cell whose value is mapped to a value. -/
def mapEntry (cols : Nat) (x : (Cell × Pixel) × Option Pixel) : Option SparseEntry :=
  x.2.map (SparseEntry.mk (x.1.1.row.toNat * cols + x.1.1.col.toNat))

theorem mapValues_eq (r : SparseRaster) (t : PixelType) (n : Option Binary64)
    (op : Pixel → Option Pixel) :
    r.mapValues t n op = ofSortedEntries t (r.metadata.withNodata n)
      ((r.storedCells.zip (r.values.map op)).filterMap (mapEntry r.metadata.cols.toNat)) := rfl

namespace Layout

variable {r : SparseRaster} {rows : List Row}

/-- The stored cells of a laid-out raster are the entries of its rows, at their row. -/
theorem storedCells_eq (h : r.Layout rows) :
    r.storedCells = (List.range rows.length).flatMap fun k =>
      (rows.getD k []).map fun e => ((⟨k, e.1⟩ : Cell), e.2) := by
  unfold storedCells
  rw [← h.length_rows]
  apply List.flatMap_congr
  intro k hk
  have hk' := List.mem_range.mp hk
  rw [h.zip_eq_flatten, h.offset_eq (Nat.le_of_lt hk'), h.offset_eq hk', extract_flatten rows hk',
    ← List.getElem_eq_getD (h := hk') []]

/-- The stored values are the values of the stored cells. -/
theorem map_snd_storedCells (h : r.Layout rows) : r.storedCells.map (·.2) = r.values := by
  rw [h.storedCells_eq, List.map_flatMap, h.values_eq, ← range_flatMap_getD rows]
  apply List.flatMap_congr
  intro k _
  rw [List.map_map]
  rfl

/-- Mapping a laid-out raster maps the entries of its rows, at their indices. -/
theorem entries_mapValues (h : r.Layout rows) (op : Pixel → Option Pixel) :
    (r.storedCells.zip (r.values.map op)).filterMap (mapEntry r.metadata.cols.toNat) =
      entriesOf r.metadata.cols.toNat (rows.map (mapRow op)) := by
  rw [← h.map_snd_storedCells, zip_map_snd, List.filterMap_map, h.storedCells_eq,
    List.filterMap_flatMap, entriesOf, List.length_map]
  apply List.flatMap_congr
  intro k hk
  have hk' := List.mem_range.mp hk
  rw [← List.getElem_eq_getD (h := hk') [],
    ← List.getElem_eq_getD (h := by simpa using hk') [], List.getElem_map, mapRow,
    List.filterMap_map, List.map_filterMap]
  apply List.filterMap_congr
  intro e he
  cases hop : op e.2 <;> simp [mapEntry, hop]

/-- Mapping a laid-out raster lays out its rows with every entry mapped. -/
theorem mapValues (h : r.Layout rows) {t : PixelType} {n : Option Binary64}
    {op : Pixel → Option Pixel} {q : SparseRaster} (hq : r.mapValues t n op = .ok q) :
    q.Layout (rows.map (mapRow op)) := by
  rw [mapValues_eq, h.entries_mapValues op] at hq
  have hrows : ∀ row ∈ rows.map (mapRow op), ∀ e ∈ row,
      0 ≤ e.1 ∧ e.1 < (r.metadata.cols.toNat : Int) := by
    intro row hrow e he
    obtain ⟨row₀, hrow₀, rfl⟩ := List.mem_map.mp hrow
    have := (rowOk_mapRow (h.row_ok row₀ hrow₀) op).col_mem e he
    omega
  have hok := entriesOk_entriesOf hrows fun row hrow => by
    obtain ⟨row₀, hrow₀, rfl⟩ := List.mem_map.mp hrow
    exact (rowOk_mapRow (h.row_ok row₀ hrow₀) op).sorted
  have hcount : (rows.map (mapRow op)).length * r.metadata.cols.toNat =
      (r.metadata.withNodata n).cellCount := by
    simp [h.length_rows, Metadata.cellCount, Metadata.size, GridSize.cellCount,
      Metadata.withNodata]
  have hq' := layout_ofSortedEntries hq (hcount ▸ hok)
  have hdims : (r.metadata.withNodata n).rows.toNat = (rows.map (mapRow op)).length := by
    simp [h.length_rows, Metadata.withNodata]
  rwa [hdims, show (r.metadata.withNodata n).cols = r.metadata.cols from rfl,
    groupRows_entriesOf hrows] at hq'

end Layout

end SparseRaster

end Georaster
