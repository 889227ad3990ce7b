import Georaster.Proofs.Sparse.Layout
/-!
# Locating a cell

On a row whose columns increase strictly, the bisection of `search` answers what a search of
a sorted list is documented to answer: the position of the column if the row holds it, and
otherwise the position where it would be inserted, both being the number of columns below it.

Bisection keeps its candidates bracketed (`Bracket`): the elements before them are at most the
column sought, those after them above it. So `position` finds the slot of a cell within its
row's interval of entries, and `value` reads the entry of the cell's column in its row.
-/

namespace Georaster

variable {xs : List Int} {x : Int}

theorem lt_of_sorted (hs : xs.Pairwise (· < ·)) {i j : Nat} (hi : i < xs.length)
    (hj : j < xs.length) (hij : i < j) : xs[i] < xs[j] :=
  List.pairwise_iff_getElem.mp hs i j hi hj hij

theorem le_of_sorted (hs : xs.Pairwise (· < ·)) {i j : Nat} (hi : i < xs.length)
    (hj : j < xs.length) (hij : i ≤ j) : xs[i] ≤ xs[j] := by
  rcases Nat.lt_or_eq_of_le hij with hlt | rfl
  · exact Int.le_of_lt (lt_of_sorted hs hi hj hlt)
  · exact Int.le_refl _

/-- The candidates `size` elements from `base` bracket `x`: every element before them is at
most `x`, as is the first of them once the bisection has moved, and every element after them is
above `x`. -/
structure Bracket (xs : List Int) (x : Int) (base size : Nat) : Prop where
  pos : 0 < size
  le_length : base + size ≤ xs.length
  below : ∀ j (hj : j < xs.length), j ≤ base → 0 < base → xs[j] ≤ x
  above : ∀ j (hj : j < xs.length), base + size ≤ j → x < xs[j]

/-- One halving keeps the bracket: the upper half is kept only when its first element is at most
`x`, and otherwise the elements from the middle on are above `x`. -/
theorem Bracket.halve (hs : xs.Pairwise (· < ·)) {base size : Nat}
    (h : Bracket xs x base size) (hsize : 1 < size) :
    Bracket xs x (if x < xs.getD (base + size / 2) 0 then base else base + size / 2)
      (size - size / 2) := by
  have hmid : base + size / 2 < xs.length := by have := h.le_length; omega
  rw [← List.getElem_eq_getD (h := hmid) 0]
  split
  · rename_i hlt
    refine ⟨by omega, by have := h.le_length; omega, h.below, fun j hj hle => ?_⟩
    exact Int.lt_of_lt_of_le hlt (le_of_sorted hs hmid hj (by omega))
  · rename_i hge
    refine ⟨by omega, by have := h.le_length; omega, fun j hj hle _ => ?_, fun j hj hle => ?_⟩
    · exact Int.le_trans (le_of_sorted hs hj hmid hle) (Int.not_lt.mp hge)
    · exact h.above j hj (by omega)

/-- Bisection ends on one candidate, still bracketed. -/
theorem bracket_bisect (hs : xs.Pairwise (· < ·)) {base size : Nat}
    (h : Bracket xs x base size) : Bracket xs x (bisect xs x base size) 1 := by
  fun_induction bisect xs x base size with
  | case1 base size hle =>
    have : size = 1 := by have := h.pos; omega
    exact this ▸ h
  | case2 base size hle mid ih =>
    exact ih (h.halve hs (by omega))

/-- A count of the elements below `x` where they are exactly those before position `p`. -/
theorem countP_lt_eq {p : Nat} (hp : p ≤ xs.length)
    (hlt : ∀ j (hj : j < xs.length), xs[j] < x ↔ j < p) : xs.countP (· < x) = p := by
  rw [← List.take_append_drop p xs, List.countP_append]
  have htake : (xs.take p).countP (· < x) = p := by
    rw [List.countP_eq_length.mpr, List.length_take, Nat.min_eq_left hp]
    intro y hy
    obtain ⟨j, hj, rfl⟩ := List.getElem_of_mem hy
    simp only [List.getElem_take, List.length_take] at hj ⊢
    exact decide_eq_true ((hlt j (by omega)).mpr (by omega))
  have hdrop : (xs.drop p).countP (· < x) = 0 := by
    rw [List.countP_eq_zero]
    intro y hy
    obtain ⟨j, hj, rfl⟩ := List.getElem_of_mem hy
    simp only [List.getElem_drop, List.length_drop] at hj ⊢
    have := hlt (p + j) (by omega)
    simp only [decide_eq_true_eq]
    exact fun h => absurd (this.mp h) (by omega)
  omega

/-- The position of an element of a strictly increasing list counts the elements below it. -/
theorem countP_lt_of_getElem (hs : xs.Pairwise (· < ·)) {j : Nat} (hj : j < xs.length)
    (hx : xs[j] = x) : xs.countP (· < x) = j :=
  countP_lt_eq (Nat.le_of_lt hj) fun k hk => by
    rcases Nat.lt_trichotomy k j with hkj | rfl | hkj
    · exact ⟨fun _ => hkj, fun _ => hx ▸ lt_of_sorted hs hk hj hkj⟩
    · simp [hx]
    · have := lt_of_sorted hs hj hk hkj
      exact ⟨fun h => by omega, fun h => by omega⟩

/-- On a strictly increasing list, `search` finds the position of `x` if the list holds it, and
otherwise the position where it would be inserted; both count the elements below `x`. -/
theorem search_eq (hs : xs.Pairwise (· < ·)) (x : Int) :
    search xs x = if x ∈ xs then .found (xs.countP (· < x)) else .vacant (xs.countP (· < x)) := by
  unfold search
  by_cases hnil : xs = []
  · subst hnil
    simp
  have hlen : 0 < xs.length := List.length_pos_iff.mpr hnil
  have start : Bracket xs x 0 xs.length :=
    ⟨hlen, by omega, fun _ _ _ h => absurd h (Nat.lt_irrefl 0), fun _ hj h => by omega⟩
  have hb := bracket_bisect hs start
  set b := bisect xs x 0 xs.length
  have hbl : b < xs.length := by have := hb.le_length; omega
  have hy : xs.getD b 0 = xs[b] := (List.getElem_eq_getD 0).symm
  simp only [List.isEmpty_iff, hnil, if_false, hy]
  -- the elements before `b` are below `x[b]`, those after it above `x`
  have before : ∀ j (hj : j < xs.length), j < b → xs[j] < xs[b] := fun j hj hjb =>
    lt_of_sorted hs hj hbl hjb
  have after : ∀ j (hj : j < xs.length), b < j → x < xs[j] := fun j hj hjb =>
    hb.above j hj (by omega)
  by_cases heq : xs[b] = x
  · have hmem : x ∈ xs := heq ▸ List.getElem_mem hbl
    simp [heq, hmem, countP_lt_of_getElem hs hbl heq]
  · have hnot : x ∉ xs := by
      intro hmem
      obtain ⟨j, hj, hjx⟩ := List.getElem_of_mem hmem
      rcases Nat.lt_trichotomy j b with hjb | rfl | hjb
      · have := hb.below j hj (Nat.le_of_lt hjb) (by omega)
        have := before j hj hjb
        have := hb.below b hbl (Nat.le_refl b) (by omega)
        omega
      · exact heq hjx
      · have := after j hj hjb
        omega
    by_cases hlt : xs[b] < x
    · have hcount : xs.countP (· < x) = b + 1 := countP_lt_eq hbl fun j hj => by
        rcases Nat.lt_or_ge j (b + 1) with hjb | hjb
        · exact ⟨fun _ => hjb, fun _ => Int.lt_of_le_of_lt (le_of_sorted hs hj hbl (by omega)) hlt⟩
        · exact ⟨fun h => absurd h (Int.not_lt.mpr (Int.le_of_lt (after j hj (by omega)))),
            fun h => by omega⟩
      simp [heq, hlt, hnot, hcount]
    · -- the first candidate is above `x`, so bisection never moved and nothing is below `x`
      have hb0 : b = 0 := by
        by_contra hne
        have := hb.below b hbl (Nat.le_refl b) (by omega)
        omega
      have hcount : xs.countP (· < x) = 0 := countP_lt_eq (Nat.zero_le _) fun j hj => by
        have : xs[b] ≤ xs[j] := le_of_sorted hs hbl hj (by omega)
        exact ⟨fun h => by omega, fun h => absurd h (Nat.not_lt_zero _)⟩
      simp only [heq, hlt, if_false]
      simp [hnot, hcount, hb0]

namespace Buffer

variable {α : Type} {l : List α}

theorem nth_of_lt {i : Nat} (h : i < l.length) : nth l i = .ok l[i] := by
  simp [nth, List.getElem?_eq_getElem h]

theorem lt_of_nth_eq_ok {i : Nat} {a : α} (h : nth l i = .ok a) : i < l.length := by
  unfold nth at h
  split at h
  · rename_i hget
    exact (List.getElem?_eq_some_iff.mp hget).1
  · cases h

theorem slice_of_le {start stop : Nat} (h : start ≤ stop) (h' : stop ≤ l.length) :
    slice l start stop = .ok (l.extract start stop) := by
  simp [slice, Nat.not_lt.mpr h, Nat.not_lt.mpr h']

end Buffer

namespace SparseRaster

/-- The value at column `c` of a row: the value of its first entry in that column. -/
def valueIn (row : Row) (c : Int) : Option Pixel := (row.find? (·.1 == c)).map (·.2)

/-- The cell at index `i` of rows of `cols` columns. -/
def cellOf (rows : List Row) (cols : Nat) (i : Nat) : Option Pixel :=
  valueIn (rows.getD (i / cols) []) ((i % cols : Nat) : Int)

theorem valueIn_eq_none_iff {row : Row} {c : Int} : valueIn row c = none ↔ c ∉ row.map (·.1) := by
  simp only [valueIn, Option.map_eq_none_iff, List.find?_eq_none, beq_iff_eq, List.mem_map]
  exact ⟨fun h ⟨e, he, hc⟩ => h e he hc, fun h e he hc => h ⟨e, he, hc⟩⟩

/-- In a row whose columns are distinct, the value at a column is that of its entry. -/
theorem valueIn_eq_some_iff {row : Row} (hd : (row.map (·.1)).Nodup) {c : Int} {v : Pixel} :
    valueIn row c = some v ↔ (c, v) ∈ row := by
  constructor
  · intro h
    obtain ⟨e, he, rfl⟩ := Option.map_eq_some_iff.mp h
    have hc : e.1 = c := by simpa using List.find?_some he
    exact hc ▸ List.mem_of_find?_eq_some he
  · intro hmem
    cases hf : row.find? (·.1 == c) with
    | none =>
      rw [List.find?_eq_none] at hf
      exact absurd (by simp) (hf _ hmem)
    | some e =>
      have hc : e.1 = c := by simpa using List.find?_some hf
      have := List.inj_on_of_nodup_map hd (List.mem_of_find?_eq_some hf) hmem hc
      simp [valueIn, hf, this]

variable {r : SparseRaster} {rows : List Row}

theorem width_eq (h0 : 0 ≤ r.metadata.cols) (hw : r.metadata.cols < wordSize) :
    r.width = r.metadata.cols.toNat := by
  rw [width, Int.emod_eq_of_lt h0 hw]

namespace Layout

theorem offset_le_length (h : r.Layout rows) {k : Nat} (hk : k ≤ rows.length) :
    r.offset k ≤ r.values.length := by
  have split := congrArg List.sum (List.take_append_drop k (rows.map List.length))
  rw [List.sum_append_nat] at split
  rw [h.offset_eq hk, h.length_values, List.map_take]
  omega

theorem nth_offsets (h : r.Layout rows) {k : Nat} (hk : k ≤ rows.length) :
    Buffer.nth r.rowOffsets k = .ok (r.offset k) := by
  have hk' : k < r.rowOffsets.length := by rw [h.offsets_eq, length_offsetsOf]; omega
  rw [Buffer.nth_of_lt hk', offset, List.getD_eq_getElem?_getD, List.getElem?_eq_getElem hk',
    Option.getD_some]

/-- Where `position` succeeds on a laid-out raster, the width is positive and the cell's row is
one of the rows: the offset after that row has been read. -/
theorem lt_of_position_eq_ok (h : r.Layout rows) {i : Nat} {p : Nat × Slot}
    (hp : r.position i = .ok p) : 0 < r.width ∧ i / r.width < rows.length := by
  simp only [position] at hp
  by_cases hw : r.width = 0
  · simp [hw, abort] at hp
  · simp only [hw, if_false] at hp
    obtain ⟨_, -, hp⟩ := bind_eq_ok.mp hp
    obtain ⟨_, hstop, -⟩ := bind_eq_ok.mp hp
    have := Buffer.lt_of_nth_eq_ok hstop
    rw [h.offsets_eq, length_offsetsOf] at this
    exact ⟨Nat.pos_of_ne_zero hw, by omega⟩

/-- A cell whose row is one of the rows lies in row `i / width`; its slot is found among that
row's entries. -/
theorem position_eq (h : r.Layout rows) (hw : 0 < r.width) {i : Nat}
    (hk : i / r.width < rows.length) :
    r.position i = .ok (i / r.width,
      (search ((rows.getD (i / r.width) []).map (·.1))
        ((i % r.width : Nat) : Int)).shift (r.offset (i / r.width))) := by
  have hstop := h.offset_succ hk
  have hcols : r.offset (i / r.width + 1) ≤ r.colIndices.length := by
    rw [(h.csr).length_cols]; exact h.offset_le_length hk
  simp only [position, Nat.pos_iff_ne_zero.mp hw, if_false]
  rw [h.nth_offsets (Nat.le_of_lt hk), h.nth_offsets (k := i / r.width + 1) hk]
  simp only [ok_bind]
  rw [Buffer.slice_of_le (by omega) hcols, h.extract_cols hk,
    ← List.getElem_eq_getD (h := hk) []]
  rfl

/-- A cell of a grid whose columns fit a machine word lies in one of the rows. -/
theorem div_lt_of_lt_len (h : r.Layout rows) (hw : r.metadata.cols < wordSize) {i : Nat}
    (hi : i < r.len) : 0 < r.width ∧ i / r.width < rows.length := by
  rw [width_eq h.cols_nonneg hw]
  have hlen : i < rows.length * r.metadata.cols.toNat := by
    rw [h.length_rows]; simpa [len, Metadata.cellCount, Metadata.size] using hi
  have hn : 0 < r.metadata.cols.toNat := Nat.pos_of_ne_zero fun h0 => by simp [h0] at hlen
  exact ⟨hn, (Nat.div_lt_iff_lt_mul hn).mpr hlen⟩

/-- The value of entry `p` of row `k`. -/
theorem getElem?_values (h : r.Layout rows) {k p : Nat} (hk : k < rows.length)
    (hp : p < rows[k].length) : r.values[r.offset k + p]? = some rows[k][p].2 := by
  have hslice := congrArg (·[p]?) (h.extract_values hk)
  simp only [List.extract_eq_take_drop, List.getElem?_take, List.getElem?_drop,
    h.offset_succ hk, Nat.add_sub_cancel_left, hp, if_true, List.getElem?_map,
    List.getElem?_eq_getElem hp, Option.map_some] at hslice
  exact hslice

/-- Reading a cell of the grid gives the value of its column in its row. -/
theorem value_eq (h : r.Layout rows) (hw : r.metadata.cols < wordSize) {i : Nat}
    (hi : i < r.len) : r.value i = .ok (cellOf rows r.metadata.cols.toNat i) := by
  obtain ⟨hn, hk⟩ := h.div_lt_of_lt_len hw hi
  have hp := h.position_eq hn hk
  rw [width_eq h.cols_nonneg hw] at hn hk hp
  set n := r.metadata.cols.toNat with hn_def
  have hrow := h.row_ok _ (List.getElem_mem hk)
  unfold value cellOf
  rw [hp]
  simp only [ok_bind, ← List.getElem_eq_getD (h := hk) [], search_eq hrow.sorted]
  by_cases hmem : ((i % n : Nat) : Int) ∈ rows[i / n].map (·.1)
  · -- the row holds the column, at the position counting the columns below it
    simp only [hmem, if_true, Slot.shift]
    obtain ⟨j, hj, hjc⟩ := List.getElem_of_mem hmem
    rw [countP_lt_of_getElem hrow.sorted hj hjc]
    have hj' : j < rows[i / n].length := by simpa using hj
    have hentry : rows[i / n][j] = (((i % n : Nat) : Int), rows[i / n][j].2) := by
      simp only [List.getElem_map] at hjc
      exact Prod.ext hjc rfl
    have hnodup : (rows[i / n].map (·.1)).Nodup := hrow.sorted.imp Int.ne_of_lt
    have hval : valueIn rows[i / n] (i % n : Nat) = some rows[i / n][j].2 :=
      (valueIn_eq_some_iff hnodup).mpr (hentry ▸ List.getElem_mem hj')
    obtain ⟨hlt, hget⟩ := List.getElem?_eq_some_iff.mp (h.getElem?_values hk hj')
    simp only [Buffer.nth_of_lt hlt, hval, hget]
    rfl
  · simp only [hmem, if_false, Slot.shift, (valueIn_eq_none_iff).mpr hmem]
    rfl

end Layout

end SparseRaster

end Georaster
