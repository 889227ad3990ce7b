import Georaster.Proofs.Raster.Reachable
/-!
# Writing one cell

Setting the cell at an index changes that cell and no other. Each storage writes in its own
way: a dense raster stores the value the policy writes in its buffer (a missing cell as the
nodata value, or aborts when it has none), a masked raster stores a value and clears the
cell's flag or flags the cell (allocating the mask), and a sparse raster replaces, inserts or
removes the entry of the cell's column in the cell's row, shifting the offsets of the later
rows. In each case the list of all cells after the write is the list before it with entry `i`
replaced by the cell written, as the storage reads it back (`Raster.Wf.toOptions_setValue`):
a dense raster reads a written value that marks nodata as missing.

On a reachable raster a write inside the grid fails only by aborting, and only on a dense
raster asked to mark a cell missing without a value to store for it
(`Raster.Reachable.setValue_writesCell`).
-/

namespace Georaster

namespace SparseRaster

/-! ### Setting a column of a row -/

section Row

variable {row row' : Row} {c c' : Int}

/-- Two rows with distinct columns that hold the same entries of a column read the same value
there. -/
theorem valueIn_eq_of_mem_iff (hd : (row.map (·.1)).Nodup) (hd' : (row'.map (·.1)).Nodup)
    (h : ∀ w, (c', w) ∈ row' ↔ (c', w) ∈ row) : valueIn row' c' = valueIn row c' := by
  cases hv : valueIn row c' with
  | some w => exact (valueIn_eq_some_iff hd').mpr ((h w).mpr ((valueIn_eq_some_iff hd).mp hv))
  | none =>
    refine valueIn_eq_none_iff.mpr fun hmem => ?_
    obtain ⟨⟨c₀, w⟩, he, hc⟩ := List.mem_map.mp hmem
    dsimp only at hc
    subst hc
    exact valueIn_eq_none_iff.mp hv (List.mem_map_of_mem ((h w).mp he))

/-- In a row with increasing columns, the entry at the rank of a column it holds is the only
entry of that column. -/
theorem eq_rank_of_getElem (hs : (row.map (·.1)).Pairwise (· < ·)) (hmem : c ∈ row.map (·.1))
    {j : Nat} (hj : j < row.length) (hc : row[j].1 = c) : j = rank row c := by
  have hlt := rank_lt_of_mem hs hmem
  have hrank := getElem_rank hs hmem hlt
  by_contra hne
  have hsorted := List.pairwise_iff_getElem.mp hs
  rcases Nat.lt_or_gt_of_ne hne with hjk | hjk
  · have := hsorted j (rank row c) (by simpa using hj) (by simpa using hlt) hjk
    simp only [List.getElem_map] at this
    omega
  · have := hsorted (rank row c) j (by simpa using hlt) (by simpa using hj) hjk
    simp only [List.getElem_map] at this
    omega

/-- Setting column `c` of a row keeps the entries of every other column. -/
theorem mem_putIn_iff (hs : (row.map (·.1)).Pairwise (· < ·)) (hne : c' ≠ c) (v : Option Pixel)
    (w : Pixel) : (c', w) ∈ putIn row c v ↔ (c', w) ∈ row := by
  -- an entry of column `c'` is not at the rank of `c`
  have hother : ∀ (hmem : c ∈ row.map (·.1)) {j : Nat} (hj : j < row.length),
      row[j] = (c', w) → j ≠ rank row c := fun hmem j hj he hjk => by
    have hrank := getElem_rank hs hmem (rank_lt_of_mem hs hmem)
    subst hjk
    rw [he] at hrank
    exact hne hrank
  cases v with
  | some x =>
    by_cases hmem : c ∈ row.map (·.1)
    · -- the entry of `c` is replaced
      simp only [putIn, hmem, if_true]
      constructor
      · intro h
        rcases List.mem_or_eq_of_mem_set h with h | h
        · exact h
        · exact absurd (congrArg Prod.fst h) hne
      · intro h
        obtain ⟨j, hj, he⟩ := List.getElem_of_mem h
        have hjk := hother hmem hj he
        exact List.mem_iff_getElem.mpr ⟨j, by simpa using hj,
          by rw [List.getElem_set_ne (Ne.symm hjk)]; exact he⟩
    · -- an entry of `c` is inserted
      simp only [putIn, hmem, if_false, List.mem_insertIdx (rank_le row c), Prod.mk.injEq, hne,
        false_and, false_or]
  | none =>
    by_cases hmem : c ∈ row.map (·.1)
    · -- the entry of `c` is removed
      simp only [putIn, hmem, if_true]
      constructor
      · exact List.mem_of_mem_eraseIdx
      · intro h
        obtain ⟨j, hj, he⟩ := List.getElem_of_mem h
        exact List.mem_eraseIdx_iff_getElem.mpr ⟨j, hj, hother hmem hj he, he⟩
    · simp only [putIn, hmem, if_false]

/-- Setting column `c` of a sound row reads `v` at `c` and keeps every other column. -/
theorem valueIn_putIn {cols : Int} (h : RowOk cols row) (hc : 0 ≤ c ∧ c < cols)
    (v : Option Pixel) (c' : Int) :
    valueIn (putIn row c v) c' = if c' = c then v else valueIn row c' := by
  have hd : (row.map (·.1)).Nodup := h.sorted.nodup
  have hd' : ((putIn row c v).map (·.1)).Nodup := (rowOk_putIn h hc v).sorted.nodup
  by_cases hcc : c' = c
  · subst hcc
    rw [if_pos rfl]
    cases v with
    | some x =>
      -- the column holds the value written
      apply (valueIn_eq_some_iff hd').mpr
      by_cases hmem : c' ∈ row.map (·.1)
      · simp only [putIn, hmem, if_true]
        exact List.mem_set (by simpa using rank_lt_of_mem h.sorted hmem) _
      · simp only [putIn, hmem, if_false]
        exact (List.mem_insertIdx (rank_le row c')).mpr (.inl rfl)
    | none =>
      -- the column holds no entry
      apply valueIn_eq_none_iff.mpr
      by_cases hmem : c' ∈ row.map (·.1)
      · simp only [putIn, hmem, if_true]
        intro hm
        obtain ⟨⟨c₀, w⟩, he, hc₀⟩ := List.mem_map.mp hm
        dsimp only at hc₀
        subst hc₀
        obtain ⟨j, hj, hjk, hjw⟩ := List.mem_eraseIdx_iff_getElem.mp he
        exact hjk (eq_rank_of_getElem h.sorted hmem hj (by rw [hjw]))
      · simp [putIn, hmem]
  · rw [if_neg hcc]
    exact valueIn_eq_of_mem_iff hd hd' fun w => mem_putIn_iff h.sorted hcc v w

end Row


/-! ### Writing a cell of a sparse raster -/

/-- Writing a cell of sound rows reads the value written at its index and keeps every other
cell. -/
theorem cellOf_modify_putIn {rows : List Row} {cols : Int}
    (hrows : ∀ row ∈ rows, RowOk cols row) {n : Nat} (hn : (n : Int) = cols) (hpos : 0 < n)
    {i : Nat} (hi : i / n < rows.length) (v : Option Pixel) (j : Nat) :
    cellOf (rows.modify (i / n) fun row => putIn row ((i % n : Nat) : Int) v) n j =
      if j = i then v else cellOf rows n j := by
  unfold cellOf
  by_cases hrow : j / n = i / n
  · -- the row written: the cell's column is the one written exactly when the cell is
    have hrowOk := hrows _ (List.getElem_mem hi)
    have hcol : 0 ≤ ((i % n : Nat) : Int) ∧ ((i % n : Nat) : Int) < cols := by
      have := Nat.mod_lt i hpos
      omega
    rw [hrow, List.getD_eq_getElem?_getD, List.getElem?_modify_eq, List.getElem?_eq_getElem hi]
    simp only [Option.map_eq_map, Option.map_some, Option.getD_some]
    rw [valueIn_putIn hrowOk hcol v]
    by_cases hji : j = i
    · simp [hji]
    · have hmod : ((j % n : Nat) : Int) ≠ ((i % n : Nat) : Int) := fun h => hji (by
        have hj := Nat.div_add_mod j n
        have hi' := Nat.div_add_mod i n
        rw [hrow] at hj
        omega)
      rw [if_neg hmod, if_neg hji, List.getD_eq_getElem?_getD, List.getElem?_eq_getElem hi]
      rfl
  · -- another row is untouched
    have hji : j ≠ i := fun h => hrow (h ▸ rfl)
    rw [if_neg hji, List.getD_eq_getElem?_getD, List.getElem?_modify_ne _ _ (Ne.symm hrow),
      ← List.getD_eq_getElem?_getD]

theorem type_of_setValue_eq_ok {s s' : SparseRaster} {i : Nat} {v : Option Pixel}
    (h : s.setValue i v = .ok s') : s'.type = s.type := by
  unfold SparseRaster.setValue at h
  obtain ⟨⟨row, slot⟩, -, h⟩ := bind_eq_ok.mp h
  dsimp only at h
  split at h <;> cases pure_eq_ok.mp h <;> rfl

namespace Layout

variable {s s' : SparseRaster} {rows : List Row}

/-- Setting a cell of a laid-out raster replaces that cell of the list of all cells. -/
theorem toOptions_setValue (h : s.Layout rows) (hw : s.metadata.cols < wordSize) {i : Nat}
    (hi : i < s.len) {v : Option Pixel} (hs : s.setValue i v = .ok s') :
    s'.toOptions = s.toOptions.set i v := by
  have h' := h.setValue hs
  have hm := metadata_of_setValue_eq_ok hs
  obtain ⟨hpos, hk⟩ := h.div_lt_of_lt_len hw hi
  rw [width_eq h.cols_nonneg hw] at hpos hk h'
  have hlen : s'.len = s.len := by simp only [len, hm]
  rw [h'.toOptions_eq (hm ▸ hw), h.toOptions_eq hw, hm, hlen]
  apply List.ext_getElem (by simp)
  intro j hj₁ hj₂
  rw [List.getElem_set, List.getElem_map, List.getElem_map, List.getElem_range,
    cellOf_modify_putIn h.row_ok (Int.toNat_of_nonneg h.cols_nonneg) hpos hk v j]
  by_cases hji : j = i
  · simp [hji]
  · simp [hji, Ne.symm hji]

end Layout

end SparseRaster

/-! ### Writing a cell of a dense raster -/

namespace DenseRaster

variable {d d' : DenseRaster} {i : Nat} {v : Option Pixel}

/-- In a raster that reads its buffer through the policy of its type and nodata value, setting a
cell replaces that cell of the list of all cells with the written value read through the
policy. -/
theorem toOptions_setValue (hp : d.policy = d.type.policy d.metadata.nodata)
    (hs : d.setValue i v = .ok d') :
    d'.toOptions = d.toOptions.set i (v.bind d.policy.read) := by
  obtain ⟨x, hx, -, rfl⟩ := setValue_eq_ok.mp hs
  have hread : d.policy.read x = v.bind d.policy.read := by
    rw [hp] at hx ⊢
    exact PixelType.read_write hx
  rw [toOptions, toOptions, Array.toList_setIfInBounds, List.map_set]
  exact congrArg _ hread

/-- Inside the buffer, setting a cell fails only by aborting, when the cell is to be missing and
the policy has no value for a missing cell. -/
theorem setValue_eq_error_iff (hi : i < d.data.size) {e : Fault} :
    d.setValue i v = .error e ↔
      e = .abort "Cannot mark a cell as nodata in a raster without nodata value" ∧ v = none ∧
        d.canRepresentNodata = false := by
  rw [setValue_eq_write]
  cases hx : d.policy.write v with
  | none =>
    -- only a missing cell has no write, when the policy has no value for it
    have hv : v = none ∧ d.policy.missingValue = none := by
      cases v with
      | some x => simp [NodataPolicy.write] at hx
      | none => exact ⟨rfl, hx⟩
    simp [abort, canRepresentNodata, hv, eq_comm]
  | some x =>
    have hv : ¬(v = none ∧ d.canRepresentNodata = false) := by
      rintro ⟨rfl, hc⟩
      simp [canRepresentNodata, NodataPolicy.write] at hc hx
      simp [hx] at hc
    simp only [Buffer.set, hi, if_true, ok_map]
    simp only [reduceCtorEq, false_iff]
    exact fun h => hv h.2

end DenseRaster

/-! ### Writing a cell of a masked raster -/

namespace MaskedRaster

variable {k k' : MaskedRaster} {i : Nat} {v : Option Pixel}

/-- Allocating the mask flags no cell. -/
theorem getD_mask_ensureMask (k : MaskedRaster) (j : Nat) :
    k.ensureMask.mask.getD j false = k.mask.getD j false := by
  unfold ensureMask
  split
  · rename_i hm
    have hnil : k.mask = #[] := Array.isEmpty_iff.mp (Bool.and_eq_true_iff.mp hm).1
    simp only [hnil, Array.getD_eq_getD_getElem?, Array.getElem?_replicate]
    split <;> rfl
  · rfl

/-- Inside the buffer, setting a cell of a well-formed masked raster always succeeds. -/
theorem Wf.setValue_isOk (h : k.Wf) (hi : i < k.data.size) (v : Option Pixel) :
    ∃ k', k.setValue i v = .ok k' := by
  cases v with
  | some x =>
    refine ⟨_, setValue_some_eq_ok.mpr ⟨hi, ?_, rfl⟩⟩
    rcases h.size_mask with hnil | hsize
    · exact .inl hnil
    · exact .inr (hsize ▸ hi)
  | none =>
    exact ⟨_, setValue_none_eq_ok.mpr ⟨(h.size_ensureMask (by omega)).symm ▸ hi, rfl⟩⟩

/-- Setting a cell of a masked raster makes it read the value given, and keeps every other
cell. -/
theorem cellAt_setValue (hi : i < k.data.size) (hk : k.setValue i v = .ok k')
    (j : Nat) : k'.cellAt j = if j = i then v else k.cellAt j := by
  cases v with
  | some x =>
    obtain ⟨-, hmask, rfl⟩ := setValue_some_eq_ok.mp hk
    by_cases hji : j = i
    · -- the cell written is data with the value
      subst hji
      have hflag : (k.mask.setIfInBounds j false).getD j false = false := by
        rcases hmask with hnil | hlt
        · simp [hnil]
        · simp [Array.getElem?_setIfInBounds_self_of_lt hlt]
      simp [cellAt, hflag, Array.getElem?_setIfInBounds_self_of_lt hi]
    · simp [cellAt, hji, Array.getElem?_setIfInBounds_ne (Ne.symm hji)]
  | none =>
    obtain ⟨hlt, rfl⟩ := setValue_none_eq_ok.mp hk
    by_cases hji : j = i
    · subst hji
      simp [cellAt, Array.getElem?_setIfInBounds_self_of_lt hlt]
    · have := getD_mask_ensureMask k j
      simp only [Array.getD_eq_getD_getElem?] at this
      simp [cellAt, hji, Array.getElem?_setIfInBounds_ne (Ne.symm hji), this]

/-- A masked raster of the same buffer length whose cells are those of `k` but cell `i`, which
reads `v`, has the list of cells of `k` with cell `i` replaced. -/
theorem toOptions_eq_set (hsize : k'.data.size = k.data.size)
    (hcell : ∀ j, k'.cellAt j = if j = i then v else k.cellAt j) :
    k'.toOptions = k.toOptions.set i v := by
  rw [toOptions, toOptions, hsize]
  apply List.ext_getElem (by simp)
  intro j hj₁ hj₂
  rw [List.getElem_set, List.getElem_map, List.getElem_map, List.getElem_range, hcell j]
  by_cases hji : j = i
  · simp [hji]
  · simp [hji, Ne.symm hji]

/-- Setting a cell of a masked raster replaces that cell of the list of all cells. -/
theorem toOptions_setValue (hi : i < k.data.size) (hk : k.setValue i v = .ok k') :
    k'.toOptions = k.toOptions.set i v := by
  have hsize : k'.data.size = k.data.size := by
    cases v with
    | some x =>
      obtain ⟨-, -, rfl⟩ := setValue_some_eq_ok.mp hk
      simp
    | none =>
      obtain ⟨-, rfl⟩ := setValue_none_eq_ok.mp hk
      simp
  exact toOptions_eq_set hsize (cellAt_setValue hi hk)

end MaskedRaster

/-! ### Every storage -/

namespace Raster

variable {r r' : Raster} {i : Nat} {x : Option Pixel}

/-- `r'` is `r` with cell `i` written with `x`: a sound raster of the same storage, pixel type
and metadata, whose cell `i` reads `x` as the storage reads it back and whose other cells read
as before. -/
structure WritesCell (r : Raster) (i : Nat) (x : Option Pixel) (r' : Raster) : Prop where
  sound : r'.Sound
  backend_eq : r'.backend = r.backend
  type_eq : r'.type = r.type
  metadata_eq : r'.metadata = r.metadata
  /-- The cell written reads back the value given, as its storage reads it. -/
  value_self : r'.value i = .ok (r.backend.readBack r.type r.metadata.nodata x)
  /-- Every other cell of the grid reads as before. -/
  value_other : ∀ j < r.len, j ≠ i → r'.value j = r.value j

/-- A write keeps the storage, the pixel type and the metadata. -/
theorem setValue_keeps (hs : r.setValue i x = .ok r') :
    r'.backend = r.backend ∧ r'.type = r.type ∧ r'.metadata = r.metadata := by
  cases r with
  | dense d =>
    obtain ⟨d', hd, rfl⟩ := map_eq_ok.mp hs
    obtain ⟨_, -, -, rfl⟩ := DenseRaster.setValue_eq_ok.mp hd
    exact ⟨rfl, rfl, rfl⟩
  | masked k =>
    obtain ⟨k', hk, rfl⟩ := map_eq_ok.mp hs
    cases x with
    | some v =>
      obtain ⟨-, -, rfl⟩ := MaskedRaster.setValue_some_eq_ok.mp hk
      exact ⟨rfl, rfl, rfl⟩
    | none =>
      obtain ⟨-, rfl⟩ := MaskedRaster.setValue_none_eq_ok.mp hk
      refine ⟨rfl, ?_, MaskedRaster.metadata_ensureMask k⟩
      show k.ensureMask.type = k.type
      unfold MaskedRaster.ensureMask
      split <;> rfl
  | sparse s =>
    obtain ⟨s', hs', rfl⟩ := map_eq_ok.mp hs
    exact ⟨rfl, SparseRaster.type_of_setValue_eq_ok hs',
      SparseRaster.metadata_of_setValue_eq_ok hs'⟩

/-- Inside the grid, a write replaces cell `i` of the list of all cells with the cell written,
as the storage reads it back. -/
theorem Wf.toOptions_setValue (h : r.Wf) (hi : i < r.len) (hs : r.setValue i x = .ok r') :
    r'.toOptions = r.toOptions.set i (r.backend.readBack r.type r.metadata.nodata x) := by
  cases r with
  | dense d =>
    obtain ⟨d', hd, rfl⟩ := map_eq_ok.mp hs
    have hopt := DenseRaster.toOptions_setValue (DenseRaster.Wf.policy_eq h) hd
    rw [DenseRaster.Wf.policy_eq h] at hopt
    exact hopt
  | masked k =>
    obtain ⟨k', hk, rfl⟩ := map_eq_ok.mp hs
    have hik : i < k.data.size := by
      rw [MaskedRaster.Wf.size_data h]
      exact hi
    exact MaskedRaster.toOptions_setValue hik hk
  | sparse s =>
    obtain ⟨s', hs', rfl⟩ := map_eq_ok.mp hs
    obtain ⟨⟨rows, hl⟩, hw⟩ := h
    exact hl.toOptions_setValue hw hi hs'

/-- Inside the grid, a write fails only by aborting, on a dense raster asked to make a cell
missing with no value to store for it. -/
theorem Wf.setValue_eq_error_iff (h : r.Wf) (hi : i < r.len) {e : Fault} :
    r.setValue i x = .error e ↔
      e = .abort "Cannot mark a cell as nodata in a raster without nodata value" ∧
        r.backend = .dense ∧ x = none ∧ r.canRepresentNodata = false := by
  cases r with
  | dense d =>
    have hid : i < d.data.size := by
      rw [DenseRaster.Wf.size_data h]
      exact hi
    rw [Raster.setValue, map_eq_error, DenseRaster.setValue_eq_error_iff hid]
    simp [backend, canRepresentNodata]
  | masked k =>
    have hik : i < k.data.size := by
      rw [MaskedRaster.Wf.size_data h]
      exact hi
    obtain ⟨k', hk⟩ := MaskedRaster.Wf.setValue_isOk h hik x
    simp [Raster.setValue, hk, backend]
  | sparse s =>
    obtain ⟨⟨rows, hl⟩, hw⟩ := h
    obtain ⟨s', hs⟩ := hl.setValue_isOk hw hi x
    simp [Raster.setValue, hs, backend]

/-- A write inside the grid of a sound raster writes that cell and no other. -/
theorem Sound.writesCell (h : r.Sound) (hi : i < r.len) (hs : r.setValue i x = .ok r') :
    r.WritesCell i x r' := by
  obtain ⟨hb, ht, hm⟩ := setValue_keeps hs
  have h' := h.setValue hs
  have hlen : r'.len = r.len := by simp only [len, hm]
  have hopt := h.wf.toOptions_setValue hi hs
  have hi' : i < r.toOptions.length := h.wf.length_toOptions ▸ hi
  refine ⟨h', hb, ht, hm, ?_, fun j hj hji => ?_⟩
  · rw [h'.wf.value_eq (hlen ▸ hi), hopt, List.getD_eq_getElem?_getD, List.getElem?_set_self hi',
      Option.getD_some]
  · rw [h'.wf.value_eq (hlen ▸ hj), h.wf.value_eq hj, hopt, List.getD_eq_getElem?_getD,
      List.getElem?_set_ne (Ne.symm hji), ← List.getD_eq_getElem?_getD]

/-- On a reachable raster, a write inside the grid either gives a reachable raster with that
cell written and every other cell as before, or aborts, exactly when the raster is dense, the
cell is to be missing and there is no value to store for a missing cell. -/
theorem Reachable.setValue_writesCell (h : r.Reachable) (hi : i < r.len) (x : Option Pixel) :
    (∀ r', r.setValue i x = .ok r' → r'.Reachable ∧ r.WritesCell i x r') ∧
    (∀ e, r.setValue i x = .error e ↔
      e = .abort "Cannot mark a cell as nodata in a raster without nodata value" ∧
        r.backend = .dense ∧ x = none ∧ r.canRepresentNodata = false) := by
  have hs := h.sound
  refine ⟨fun r' hr' => ⟨h.step (.setValue hr'), hs.writesCell hi hr'⟩, fun e => ?_⟩
  exact hs.wf.setValue_eq_error_iff hi

/-- A sparse raster of two rows of three 32-bit integers with nodata value `-1`, storing its third
and fourth cells, is reachable: a value inserted into its empty second cell, and the value of its
fourth cell removed, each write that cell and no other, and neither fails. A new dense raster of
32-bit integers without a nodata value has no value to store for a missing cell: marking its
first cell missing aborts. -/
theorem setValue_writesCell_sparse_insert_remove :
    ∃ r, Backend.sparse.ofList .int32 (Metadata.sized ⟨2, 3⟩ (some (BinaryFloat.ofInt (-1))))
        [.int (-1), .int (-1), .int 7, .int 4, .int (-1), .int (-1)] = .ok r ∧
      ((∀ r', r.setValue 1 (some (.int 9)) = .ok r' →
          r'.Reachable ∧ r.WritesCell 1 (some (.int 9)) r') ∧
        (∀ e, r.setValue 1 (some (.int 9)) = .error e ↔
          e = .abort "Cannot mark a cell as nodata in a raster without nodata value" ∧
            r.backend = .dense ∧ some (Pixel.int 9) = none ∧ r.canRepresentNodata = false)) ∧
      ((∀ r', r.setValue 3 none = .ok r' → r'.Reachable ∧ r.WritesCell 3 none r') ∧
        (∀ e, r.setValue 3 none = .error e ↔
          e = .abort "Cannot mark a cell as nodata in a raster without nodata value" ∧
            r.backend = .dense ∧ (none : Option Pixel) = none ∧ r.canRepresentNodata = false)) ∧
      (∀ r',
        (dense ⟨.int32, Metadata.ofRowsCols 1 2, #[.int 0, .int 0],
          PixelType.int32.policy none⟩).setValue 0 none = .ok r' →
        r'.Reachable ∧
          (dense ⟨.int32, Metadata.ofRowsCols 1 2, #[.int 0, .int 0],
            PixelType.int32.policy none⟩).WritesCell 0 none r') ∧
      (∀ e,
        (dense ⟨.int32, Metadata.ofRowsCols 1 2, #[.int 0, .int 0],
          PixelType.int32.policy none⟩).setValue 0 none = .error e ↔
        e = .abort "Cannot mark a cell as nodata in a raster without nodata value" ∧
          (dense ⟨.int32, Metadata.ofRowsCols 1 2, #[.int 0, .int 0],
            PixelType.int32.policy none⟩).backend = .dense ∧
          (none : Option Pixel) = none ∧
          (dense ⟨.int32, Metadata.ofRowsCols 1 2, #[.int 0, .int 0],
            PixelType.int32.policy none⟩).canRepresentNodata = false) := by
  obtain ⟨r, hr⟩ : ∃ r, Backend.sparse.ofList .int32
      (Metadata.sized ⟨2, 3⟩ (some (BinaryFloat.ofInt (-1))))
      [.int (-1), .int (-1), .int 7, .int 4, .int (-1), .int (-1)] = .ok r := ⟨_, rfl⟩
  have hreach : r.Reachable := .built (.ofList ⟨rfl, rfl⟩ hr)
  have hlen : r.len = 6 := by
    cases hr
    rfl
  have hdense : (dense ⟨.int32, Metadata.ofRowsCols 1 2, #[.int 0, .int 0],
      PixelType.int32.policy none⟩).Reachable :=
    .built (.new (b := .dense) (t := .int32) (m := Metadata.ofRowsCols 1 2) ⟨rfl, rfl⟩ rfl)
  exact ⟨r, hr, Reachable.setValue_writesCell hreach (by omega) (some (.int 9)),
    Reachable.setValue_writesCell hreach (by omega) none,
    Reachable.setValue_writesCell hdense (by decide) none⟩

end Raster

end Georaster
