import Georaster.Proofs.Raster.Transform
/-!
# Turning a value into nodata

`turnValueIntoNodata v` makes missing every data cell whose value equals `v`, as numbers (both
zeros match each other, NaN matches nothing), and leaves every other cell as it was. Each storage
does it in its own way:

* a dense raster rewrites every stored value equal to `v` with the value it stores for a missing
  cell, a stored value that already marks a missing cell included; an integral raster without
  nodata value has no such value and refuses before it changes anything;
* a masked raster flags every cell whose stored value equals `v`, a flagged cell included, and
  allocates its mask on the first such cell;
* a sparse raster drops the entries equal to `v`, compacting its rows.

In all three the cells read back are the old ones with the values equal to `v` filtered out
(`Raster.Sound.toOptions_turnValueIntoNodata`); the dense rewrite agrees with it because the
stored missing value reads as missing, the masked one because the mask keeps the cells it flagged,
the sparse one because a row holds at most one entry per column.
-/

namespace Georaster

namespace NodataPolicy

/-- Reading a stored value in which a value equal to `v` is replaced by one that reads as missing
is reading the stored value with `v` filtered out. -/
theorem read_replaceEq {p : NodataPolicy} {n : Pixel} (hn : p.read n = none) (v x : Pixel) :
    p.read (if x.eq v then n else x) = (p.read x).filter fun w => !w.eq v := by
  by_cases hx : x.eq v = true
  · rw [if_pos hx, hn]
    unfold read
    split <;> simp [Option.filter_some, hx]
  · rw [if_neg hx]
    unfold read
    split <;> simp [Option.filter_some, hx]

end NodataPolicy

/-! ### Dense rasters -/

namespace DenseRaster

variable {d d' : DenseRaster} {v : Pixel}

/-- Turning a value into nodata fails exactly when the raster cannot store a missing cell. -/
theorem turnValueIntoNodata_eq_error_iff {e : RasterError} :
    d.turnValueIntoNodata v = .error e ↔
      d.canRepresentNodata = false ∧ e = .invalidConfiguration "Raster has no nodata value" := by
  unfold turnValueIntoNodata missingValue canRepresentNodata
  cases d.policy.missingValue with
  | none =>
    simp only [error_bind, Except.error.injEq, Option.isSome_none, true_and]
    exact eq_comm
  | some n => simp

/-- A successful turn rewrites the stored values equal to `v` with the stored missing value. -/
theorem turnValueIntoNodata_eq_ok (h : d.turnValueIntoNodata v = .ok d') :
    ∃ n, d.policy.missingValue = some n ∧
      d' = { d with data := d.data.map fun x => if x.eq v then n else x } := by
  unfold turnValueIntoNodata missingValue at h
  cases hm : d.policy.missingValue with
  | none => simp [hm] at h
  | some n =>
    simp only [hm, ok_bind, pure_eq_ok] at h
    exact ⟨n, rfl, h.symm⟩

theorem Wf.toOptions_turnValueIntoNodata (hw : d.Wf) (h : d.turnValueIntoNodata v = .ok d') :
    d'.toOptions = d.toOptions.map (Option.filter fun w => !w.eq v) := by
  obtain ⟨n, hn, rfl⟩ := turnValueIntoNodata_eq_ok h
  have hread : d.policy.read n = none := by
    rw [hw.policy_eq] at hn ⊢
    exact PixelType.read_missingValue hn
  simp only [toOptions, Array.toList_map, List.map_map]
  exact List.map_congr_left fun x _ => NodataPolicy.read_replaceEq hread v x

end DenseRaster

/-! ### Masked rasters -/

namespace MaskedRaster

variable {k : MaskedRaster}

/-- The mask after turning `v` into nodata flags a cell where the old mask did or where the
stored value equals `v`. -/
theorem getD_mask_turnValueIntoNodata (h : k.Wf) (v : Pixel) {i : Nat} (hi : i < k.data.size)
    (hany : k.data.any (·.eq v) = true) :
    (k.turnValueIntoNodata v).mask.getD i false = (k.mask.getD i false || k.data[i].eq v) := by
  have hsize : k.ensureMask.mask.size = k.data.size := h.size_ensureMask (by omega)
  have hmi : i < k.ensureMask.mask.size := by omega
  have hzi : i < (k.data.zip k.ensureMask.mask).size := by
    simp [Array.size_zip, hsize, hi]
  rw [← getD_mask_ensureMask k i]
  simp only [turnValueIntoNodata, hany, if_true, data_ensureMask, Array.getD_eq_getD_getElem?,
    Array.getElem?_map, Array.getElem?_eq_getElem hzi, Array.getElem?_eq_getElem hmi,
    Option.map_some, Option.getD_some, Array.getElem_zip]

theorem cellAt_turnValueIntoNodata (h : k.Wf) (v : Pixel) {i : Nat} (hi : i < k.data.size) :
    (k.turnValueIntoNodata v).cellAt i = (k.cellAt i).filter fun w => !w.eq v := by
  have hdata : (k.turnValueIntoNodata v).data = k.data := by
    unfold turnValueIntoNodata
    split <;> simp
  have hcell : k.cellAt i = if k.mask.getD i false then none else some k.data[i] := by
    simp [cellAt, hi]
  rw [hcell, cellAt, hdata, Array.getElem?_eq_getElem hi]
  by_cases hany : k.data.any (·.eq v) = true
  · -- some value equals `v`: its cells are flagged besides those flagged before
    rw [getD_mask_turnValueIntoNodata h v hi hany]
    cases k.mask.getD i false <;> by_cases hx : k.data[i].eq v = true <;>
      simp [Option.filter_some, hx]
  · -- no value equals `v`: nothing changes
    have hx : k.data[i].eq v = false := by
      simpa using Array.any_eq_false.mp (Bool.eq_false_iff.mpr hany) i hi
    simp only [turnValueIntoNodata, hany, Bool.false_eq_true, if_false]
    cases k.mask.getD i false <;> simp [Option.filter_some, hx]

theorem toOptions_turnValueIntoNodata (h : k.Wf) (v : Pixel) :
    (k.turnValueIntoNodata v).toOptions = k.toOptions.map (Option.filter fun w => !w.eq v) := by
  have hsize : (k.turnValueIntoNodata v).data.size = k.data.size := by
    unfold turnValueIntoNodata
    split <;> simp
  rw [toOptions, toOptions, hsize, List.map_map]
  exact List.map_congr_left fun i hi =>
    cellAt_turnValueIntoNodata h v (List.mem_range.mp hi)

end MaskedRaster

/-! ### Sparse rasters -/

namespace SparseRaster

variable {s : SparseRaster} {rows : List Row}

/-- In a row with one entry per column, keeping the entries whose value passes a test keeps the
value at each column that passes it. -/
theorem valueIn_filter {row : Row} (hd : (row.map (·.1)).Nodup) (keep : Pixel → Bool) (c : Int) :
    valueIn (row.filter fun e => keep e.2) c = (valueIn row c).filter keep := by
  have hsub : ((row.filter fun e => keep e.2).map (·.1)).Sublist (row.map (·.1)) :=
    List.filter_sublist.map _
  cases hv : valueIn row c with
  | none =>
    rw [valueIn_eq_none_iff] at hv
    rw [Option.filter_none, valueIn_eq_none_iff]
    exact fun hmem => hv (hsub.subset hmem)
  | some w =>
    have hmem := (valueIn_eq_some_iff hd).mp hv
    rw [Option.filter_some]
    by_cases hk : keep w = true
    · rw [if_pos hk]
      exact (valueIn_eq_some_iff (hd.sublist hsub)).mpr (List.mem_filter.mpr ⟨hmem, hk⟩)
    · -- the only entry of the column is dropped
      rw [if_neg hk, valueIn_eq_none_iff]
      intro hc
      obtain ⟨e, he, hce⟩ := List.mem_map.mp hc
      obtain ⟨he, hke⟩ := List.mem_filter.mp he
      obtain rfl := List.inj_on_of_nodup_map hd he hmem hce
      exact hk hke

/-- Keeping, in rows with one entry per column, the entries whose value passes a test keeps each
cell whose value passes it. -/
theorem cellOf_filter (hrows : ∀ row ∈ rows, (row.map (·.1)).Nodup) (keep : Pixel → Bool)
    (cols i : Nat) :
    cellOf (rows.map (·.filter fun e => keep e.2)) cols i = (cellOf rows cols i).filter keep := by
  unfold cellOf
  have hget : (rows.map (·.filter fun e => keep e.2)).getD (i / cols) [] =
      (rows.getD (i / cols) []).filter fun e => keep e.2 :=
    List.getD_map rows [] (·.filter fun e => keep e.2)
  rw [hget]
  apply valueIn_filter
  rw [List.getD_eq_getElem?_getD]
  cases hk : rows[i / cols]? with
  | none => exact List.nodup_nil
  | some row => exact hrows row (List.mem_of_getElem? hk)

theorem Layout.toOptions_turnValueIntoNodata (h : s.Layout rows)
    (hw : s.metadata.cols < wordSize) (v : Pixel) :
    (s.turnValueIntoNodata v).toOptions = s.toOptions.map (Option.filter fun w => !w.eq v) := by
  rw [(h.turnValueIntoNodata v).toOptions_eq hw, h.toOptions_eq hw, List.map_map]
  refine List.map_congr_left fun i _ => ?_
  exact cellOf_filter (fun row hrow => (h.row_ok row hrow).sorted.imp Int.ne_of_lt)
    (fun w => !w.eq v) s.metadata.cols.toNat i

end SparseRaster

/-! ### Every storage -/

namespace Raster

variable {r r' : Raster} {v : Pixel}

/-- Turning a value into nodata fails exactly when the raster cannot store a missing cell, and
then with the configuration error that it has no nodata value. -/
theorem turnValueIntoNodata_eq_error_iff {e : RasterError} :
    r.turnValueIntoNodata v = .error e ↔
      r.canRepresentNodata = false ∧ e = .invalidConfiguration "Raster has no nodata value" := by
  cases r with
  | dense d =>
    rw [turnValueIntoNodata, map_eq_error]
    exact DenseRaster.turnValueIntoNodata_eq_error_iff
  | masked k => simp [turnValueIntoNodata, canRepresentNodata]
  | sparse s => simp [turnValueIntoNodata, canRepresentNodata]

/-- Turning a value into nodata keeps the storage, the pixel type and the metadata. -/
theorem turnValueIntoNodata_keeps (hs : r.turnValueIntoNodata v = .ok r') :
    r'.backend = r.backend ∧ r'.type = r.type ∧ r'.metadata = r.metadata := by
  cases r with
  | dense d =>
    obtain ⟨d', hd, rfl⟩ := map_eq_ok.mp hs
    obtain ⟨n, -, rfl⟩ := DenseRaster.turnValueIntoNodata_eq_ok hd
    exact ⟨rfl, rfl, rfl⟩
  | masked k =>
    cases hs
    unfold MaskedRaster.turnValueIntoNodata
    split <;> simp [backend, type, metadata]
  | sparse s =>
    cases hs
    exact ⟨rfl, rfl, rfl⟩

/-- On a sound raster, turning `v` into nodata filters `v` out of the cells read back. -/
theorem Sound.toOptions_turnValueIntoNodata (h : r.Sound) (hs : r.turnValueIntoNodata v = .ok r') :
    r'.toOptions = r.toOptions.map (Option.filter fun w => !w.eq v) := by
  cases r with
  | dense d =>
    obtain ⟨d', hd, rfl⟩ := map_eq_ok.mp hs
    exact DenseRaster.Wf.toOptions_turnValueIntoNodata h.wf hd
  | masked k =>
    cases hs
    exact MaskedRaster.toOptions_turnValueIntoNodata h.wf v
  | sparse s =>
    cases hs
    obtain ⟨rows, hl⟩ := h.sparse_layout
    exact hl.toOptions_turnValueIntoNodata (Wf.cols_lt h.wf) v

/-- Turning a value `v` into nodata in a reachable raster. It fails exactly for a dense raster of
an integral type without nodata value, with the configuration error that the raster has no nodata
value, and gives no raster, so the raster it was called on is kept. Otherwise the result is
reachable, with the storage, type and metadata of the raster, and each cell that held a value equal
to `v` is missing while every other cell, missing or not, reads as before. -/
theorem Reachable.turnValueIntoNodata_drops (h : r.Reachable) (v : Pixel) :
    (r.backend = .dense ∧ r.type.hasNaN = false ∧ r.metadata.nodata = none →
      r.turnValueIntoNodata v = .error (.invalidConfiguration "Raster has no nodata value")) ∧
    (¬(r.backend = .dense ∧ r.type.hasNaN = false ∧ r.metadata.nodata = none) →
      ∃ r', r.turnValueIntoNodata v = .ok r' ∧ r'.Reachable ∧ r'.backend = r.backend ∧
        r'.type = r.type ∧ r'.metadata = r.metadata ∧
        ∀ i < r.len, ∃ x, r.value i = .ok x ∧ r'.value i = .ok (x.filter fun w => !w.eq v)) := by
  have hcan := h.nodataAccepted.canRepresentNodata_eq_false_iff h.sound.wf
  refine ⟨fun hd => turnValueIntoNodata_eq_error_iff.mpr ⟨hcan.mpr hd, rfl⟩, fun hd => ?_⟩
  cases hs : r.turnValueIntoNodata v with
  | error e => exact absurd (hcan.mp (turnValueIntoNodata_eq_error_iff.mp hs).1) hd
  | ok r' =>
    have hr' : r'.Reachable := .step h (.turnValueIntoNodata hs)
    obtain ⟨hb, ht, hm⟩ := turnValueIntoNodata_keeps hs
    have hlen : r'.len = r.len := by simp only [len, hm]
    refine ⟨r', rfl, hr', hb, ht, hm, fun i hi => ⟨_, h.sound.wf.value_eq hi, ?_⟩⟩
    -- the cell is read from the filtered list of cells
    rw [hr'.sound.wf.value_eq (hlen ▸ hi), h.sound.toOptions_turnValueIntoNodata hs]
    exact congrArg Except.ok (List.getD_map r.toOptions none (Option.filter fun w => !w.eq v))

/-- A new masked raster of two double zeros: turning zero into nodata succeeds and makes every cell
missing. -/
theorem turnValueIntoNodata_drops_masked_new :
    ((masked ⟨.float64, Metadata.ofRowsCols 1 2, #[.double Metadata.zero, .double Metadata.zero],
        #[]⟩).backend = .dense ∧
      (masked ⟨.float64, Metadata.ofRowsCols 1 2, #[.double Metadata.zero, .double Metadata.zero],
        #[]⟩).type.hasNaN = false ∧
      (masked ⟨.float64, Metadata.ofRowsCols 1 2, #[.double Metadata.zero, .double Metadata.zero],
        #[]⟩).metadata.nodata = none →
      (masked ⟨.float64, Metadata.ofRowsCols 1 2, #[.double Metadata.zero, .double Metadata.zero],
        #[]⟩).turnValueIntoNodata (.double Metadata.zero) =
        .error (.invalidConfiguration "Raster has no nodata value")) ∧
    (¬((masked ⟨.float64, Metadata.ofRowsCols 1 2, #[.double Metadata.zero, .double Metadata.zero],
        #[]⟩).backend = .dense ∧
      (masked ⟨.float64, Metadata.ofRowsCols 1 2, #[.double Metadata.zero, .double Metadata.zero],
        #[]⟩).type.hasNaN = false ∧
      (masked ⟨.float64, Metadata.ofRowsCols 1 2, #[.double Metadata.zero, .double Metadata.zero],
        #[]⟩).metadata.nodata = none) →
      ∃ r', (masked ⟨.float64, Metadata.ofRowsCols 1 2,
          #[.double Metadata.zero, .double Metadata.zero], #[]⟩).turnValueIntoNodata
            (.double Metadata.zero) = .ok r' ∧ r'.Reachable ∧
        r'.backend = .masked ∧ r'.type = .float64 ∧ r'.metadata = Metadata.ofRowsCols 1 2 ∧
        ∀ i < (masked ⟨.float64, Metadata.ofRowsCols 1 2,
            #[.double Metadata.zero, .double Metadata.zero], #[]⟩).len,
          ∃ x, (masked ⟨.float64, Metadata.ofRowsCols 1 2,
              #[.double Metadata.zero, .double Metadata.zero], #[]⟩).value i = .ok x ∧
            r'.value i = .ok (x.filter fun w => !w.eq (.double Metadata.zero))) :=
  Reachable.turnValueIntoNodata_drops
    (.built (.new (b := .masked) (t := .float64) (m := Metadata.ofRowsCols 1 2) ⟨rfl, rfl⟩ rfl))
    (.double Metadata.zero)

end Raster

end Georaster
