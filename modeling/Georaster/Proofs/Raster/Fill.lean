import Georaster.Proofs.Raster.Traversal
/-!
# Filling a raster with one value

Filling sets every cell to one value, and each storage decides in its own way which cells then
read as missing:

* a dense raster overwrites its buffer and reads it through its nodata policy, so every cell is
  missing exactly when the policy reads the value as missing: NaN for a floating-point type
  (whatever the nodata value of the metadata), the nodata value for an integral type;
* a sparse raster is cleared when the value marks nodata (`isNodataValue`: NaN or equal to its
  nodata value) and stores the value in every cell otherwise;
* a masked raster with a nodata value in its metadata flags every cell when the value marks
  nodata and drops its mask otherwise; without a nodata value it keeps its mask, so its data
  cells read the value.

`Raster.marksNodata` is the condition of the sparse and masked storages, NaN in a floating-point
type or equal to the raster's nodata value; it is also the dense condition for integral types.
The two storages test equality with their nodata value in opposite orders, which agree because
equality of values is symmetric (`Pixel.eq_comm`). `Raster.Reachable.fillReads` gives the cells
of every reachable raster filled with a value of its type; resizing and filling fills the
resized raster, which is reachable too.
-/

namespace Georaster

/-! ### Equality of values -/

namespace BinaryFloat

theorem Place.compare_eq_eq_comm (a b : Place) : a.compare b = .eq ↔ b.compare a = .eq := by
  cases a with
  | finite n e =>
    cases b with
    | finite m k =>
      -- both are brought to the smaller exponent, and are equal there or not
      simp only [Place.compare, Int.min_comm e k, Int.compare_eq_eq]
      exact ⟨Eq.symm, Eq.symm⟩
    | negInf | posInf => simp [Place.compare]
  | negInf | posInf => cases b <;> simp [Place.compare]

/-- Two values are equal as numbers in either order. -/
theorem eq_comm {f : FloatFormat} (x y : BinaryFloat f) : x.eq y = y.eq x := by
  unfold eq compare?
  cases x.place <;> cases y.place
  · rfl
  · rfl
  · rfl
  · rename_i a b
    rw [Bool.eq_iff_iff]
    simp only [beq_iff_eq, Option.some.injEq]
    exact Place.compare_eq_eq_comm a b

end BinaryFloat

/-- Two values are equal in either order. -/
theorem Pixel.eq_comm (a b : Pixel) : a.eq b = b.eq a := by
  cases a <;> cases b <;> simp only [Pixel.eq, BinaryFloat.eq_comm, BEq.comm]

/-! ### Values of a pixel type -/

/-- Whether a value is one of the pixel type: an integer in its range for an integral type, a
single-precision value for `float32`, a double-precision one for `float64`. -/
def PixelType.holds (t : PixelType) : Pixel → Bool
  | .int n => t.isIntegral && t.holdsInt n
  | .single _ => decide (t = .float32)
  | .double _ => decide (t = .float64)

/-- A NaN of a pixel type is one of a floating-point type. -/
theorem PixelType.hasNaN_of_holds {t : PixelType} {v : Pixel} (hv : t.holds v = true)
    (hn : v.isNaN = true) : t.hasNaN = true := by
  cases v with
  | int n => simp [Pixel.isNaN] at hn
  | single x =>
    simp only [PixelType.holds, decide_eq_true_eq] at hv
    subst hv
    rfl
  | double x =>
    simp only [PixelType.holds, decide_eq_true_eq] at hv
    subst hv
    rfl

/-! ### The values that mark nodata -/

namespace Raster

/-- Whether a value marks nodata in the raster: NaN in a floating-point type, or equal to the
raster's nodata value. -/
def marksNodata (r : Raster) (v : Pixel) : Bool :=
  (r.type.hasNaN && v.isNaN) || r.nodataValue.any (·.eq v)

/-- Which values mark nodata depends only on the type and the nodata value. -/
theorem marksNodata_congr {r r' : Raster} (ht : r'.type = r.type)
    (hn : r'.nodataValue = r.nodataValue) : r'.marksNodata = r.marksNodata := by
  funext v
  simp only [marksNodata, ht, hn]

end Raster

theorem PixelType.isSome_nan? (t : PixelType) : t.nan?.isSome = t.hasNaN := by
  cases t <;> rfl

namespace DenseRaster

/-- A dense buffer read through the policy of its type and nodata value reads a value as missing
exactly when it is NaN, for a floating-point type, or marks nodata, for an integral type. -/
theorem isMissing_policy {d : DenseRaster} (hp : d.policy = d.type.policy d.metadata.nodata)
    (v : Pixel) :
    d.policy.isMissing v = if d.type.hasNaN then v.isNaN else (Raster.dense d).marksNodata v := by
  rw [hp]
  unfold PixelType.policy
  cases hn : d.type.nan? with
  | some m =>
    have hnan : d.type.hasNaN = true := by rw [← PixelType.isSome_nan?, hn]; rfl
    simp [NodataPolicy.isMissing, hnan]
  | none =>
    have hnan : d.type.hasNaN = false := by rw [← PixelType.isSome_nan?, hn]; rfl
    simp only [hnan, Raster.marksNodata, Raster.type, Raster.nodataValue, nodataValue,
      Bool.false_and, Bool.false_or]
    cases d.type.nodataValue d.metadata.nodata <;> rfl

theorem toOptions_fill (d : DenseRaster) (v : Pixel) :
    (d.fill v).toOptions = List.replicate d.data.size (d.policy.read v) := by
  rw [toOptions, fill, Array.toList_replicate, List.map_replicate]

end DenseRaster

namespace MaskedRaster

variable {k : MaskedRaster}

theorem isNodataValue_eq (k : MaskedRaster) (v : Pixel) :
    k.isNodataValue v = (Raster.masked k).marksNodata v := by
  unfold isNodataValue Raster.marksNodata
  simp only [Raster.type, Raster.nodataValue]
  cases k.nodataValue <;> rfl

/-- With a nodata value in the metadata, filling flags every cell or none. -/
theorem cellAt_fill_of_isSome (hn : k.metadata.nodata.isSome = true) (v : Pixel) {i : Nat}
    (hi : i < k.data.size) :
    (k.fill v).cellAt i = if k.isNodataValue v then none else some v := by
  have hnone : k.metadata.nodata.isNone = false := by
    cases hk : k.metadata.nodata with
    | none => simp [hk] at hn
    | some _ => rfl
  by_cases hv : k.isNodataValue v
  · simp [fill, cellAt, hnone, hv, hi, Array.getD_eq_getD_getElem?]
  · simp [fill, cellAt, hnone, hv, hi]

/-- Without a nodata value, filling keeps the mask: the data cells read the value. -/
theorem cellAt_fill_of_none (hn : k.metadata.nodata = none) (v : Pixel) {i : Nat}
    (hi : i < k.data.size) : (k.fill v).cellAt i = (k.cellAt i).map fun _ => v := by
  simp only [fill, cellAt, hn, Option.isNone_none, if_true, Array.getElem?_replicate, hi,
    Array.getElem?_eq_getElem hi]
  split <;> simp

theorem data_fill (k : MaskedRaster) (v : Pixel) :
    (k.fill v).data = Array.replicate k.data.size v := by
  unfold fill
  split_ifs <;> rfl

theorem toOptions_fill_of_isSome (hn : k.metadata.nodata.isSome = true) (v : Pixel) :
    (k.fill v).toOptions =
      List.replicate k.data.size (if k.isNodataValue v then none else some v) := by
  rw [toOptions, data_fill, Array.size_replicate, List.eq_replicate_iff, List.length_map,
    List.length_range]
  refine ⟨rfl, fun c hc => ?_⟩
  obtain ⟨i, hi, rfl⟩ := List.mem_map.mp hc
  exact cellAt_fill_of_isSome hn v (List.mem_range.mp hi)

theorem toOptions_fill_of_none (hn : k.metadata.nodata = none) (v : Pixel) :
    (k.fill v).toOptions = k.toOptions.map (Option.map fun _ => v) := by
  rw [toOptions, toOptions, data_fill, Array.size_replicate, List.map_map]
  exact List.map_congr_left fun i hi => cellAt_fill_of_none hn v (List.mem_range.mp hi)

end MaskedRaster

namespace SparseRaster

/-- A sparse raster tests a value of its type against its nodata value as the raster does. -/
theorem isNodataValue_eq {s : SparseRaster} {v : Pixel} (hv : s.type.holds v = true) :
    s.isNodataValue v = (Raster.sparse s).marksNodata v := by
  unfold isNodataValue Raster.marksNodata
  simp only [Raster.type, Raster.nodataValue, Option.any_some, Pixel.eq_comm v s.nodata]
  cases hn : v.isNaN
  · simp
  · simp [PixelType.hasNaN_of_holds hv hn]

/-- Every column of a full row holds the value. -/
theorem valueIn_full {cols : Int} (h0 : 0 ≤ cols) {c : Nat} (hc : c < cols.toNat) (v : Pixel) :
    valueIn ((List.range cols.toNat).map fun (c : Nat) => ((c : Int), v)) c = some v :=
  (valueIn_eq_some_iff ((Layout.rowOk_full h0 v).sorted.imp Int.ne_of_lt)).mpr
    (List.mem_map.mpr ⟨c, List.mem_range.mpr hc, rfl⟩)

variable {s : SparseRaster} {rows : List Row}

/-- Filling a laid-out raster empties it or makes every cell the value. -/
theorem Layout.toOptions_fill (h : s.Layout rows) (hw : s.metadata.cols < wordSize) (v : Pixel) :
    (s.fill v).toOptions = List.replicate s.len (if s.isNodataValue v then none else some v) := by
  have hmeta : (s.fill v).metadata = s.metadata := by
    unfold SparseRaster.fill
    split <;> rfl
  have hlen : (s.fill v).len = s.len := by simp only [len, hmeta]
  rw [(h.fill v).toOptions_eq (hmeta ▸ hw), hmeta, hlen, List.eq_replicate_iff]
  refine ⟨List.length_map _ |>.trans List.length_range, fun c hc => ?_⟩
  obtain ⟨i, hi, rfl⟩ := List.mem_map.mp hc
  have hpos : 0 < s.metadata.cols.toNat := Nat.pos_of_ne_zero fun h0 => by
    rw [h.len_eq, h0, Nat.mul_zero] at hi
    exact absurd (List.mem_range.mp hi) (Nat.not_lt_zero _)
  have hrow : i / s.metadata.cols.toNat < rows.length :=
    (Nat.div_lt_iff_lt_mul hpos).mpr (h.len_eq ▸ List.mem_range.mp hi)
  by_cases hv : s.isNodataValue v
  · -- the rows are all empty
    simp [hv, cellOf, List.getD_eq_getElem?_getD, valueIn]
  · -- every row is full
    simp only [hv, if_false, Bool.false_eq_true, cellOf]
    rw [List.getD_replicate _ hrow]
    exact valueIn_full h.cols_nonneg (Nat.mod_lt _ hpos) v

end SparseRaster

/-! ### Filling a reachable raster -/

namespace Raster

variable {r : Raster} {v : Pixel}

@[simp] theorem type_resize (r : Raster) (rows cols : Int) :
    (r.resize rows cols).type = r.type := by
  cases r <;> rfl

/-- The cells of `r` filled with `v`, storage by storage. A sparse raster, or a masked one with
a nodata value, is missing everywhere when `v` marks nodata and reads `v` everywhere otherwise. A
dense raster reads its buffer through its policy, which for a floating-point type marks NaN only.
A masked raster reads `v` in every cell that was data, when `v` does not mark nodata. -/
structure FillReads (r : Raster) (v : Pixel) : Prop where
  uniform : r.backend = .sparse ∨ (r.backend = .masked ∧ r.metadata.nodata ≠ none) →
    (r.fill v).toOptions = List.replicate r.len (if r.marksNodata v then none else some v)
  dense : r.backend = .dense →
    (r.fill v).toOptions = List.replicate r.len
      (if (if r.type.hasNaN then v.isNaN else r.marksNodata v) then none else some v)
  masked_data : r.backend = .masked → r.marksNodata v = false →
    ∀ i < r.len, (r.toOptions.getD i none).isSome → (r.fill v).toOptions.getD i none = some v

theorem fillReads_of_sound (h : r.Sound) (hv : r.type.holds v = true) : r.FillReads v := by
  cases r with
  | dense d =>
    have hw : d.Wf := h.wf
    refine ⟨fun hb => ?_, fun _ => ?_, fun hb => by cases hb⟩
    · rcases hb with hb | ⟨hb, -⟩ <;> cases hb
    · rw [Raster.fill, Raster.toOptions, DenseRaster.toOptions_fill, hw.size_data,
        NodataPolicy.read, DenseRaster.isMissing_policy hw.policy_eq]
      rfl
  | masked k =>
    have hw : k.Wf := h.wf
    have hsome : k.metadata.nodata ≠ none → ((masked k).fill v).toOptions =
        List.replicate (masked k).len (if (masked k).marksNodata v then none else some v) :=
      fun hn => by
        rw [Raster.fill, Raster.toOptions,
          MaskedRaster.toOptions_fill_of_isSome (Option.isSome_iff_ne_none.mpr hn), hw.size_data,
          MaskedRaster.isNodataValue_eq]
        rfl
    refine ⟨fun hb => ?_, (fun hb => by cases hb), fun _ hm i hi hd => ?_⟩
    · rcases hb with hb | ⟨-, hn⟩
      · cases hb
      · exact hsome hn
    by_cases hn : k.metadata.nodata = none
    · -- without a nodata value the mask is kept, and each data cell reads the value
      obtain ⟨x, hx⟩ := Option.isSome_iff_exists.mp hd
      rw [toOptions, List.getD_eq_getElem?_getD] at hx
      rw [Raster.fill, Raster.toOptions, MaskedRaster.toOptions_fill_of_none hn,
        List.getD_eq_getElem?_getD, List.getElem?_map]
      cases hget : k.toOptions[i]? with
      | none => simp [hget] at hx
      | some c =>
        simp only [hget, Option.getD_some] at hx
        simp [hx]
    · rw [hsome hn, hm, List.getD_replicate _ hi]
      rfl
  | sparse s =>
    obtain ⟨rows, hl⟩ := h.sparse_layout
    refine ⟨fun _ => ?_, (fun hb => by cases hb), fun hb => by cases hb⟩
    rw [Raster.fill, Raster.toOptions, hl.toOptions_fill (Wf.cols_lt h.wf) v,
      SparseRaster.isNodataValue_eq hv]
    rfl

/-- Filling a reachable raster with a value of its type reads, storage by storage, as
`FillReads` says; resizing and filling fills the resized raster, which is reachable too. -/
theorem Reachable.fillReads (h : r.Reachable) (hv : r.type.holds v = true) :
    r.FillReads v ∧ ∀ rows cols : Int, Coord.fits rows = true → Coord.fits cols = true →
      (r.resize rows cols).Reachable ∧ (r.resize rows cols).FillReads v ∧
        r.resizeAndFill rows cols v = (r.resize rows cols).fill v := by
  refine ⟨fillReads_of_sound h.sound hv, fun rows cols hr hc => ?_⟩
  have hres : (r.resize rows cols).Reachable := .step h (.resize r hr hc)
  refine ⟨hres, fillReads_of_sound hres.sound ?_, resizeAndFill_eq r rows cols v⟩
  rwa [type_resize]

/-- One row of two zero doubles with nodata value `5`, as a new dense raster holds it. -/
def DenseRaster.zerosNodataFive : DenseRaster :=
  ⟨.float64, Metadata.sized ⟨1, 2⟩ (some (BinaryFloat.ofInt 5)),
    #[.double Metadata.zero, .double Metadata.zero],
    PixelType.float64.policy (some (BinaryFloat.ofInt 5))⟩

theorem fillReads_dense_new :
    (dense DenseRaster.zerosNodataFive).FillReads (.double (BinaryFloat.ofInt 5)) ∧
    ∀ rows cols : Int, Coord.fits rows = true → Coord.fits cols = true →
      ((dense DenseRaster.zerosNodataFive).resize rows cols).Reachable ∧
      ((dense DenseRaster.zerosNodataFive).resize rows cols).FillReads
          (.double (BinaryFloat.ofInt 5)) ∧
      (dense DenseRaster.zerosNodataFive).resizeAndFill rows cols (.double (BinaryFloat.ofInt 5)) =
        ((dense DenseRaster.zerosNodataFive).resize rows cols).fill
          (.double (BinaryFloat.ofInt 5)) :=
  Reachable.fillReads
    (.built (.new (b := .dense) (t := .float64)
      (m := Metadata.sized ⟨1, 2⟩ (some (BinaryFloat.ofInt 5))) ⟨rfl, rfl⟩ rfl))
    rfl

/-- A dense floating-point raster filled with its own nodata value reads the value in every
cell: its buffer marks missing cells with NaN only. -/
theorem dense_fill_nodataValue_reads_data :
    (dense DenseRaster.zerosNodataFive).Reachable ∧
    (dense DenseRaster.zerosNodataFive).marksNodata (.double (BinaryFloat.ofInt 5)) = true ∧
    ((dense DenseRaster.zerosNodataFive).fill (.double (BinaryFloat.ofInt 5))).toOptions =
      [some (.double (BinaryFloat.ofInt 5)), some (.double (BinaryFloat.ofInt 5))] :=
  ⟨.built (.new (b := .dense) (t := .float64)
      (m := Metadata.sized ⟨1, 2⟩ (some (BinaryFloat.ofInt 5))) ⟨rfl, rfl⟩ rfl), rfl, rfl⟩

end Raster

end Georaster
