import Georaster.Proofs.Raster.Storage
import Georaster.Algebra
/-!
# The algebra, cell by cell

Every operation of the algebra builds its result from the cells of its operands: two rasters are
zipped (`zipCells`) and a single raster is mapped (`mapValues`), and the result has the storage of
the (left) operand. So a cell of the result is the operation applied to the cells of the operands,
as the result's storage reads it back (`Backend.readBack`). A dense result stores its cells
in-band, so a computed value equal to its nodata value, or NaN, reads back as missing: this is the
one place where a cell of a result differs from the computed cell.

Mapping a sparse raster visits its stored cells only, and stores exactly those that the map sends
to a value.
-/

namespace Georaster

/-! ### Mapping the entries of a sparse raster -/

namespace SparseRaster

theorem getD_map_mapRow (f : Pixel → Option Pixel) (rows : List Row) (k : Nat) :
    (rows.map (mapRow f)).getD k [] = mapRow f (rows.getD k []) := by
  simp only [List.getD_eq_getElem?_getD, List.getElem?_map]
  cases rows[k]? <;> rfl

namespace Layout

variable {s q : SparseRaster} {rows : List Row}

/-- A cell of the mapped rows is the cell of the rows, mapped. -/
theorem cellOf_map_mapRow (h : s.Layout rows) (f : Pixel → Option Pixel) (cols i : Nat) :
    cellOf (rows.map (mapRow f)) cols i = (cellOf rows cols i).bind f := by
  unfold cellOf
  rw [getD_map_mapRow]
  by_cases hk : i / cols < rows.length
  · rw [List.getD_eq_getElem _ _ hk]
    exact valueIn_mapRow f ((h.row_ok _ (List.getElem_mem hk)).sorted.imp Int.ne_of_lt) _
  · rw [List.getD_eq_default _ _ (by omega)]
    rfl

/-- Mapping a laid-out raster stores exactly the stored cells that the map sends to a value. -/
theorem storedCells_mapValues (h : s.Layout rows) {t : PixelType} {n : Option Binary64}
    {f : Pixel → Option Pixel} (hq : s.mapValues t n f = .ok q) :
    q.storedCells = s.storedCells.filterMap fun e => (f e.2).map fun v => (e.1, v) := by
  rw [(h.mapValues hq).storedCells_eq, h.storedCells_eq, List.filterMap_flatMap, List.length_map]
  apply List.flatMap_congr
  intro k _
  rw [getD_map_mapRow, mapRow, List.filterMap_map, List.map_filterMap]
  apply List.filterMap_congr
  intro e _
  cases hf : f e.2 <;> simp [hf]

end Layout

variable {s q : SparseRaster}

/-- Mapping a well-formed sparse raster keeps its storage invariant and maps every cell. -/
theorem mapValues_eq_ok (hs : s.Wf) {t : PixelType} {n : Option Binary64}
    {f : Pixel → Option Pixel} (h : s.mapValues t n f = .ok q) :
    q.Wf ∧ q.type = t ∧ q.metadata = s.metadata.withNodata n ∧
      ∀ i < s.len, q.value i = .ok ((s.toOptions.getD i none).bind f) := by
  obtain ⟨⟨rows, hl⟩, hw⟩ := hs
  have hq := hl.mapValues h
  obtain ⟨ht, hmeta, -⟩ := ofSortedEntries_eq_ok (by rwa [mapValues_eq] at h)
  have hw' : q.metadata.cols < wordSize := by rw [hmeta]; exact hw
  refine ⟨⟨⟨_, hq⟩, hw'⟩, ht, hmeta, fun i hi => ?_⟩
  have hi' : i < q.len := by
    rw [len, hmeta]
    exact hi
  rw [hq.value_eq hw' hi', hl.toOptions_eq hw, hmeta]
  simp [List.getD_eq_getElem?_getD, hi, Metadata.withNodata, hl.cellOf_map_mapRow]

end SparseRaster

namespace Raster

variable {a b r q : Raster}

/-! ### Mapping a raster -/

/-- `q` is `r` with every cell mapped by `f` into type `t`, with nodata value `n`: the storage and
metadata of `r` but for the nodata value, each cell the mapped cell of `r` as the storage of `r`
reads it back, and, for a sparse raster, exactly the stored cells that `f` maps to a value. -/
structure MapsCells (r q : Raster) (t : PixelType) (n : Option Binary64)
    (f : Pixel → Option Pixel) : Prop where
  wf : q.Wf
  backend_eq : q.backend = r.backend
  type_eq : q.type = t
  metadata_eq : q.metadata = r.metadata.withNodata n
  value_eq : ∀ i < r.len, ∃ x, r.value i = .ok x ∧
    q.value i = .ok (r.backend.readBack t n (x.bind f))
  storedCells_eq : ∀ s, r = .sparse s → ∃ s', q = .sparse s' ∧
    s'.storedCells = s.storedCells.filterMap fun e => (f e.2).map fun v => (e.1, v)

/-- A dense or masked raster is mapped by rebuilding it from its mapped cells. -/
theorem mapsCells_of_ofCells {t : PixelType} {n : Option Binary64} {f : Pixel → Option Pixel}
    (hr : r.Wf) (hs : ∀ s, r ≠ .sparse s)
    (h : r.backend.ofCells t (r.metadata.withNodata n)
      (fun i => (r.toOptions.toArray.getD i none).bind f) = .ok q) :
    MapsCells r q t n f := by
  have hq := Backend.ofCells_eq_ok (m := r.metadata.withNodata n) hr.cols_lt h
  simp only [getD_toArray, Metadata.withNodata_nodata] at hq
  exact ⟨hq.wf, hq.backend_eq, hq.type_eq, hq.metadata_eq,
    fun i hi => ⟨_, hr.value_eq hi, hq.value_eq i hi⟩, fun s hrs => absurd hrs (hs s)⟩

/-- Mapping the values of a well-formed raster maps every cell. -/
theorem mapsCells_mapValues {t : PixelType} {n : Option Binary64} {f : Pixel → Option Pixel}
    (hr : r.Wf) (h : r.mapValues t n f = .ok q) : MapsCells r q t n f := by
  cases r with
  | sparse s =>
    obtain ⟨s', hs', rfl⟩ := map_eq_ok.mp h
    obtain ⟨hw, ht, hmeta, hv⟩ := SparseRaster.mapValues_eq_ok hr hs'
    obtain ⟨rows, hl⟩ := hr.layout
    refine ⟨hw, rfl, ht, hmeta, fun i hi => ⟨_, SparseRaster.Wf.value_eq hr hi, hv i hi⟩, ?_⟩
    -- the stored cells are those of the raster that the map keeps
    rintro s₀ ⟨⟩
    exact ⟨s', rfl, hl.storedCells_mapValues hs'⟩
  | dense d => exact mapsCells_of_ofCells hr (fun _ hs => by cases hs) h
  | masked m => exact mapsCells_of_ofCells hr (fun _ hs => by cases hs) h

/-! ### Combining two rasters -/

section Zip

variable {t : PixelType} {n : Option Binary64} {f : Option Pixel → Option Pixel → Option Pixel}

theorem zipCells_of_size_ne (h : a.size ≠ b.size) :
    zipCells a b t n f = .error (.sizeMismatch (a.metadata.rows.toNat, a.metadata.cols.toNat)
      (b.metadata.rows.toNat, b.metadata.cols.toNat)) := by
  simp [zipCells, checkDimensions, h]

theorem zipCells_of_size_eq (h : a.size = b.size) :
    zipCells a b t n f = a.backend.ofCells t (a.metadata.withNodata n)
      fun i => f (a.toOptions.getD i none) (b.toOptions.getD i none) := by
  simp [zipCells, checkDimensions, h]

theorem len_eq_of_size_eq (h : a.size = b.size) : a.len = b.len :=
  congrArg GridSize.cellCount h

/-- Zipping two rasters of one size, the left one well formed, builds with the storage and the
metadata of the left one the raster of the combined cells, as that storage reads them back. -/
theorem zipCells_eq_ok (ha : a.Wf) (h : zipCells a b t n f = .ok r) :
    a.size = b.size ∧ r.Holds a.backend t (a.metadata.withNodata n)
      fun i => a.backend.readBack t n (f (a.toOptions.getD i none) (b.toOptions.getD i none)) := by
  by_cases hs : a.size = b.size
  · rw [zipCells_of_size_eq hs] at h
    have hr := Backend.ofCells_eq_ok (m := a.metadata.withNodata n) ha.cols_lt h
    rw [Metadata.withNodata_nodata] at hr
    exact ⟨hs, hr⟩
  · rw [zipCells_of_size_ne hs] at h
    cases h

end Zip

/-- An operation of two rasters gives what zipping them gives, but that a division may reword its
runtime error. -/
theorem binary_eq_or_reworded (op : BinaryOp) (a b : Raster) :
    binary op a b = zipCells a b (op.resultType (a.type.widest b.type)) (binaryNodata op a b)
        (fun x y => combine (a.type.widest b.type) x y (op.kernel (a.type.widest b.type))) ∨
      ∃ m m', zipCells a b (op.resultType (a.type.widest b.type)) (binaryNodata op a b)
          (fun x y => combine (a.type.widest b.type) x y (op.kernel (a.type.widest b.type))) =
          .error (.runtime m) ∧ binary op a b = .error (.runtime m') := by
  unfold binary
  dsimp only
  generalize zipCells a b (op.resultType (a.type.widest b.type)) (binaryNodata op a b)
    (fun x y => combine (a.type.widest b.type) x y (op.kernel (a.type.widest b.type))) = z
  -- one case per operation and outcome of the zip: only a division's runtime error changes
  rcases z with e | r' <;> rcases op with k | c | _ | _ <;> try cases k
  all_goals try cases e
  all_goals simp

/-- An operation of two rasters succeeds exactly when zipping them does: a division only rewords
its error. -/
theorem binary_eq_ok {op : BinaryOp} : binary op a b = .ok r ↔
    zipCells a b (op.resultType (a.type.widest b.type)) (binaryNodata op a b)
      (fun x y => combine (a.type.widest b.type) x y (op.kernel (a.type.widest b.type))) =
      .ok r := by
  rcases binary_eq_or_reworded op a b with h | ⟨m, m', hz, hb⟩
  · rw [h]
  · rw [hz, hb]
    simp

/-- An operation of two well-formed rasters of one size, on success, has the storage of the left
operand, the type of the operation, the metadata of the left operand with the nodata value of the
operation; and each cell is the kernel of the operand cells converted to their widest type (missing
where an operand cell is missing or does not fit, or where a divisor is zero), as the storage of
the left operand reads it back. -/
theorem value_binary {op : BinaryOp} (ha : a.Wf) (hb : b.Wf) (h : binary op a b = .ok r) :
    r.Wf ∧ r.backend = a.backend ∧ r.type = op.resultType (a.type.widest b.type) ∧
      r.metadata = a.metadata.withNodata (binaryNodata op a b) ∧
      ∀ i < a.len, ∃ x y, a.value i = .ok x ∧ b.value i = .ok y ∧
        r.value i = .ok (a.backend.readBack (op.resultType (a.type.widest b.type))
          (binaryNodata op a b)
          (combine (a.type.widest b.type) x y (op.kernel (a.type.widest b.type)))) := by
  obtain ⟨hsize, hr⟩ := zipCells_eq_ok ha (binary_eq_ok.mp h)
  refine ⟨hr.wf, hr.backend_eq, hr.type_eq, hr.metadata_eq, fun i hi => ?_⟩
  have hib : i < b.len := len_eq_of_size_eq hsize ▸ hi
  exact ⟨_, _, ha.value_eq hi, hb.value_eq hib, hr.value_eq i hi⟩

/-- Two well-formed dense rasters of one cell, and the storage of their sum. -/
theorem value_binary_int_sum :
    Raster.Wf (.dense ⟨.int32, Metadata.sized ⟨1, 1⟩ none, #[.int 2],
        PixelType.int32.policy none⟩) ∧
      Raster.Wf (.dense ⟨.int32, Metadata.sized ⟨1, 1⟩ none, #[.int 3],
        PixelType.int32.policy none⟩) ∧
      ∃ r, binary (.arith .add)
        (.dense ⟨.int32, Metadata.sized ⟨1, 1⟩ none, #[.int 2], PixelType.int32.policy none⟩)
        (.dense ⟨.int32, Metadata.sized ⟨1, 1⟩ none, #[.int 3], PixelType.int32.policy none⟩) =
          .ok r ∧ r.backend = .dense := by
  have wa : Raster.Wf (.dense ⟨.int32, Metadata.sized ⟨1, 1⟩ none, #[.int 2],
      PixelType.int32.policy none⟩) :=
    show DenseRaster.Wf _ from ⟨⟨by decide, by decide, by decide⟩, rfl, rfl⟩
  have wb : Raster.Wf (.dense ⟨.int32, Metadata.sized ⟨1, 1⟩ none, #[.int 3],
      PixelType.int32.policy none⟩) :=
    show DenseRaster.Wf _ from ⟨⟨by decide, by decide, by decide⟩, rfl, rfl⟩
  obtain ⟨r, hr⟩ : ∃ r, binary (.arith .add)
      (.dense ⟨.int32, Metadata.sized ⟨1, 1⟩ none, #[.int 2], PixelType.int32.policy none⟩)
      (.dense ⟨.int32, Metadata.sized ⟨1, 1⟩ none, #[.int 3], PixelType.int32.policy none⟩) =
        .ok r := ⟨_, rfl⟩
  exact ⟨wa, wb, r, hr, (value_binary wa wb hr).2.1⟩

/-- A dense integral result whose computed cell is its nodata value reads that cell as missing:
`2 + 3` into a raster of nodata value `5`. -/
theorem binary_sum_at_nodata_reads_missing :
    ∃ r, binary (.arith .add)
        (.dense ⟨.int32, Metadata.sized ⟨1, 1⟩ (some (BinaryFloat.ofInt 5)), #[.int 2],
          PixelType.int32.policy (some (BinaryFloat.ofInt 5))⟩)
        (.dense ⟨.int32, Metadata.sized ⟨1, 1⟩ none, #[.int 3], PixelType.int32.policy none⟩) =
          .ok r ∧
      Raster.value (.dense ⟨.int32, Metadata.sized ⟨1, 1⟩ (some (BinaryFloat.ofInt 5)),
        #[.int 2], PixelType.int32.policy (some (BinaryFloat.ofInt 5))⟩) 0 =
          .ok (some (.int 2)) ∧
      Raster.value (.dense ⟨.int32, Metadata.sized ⟨1, 1⟩ none, #[.int 3],
        PixelType.int32.policy none⟩) 0 = .ok (some (.int 3)) ∧
      combine .int32 (some (.int 2)) (some (.int 3)) ((BinaryOp.arith .add).kernel .int32) =
        some (.int 5) ∧
      r.value 0 = .ok none :=
  ⟨_, rfl, rfl, rfl, rfl, rfl⟩

/-! ### Operations of one raster -/

/-- A scalar that does not fit the widest type is refused. -/
theorem scalar_of_cast_eq_none {op : ScalarOp} {st : PixelType} {s : Pixel}
    (hdiv : ¬(op = .arith .div ∧ s.isZero = true)) (hc : (r.type.widest st).cast? s = none) :
    r.scalar op st s = .error (.invalidArgument
      s!"Scalar value {s.display} does not fit in raster type {(r.type.widest st).name}") := by
  unfold scalar
  rw [if_neg (by simpa using hdiv)]
  simp [hc]

/-- An operation with a scalar that is no zero divisor and fits the widest type gives the mapped
raster, but that a division of the scalar may reword its runtime error. -/
theorem scalar_eq_or_reworded {op : ScalarOp} {st : PixelType} {s sw : Pixel}
    (hdiv : ¬(op = .arith .div ∧ s.isZero = true)) (hc : (r.type.widest st).cast? s = some sw) :
    r.scalar op st s = r.mapValues (op.resultType (r.type.widest st)) (scalarNodata op r)
        (fun v => ((r.type.widest st).cast? v).bind fun x => op.kernel (r.type.widest st) x sw) ∨
      ∃ m m', r.mapValues (op.resultType (r.type.widest st)) (scalarNodata op r)
          (fun v => ((r.type.widest st).cast? v).bind fun x => op.kernel (r.type.widest st) x sw) =
          .error (.runtime m) ∧ r.scalar op st s = .error (.runtime m') := by
  unfold scalar
  rw [if_neg (by simpa using hdiv)]
  simp only [hc]
  generalize r.mapValues (op.resultType (r.type.widest st)) (scalarNodata op r)
    (fun v => ((r.type.widest st).cast? v).bind fun x => op.kernel (r.type.widest st) x sw) = z
  -- only the runtime error of a division of the scalar changes
  rcases z with e | q' <;> rcases op with k | _ | _ | c
  all_goals try cases e
  all_goals simp

/-- An operation with a scalar succeeds exactly when the scalar is no zero divisor, fits the widest
type, and the mapped raster is built: a division of the scalar only rewords its error. -/
theorem scalar_eq_ok {op : ScalarOp} {st : PixelType} {s : Pixel} :
    r.scalar op st s = .ok q ↔ ¬(op = .arith .div ∧ s.isZero = true) ∧
      ∃ sw, (r.type.widest st).cast? s = some sw ∧
        r.mapValues (op.resultType (r.type.widest st)) (scalarNodata op r)
          (fun v => ((r.type.widest st).cast? v).bind fun x => op.kernel (r.type.widest st) x sw) =
          .ok q := by
  by_cases hdiv : op = .arith .div ∧ s.isZero = true
  · obtain ⟨rfl, hz⟩ := hdiv
    simp [scalar, hz]
  · simp only [hdiv, not_false_eq_true, true_and]
    cases hc : (r.type.widest st).cast? s with
    | none => simp [scalar_of_cast_eq_none hdiv hc]
    | some sw =>
      simp only [Option.some.injEq, exists_eq_left']
      rcases scalar_eq_or_reworded hdiv hc with h | ⟨m, m', hz, hs⟩
      · rw [h]
      · rw [hz, hs]
        simp

theorem negate_eq_ok : r.negate = .ok q ↔
    r.type.isSigned = true ∧ r.mapValues r.type r.metadata.nodata r.type.neg? = .ok q := by
  unfold negate
  cases r.type.isSigned <;> simp

/-- Every operation of one well-formed raster maps its cells: with a scalar, each cell converted
to the widest type and combined with the converted scalar (a zero divisor giving a missing cell);
the negation; the logical negation; the conversion to another type. The result has the storage,
size and georeference of the raster, the nodata value of the operation, and each cell the mapped
cell as the storage reads it back; a sparse result stores exactly the stored cells that are mapped
to a value. -/
theorem mapsCells_single (hr : r.Wf) :
    (∀ op st s, r.scalar op st s = .ok q → ∃ sw, (r.type.widest st).cast? s = some sw ∧
      MapsCells r q (op.resultType (r.type.widest st)) (scalarNodata op r)
        fun v => ((r.type.widest st).cast? v).bind fun x => op.kernel (r.type.widest st) x sw) ∧
    (r.negate = .ok q → MapsCells r q r.type r.metadata.nodata r.type.neg?) ∧
    (r.logicalNot = .ok q → MapsCells r q .uint8 (booleanNodataFor r.mayContainNodata)
      fun v => some (Pixel.ofBool v.isZero)) ∧
    ∀ t, r.cast t = .ok q → MapsCells r q t r.metadata.nodata t.cast? := by
  refine ⟨fun op st s h => ?_, fun h => ?_, fun h => mapsCells_mapValues hr h,
    fun t h => mapsCells_mapValues hr h⟩
  · obtain ⟨-, sw, hsw, h⟩ := scalar_eq_ok.mp h
    exact ⟨sw, hsw, mapsCells_mapValues hr h⟩
  · exact mapsCells_mapValues hr (negate_eq_ok.mp h).2

/-- A well-formed dense raster of one cell and its negation. -/
theorem mapsCells_single_negate :
    Raster.Wf (.dense ⟨.int32, Metadata.sized ⟨1, 1⟩ none, #[.int 2],
        PixelType.int32.policy none⟩) ∧
      ∃ q, negate (.dense ⟨.int32, Metadata.sized ⟨1, 1⟩ none, #[.int 2],
          PixelType.int32.policy none⟩) = .ok q ∧
        MapsCells (.dense ⟨.int32, Metadata.sized ⟨1, 1⟩ none, #[.int 2],
          PixelType.int32.policy none⟩) q .int32 none PixelType.int32.neg? := by
  have wr : Raster.Wf (.dense ⟨.int32, Metadata.sized ⟨1, 1⟩ none, #[.int 2],
      PixelType.int32.policy none⟩) :=
    show DenseRaster.Wf _ from ⟨⟨by decide, by decide, by decide⟩, rfl, rfl⟩
  obtain ⟨q, hq⟩ : ∃ q, negate (.dense ⟨.int32, Metadata.sized ⟨1, 1⟩ none, #[.int 2],
      PixelType.int32.policy none⟩) = .ok q :=
    ⟨_, rfl⟩
  exact ⟨wr, q, hq, (mapsCells_single wr).2.1 hq⟩

/-- Adding a scalar into a dense integral raster whose nodata value is the sum reads the cell as
missing: `2 + 3` with nodata value `5`. -/
theorem scalar_sum_at_nodata_reads_missing :
    ∃ q, scalar (.arith .add)
        (.dense ⟨.int32, Metadata.sized ⟨1, 1⟩ (some (BinaryFloat.ofInt 5)), #[.int 2],
          PixelType.int32.policy (some (BinaryFloat.ofInt 5))⟩)
        .int32 (.int 3) = .ok q ∧
      Raster.value (.dense ⟨.int32, Metadata.sized ⟨1, 1⟩ (some (BinaryFloat.ofInt 5)),
        #[.int 2], PixelType.int32.policy (some (BinaryFloat.ofInt 5))⟩) 0 =
          .ok (some (.int 2)) ∧
      ((PixelType.int32.cast? (.int 2)).bind fun x =>
        (ScalarOp.arith .add).kernel .int32 x (.int 3)) = some (.int 5) ∧
      q.value 0 = .ok none :=
  ⟨_, rfl, rfl, rfl, rfl⟩

end Raster

end Georaster
