import Georaster.Proofs.Raster.Selection
/-!
# Iterating an area of a row-major buffer

Over an area that fits its buffer (`Area.fits`), in a grid whose number of columns is a coordinate
and over a buffer shorter than a machine word, the two iterators of an area do what the cells of
the area say (`IteratesArea`). Each cell of the area that the location filter keeps is looked at
with the value stored at its row-major position `row * cols + col` (`Cell.position`), and yielded
unless the value filter skips that value (`AreaWalker.yieldAt`). Then:

* the positions yielded strictly increase and lie in the buffer;
* the read iterator starts with no current cell and yields those cells with their values: all at
  once when collected, one at a time, each as its current cell, when driven by `nextEntry`, and
  then nothing, with no current cell, at every later call;
* the writing iterator hands out the same positions in the same order, so that writing a value
  through it writes exactly those positions and leaves every other value of the buffer as it
  was.

Both fail where a filter fails, and only there. The cursor, the search and the two iterators are
described cell by cell in `Georaster.Proofs.Grid.Walker`; this file puts them together.

Over a sound dense or masked raster, the iterator over a selection yields exactly the cells of
the selected area that its location filter keeps and whose value is present, with that value
(`Raster.Sound.reads_walk`): the value filter of each storage skips a stored value exactly when
the raster reads it as missing.
-/

namespace Georaster

/-- What the iterators over an area of `data`, a grid of `cols` columns, do with these filters:
the positions of the cells yielded (`AreaWalker.yieldAt`) increase and lie in the buffer; the
read iterator yields those cells with their values, collected or one `nextEntry` at a time; the
writing iterator writes a value at exactly their positions. -/
structure IteratesArea (data : Array Pixel) (cols : Int) (a : Area) (values : ValueFilter)
    (locations : LocationFilter) : Prop where
  /-- The positions yielded strictly increase. -/
  positions_lt_next : ∀ vs, a.cells.filterMapM (AreaWalker.yieldAt data cols values locations) =
    .ok vs → (vs.map (·.2.1)).Pairwise (· < ·)
  /-- The positions yielded lie in the buffer. -/
  positions_lt_size : ∀ vs, a.cells.filterMapM (AreaWalker.yieldAt data cols values locations) =
    .ok vs → ∀ y ∈ vs, y.2.1 < data.size
  /-- The read iterator starts with no current cell and yields the cells with their values. -/
  reads : ∃ it, RasterIterator.new data cols a values locations = .ok it ∧
    it.current = .invalid ∧
    it.finish.map (·.1) =
      (a.cells.filterMapM (AreaWalker.yieldAt data cols values locations)).map
        (List.map fun y => (y.1, y.2.2)) ∧
    ∀ vs, a.cells.filterMapM (AreaWalker.yieldAt data cols values locations) = .ok vs →
      ∀ n, it.nexts n = .ok ((vs.map fun y => (some (y.1, y.2.2), y.1)).take n ++
        List.replicate (n - vs.length) (none, Cell.invalid))
  /-- The writing iterator writes a value at exactly the positions of the cells yielded. -/
  writes : ∃ it, RasterIteratorMut.new data cols a values locations = .ok it ∧ ∀ v : Pixel,
    (it.assign v).map (·.1) =
      (a.cells.filterMapM (AreaWalker.yieldAt data cols values locations)).map
        (List.map fun y => (y.1, y.2.1)) ∧
    ∀ vs, a.cells.filterMapM (AreaWalker.yieldAt data cols values locations) = .ok vs →
      ∃ done, it.assign v = .ok (vs.map fun y => (y.1, y.2.1), done) ∧
        done.current = .invalid ∧ done.data.size = data.size ∧
        ∀ j, done.data[j]? = if j ∈ vs.map (·.2.1) then some v else data[j]?

namespace Area

variable {data : Array Pixel} {cols : Int} {a : Area} {values : ValueFilter}
  {locations : LocationFilter}

/-- Over an area that can be walked, the iterators do what the cells of the area say. -/
theorem Walkable.iteratesArea (h : a.Walkable cols data.size) :
    IteratesArea data cols a values locations where
  positions_lt_next _ hvs := (AreaWalker.positions_of_yields h.fits hvs).1
  positions_lt_size _ hvs := (AreaWalker.positions_of_yields h.fits hvs).2
  reads := RasterIterator.yields_area h
  writes := RasterIteratorMut.writes_area h

end Area

/-! ### Iterators over rasters -/

/-- A grid of coordinate counts has fewer cells than a machine word. -/
theorem Metadata.CoordDims.cellCount_lt_wordSize {m : Metadata} (h : m.CoordDims) :
    m.cellCount < wordSize := by
  have hr := h.rows_lt
  have hc := h.cols_lt
  have hprod := Nat.mul_le_mul (show m.rows.toNat ≤ 2 ^ 31 by omega)
    (show m.cols.toNat ≤ 2 ^ 31 by omega)
  show m.rows.toNat * m.cols.toNat < wordSize
  simp only [wordSize]
  omega

/-- A dense raster's iterator skips a stored value exactly when the raster reads it as
missing. -/
theorem DenseRaster.excludes_policy (d : DenseRaster) {i : Nat} (hi : i < d.data.size) :
    ((ValueFilter.policy d.policy).excludes i (d.data.getD i default)).map
      (fun b => if b then none else some (d.data.getD i default)) = d.value i := by
  rw [DenseRaster.value, Buffer.get_of_lt hi, Array.getD_eq_getD_getElem?,
    Array.getElem?_eq_getElem hi]
  rfl

/-- A masked raster's iterator skips a stored value exactly when the raster reads it as missing:
both ask the mask. -/
theorem MaskedRaster.excludes_mask (k : MaskedRaster) {i : Nat} (hi : i < k.data.size) :
    ((ValueFilter.mask k.mask).excludes i (k.data.getD i default)).map
      (fun b => if b then none else some (k.data.getD i default)) = k.value i := by
  have hflag : (ValueFilter.mask k.mask).excludes i (k.data.getD i default) = k.flagged i := rfl
  rw [hflag, MaskedRaster.value]
  cases k.flagged i with
  | error e => rfl
  | ok b =>
    cases b
    · rw [ok_bind, if_neg Bool.false_ne_true, Buffer.get_of_lt hi, Array.getD_eq_getD_getElem?,
        Array.getElem?_eq_getElem hi]
      rfl
    · rfl

namespace AreaWalker

variable {data : Array Pixel} {cols : Int} {values : ValueFilter} {locations : LocationFilter}

/-- Where the value filter skips a stored value exactly when a read of the cell gives nothing,
an iterator yields at a cell that the location filter keeps what the read gives. -/
theorem yieldAt_of_reads {value : Nat → Outcome (Option Pixel)} {c : Cell}
    (hv : (values.excludes (c.position cols) (data.getD (c.position cols) default)).map
      (fun b => if b then none else some (data.getD (c.position cols) default)) =
        value (c.position cols)) :
    (yieldAt data cols values locations c).map (Option.map fun y => (y.1, y.2.2)) = (do
      if ← locations.excludes c then pure none
      else pure ((← value (c.position cols)).map fun v => (c, v))) := by
  unfold yieldAt
  dsimp only
  rw [← hv]
  cases locations.excludes c with
  | error e => rfl
  | ok b =>
    cases b
    · cases values.excludes (c.position cols) (data.getD (c.position cols) default) with
      | error e => rfl
      | ok b' => cases b' <;> rfl
    · rfl

end AreaWalker

/-- A new read iterator over an area that can be walked, whose value filter skips a stored value
exactly when a read of the cell gives nothing, yields the cells of the area that its location
filter keeps and whose read gives a value, with that value. -/
theorem Area.Walkable.reads {data : Array Pixel} {cols : Int} {a : Area} {values : ValueFilter}
    {locations : LocationFilter} {value : Nat → Outcome (Option Pixel)}
    (hwk : a.Walkable cols data.size)
    (hv : ∀ i < data.size, (values.excludes i (data.getD i default)).map
      (fun b => if b then none else some (data.getD i default)) = value i) :
    (⟨data, AreaWalker.new a cols, .invalid, values, locations⟩ : RasterIterator).finish.map
        (·.1) = a.cells.filterMapM fun c => (do
      if ← locations.excludes c then pure none
      else pure ((← value (c.position cols)).map fun v => (c, v))) := by
  have hit : IteratesArea data cols a values locations := hwk.iteratesArea
  obtain ⟨it, hnew, -, hfin, -⟩ := hit.reads
  rw [RasterIterator.new_of_fits hwk.fits] at hnew
  cases hnew
  rw [hfin, filterMapM_map]
  exact filterMapM_congr fun c hc =>
    AreaWalker.yieldAt_of_reads (hv _ (Area.fits_mem hwk.fits hc).2.2.2)

namespace Raster

variable {r : Raster}

/-- The iterator over a selection of a sound dense or masked raster, once the selection's area is
computed, walks an area that can be walked over the raster's buffer. -/
theorem Sound.walkable (h : r.Sound) {sel : CellSelection} {a : Area} {data : Array Pixel}
    (ha : sel.area r.metadata.size = .ok a) (hb : r.buffer? = some data) :
    a.Walkable r.metadata.cols data.size := by
  have hlen := h.dims.cellCount_lt_wordSize
  cases r with
  | dense d =>
    cases hb
    have hw : d.Wf := h.wf
    exact ⟨DenseRaster.fits_area hw h.dims ha, h.dims.cols_fits, hw.size_data ▸ hlen⟩
  | masked k =>
    cases hb
    have hw : k.Wf := h.wf
    exact ⟨MaskedRaster.fits_area hw h.dims ha, h.dims.cols_fits, hw.size_data ▸ hlen⟩
  | sparse s => cases hb

/-- Over a sound dense or masked raster, the iterator over a selection yields exactly the cells
of the selected area that its location filter keeps and whose value is present, with that
value. -/
theorem Sound.reads_walk (h : r.Sound) {sel : CellSelection} {a : Area} {it : RasterIterator}
    (ha : sel.area r.metadata.size = .ok a) (hw : r.walk? sel = some (.ok it)) :
    it.finish.map (·.1) = a.cells.filterMapM fun c => (do
      if ← sel.locations.excludes c then pure none
      else pure ((← r.value (c.position r.metadata.cols)).map fun v => (c, v))) := by
  cases r with
  | dense d =>
    have ha : sel.area d.metadata.size = .ok a := ha
    have hwk : a.Walkable d.metadata.cols d.data.size := h.walkable ha rfl
    have hw : d.walk sel = .ok it := Option.some.inj hw
    rw [DenseRaster.walk_eq h.wf h.dims, ha, ok_map] at hw
    cases hw
    exact hwk.reads fun _ hi => d.excludes_policy hi
  | masked k =>
    have ha : sel.area k.metadata.size = .ok a := ha
    have hwk : a.Walkable k.metadata.cols k.data.size := h.walkable ha rfl
    have hw : k.walk sel = .ok it := Option.some.inj hw
    rw [MaskedRaster.walk_eq h.wf h.dims, ha, ok_map] at hw
    cases hw
    exact hwk.reads fun _ hi => k.excludes_mask hi
  | sparse s => cases hw

end Raster

/-- The iterators over an area that fits a buffer, in a grid whose number of columns is a
coordinate and over a buffer shorter than a machine word, do what the cells of the area say
(`IteratesArea`): the read iterator yields, in row-major order, the cells that the filters keep
with the values stored at their positions, as its current cells and then no current cell; the
writing iterator writes at exactly their positions. Over a sound dense or masked raster, the
iterator over a selection yields the kept cells of the area whose value is present, with that
value. -/
theorem iterators_yield_area :
    (∀ (data : Array Pixel) (cols : Int) (a : Area) (values : ValueFilter)
      (locations : LocationFilter),
      a.fits cols data.size = .ok true → Coord.fits cols = true → data.size < wordSize →
      IteratesArea data cols a values locations) ∧
    ∀ (r : Raster) (sel : CellSelection) (a : Area) (it : RasterIterator), r.Sound →
      sel.area r.metadata.size = .ok a → r.walk? sel = some (.ok it) →
      it.finish.map (·.1) = a.cells.filterMapM fun c => (do
        if ← sel.locations.excludes c then pure none
        else pure ((← r.value (c.position r.metadata.cols)).map fun v => (c, v))) :=
  ⟨fun _ _ _ _ _ hfit hcols hlen => Area.Walkable.iteratesArea ⟨hfit, hcols, hlen⟩,
    fun _ _ _ _ h ha hw => h.reads_walk ha hw⟩

/-- Over two rows of three values, the area of two rows and two columns from the second column,
with the third value masked and the cell in the second row and column excluded, is walked from
the first row to the second: the read iterator yields the second and the sixth value, then
nothing, and the writing iterator writes exactly there. Over a dense raster of two rows of three
cells with its third cell missing, the square of radius one around the middle cell of the second
row, without that cell, yields the other present cells. -/
theorem iterators_yield_area_skipping :
    (∃ it, RasterIterator.new #[.int 1, .int 2, .int 3, .int 4, .int 5, .int 6] 3 ⟨⟨0, 1⟩, 2, 2⟩
        (.mask #[false, false, true, false, false, false]) (.exclude ⟨1, 1⟩) = .ok it ∧
      it.current = .invalid ∧
      it.finish.map (·.1) = .ok [(⟨0, 1⟩, .int 2), (⟨1, 2⟩, .int 6)] ∧
      it.nexts 3 = .ok [(some (⟨0, 1⟩, .int 2), ⟨0, 1⟩), (some (⟨1, 2⟩, .int 6), ⟨1, 2⟩),
        (none, Cell.invalid)]) ∧
    (∃ it done, RasterIteratorMut.new #[.int 1, .int 2, .int 3, .int 4, .int 5, .int 6] 3
        ⟨⟨0, 1⟩, 2, 2⟩ (.mask #[false, false, true, false, false, false]) (.exclude ⟨1, 1⟩) =
          .ok it ∧
      it.assign (.int 0) = .ok ([(⟨0, 1⟩, 1), (⟨1, 2⟩, 5)], done) ∧
      done.data = #[.int 1, .int 0, .int 3, .int 4, .int 5, .int 0]) ∧
    ∃ r it, Backend.dense.ofOptions .int32 (Metadata.sized ⟨2, 3⟩ (some (BinaryFloat.ofInt 5)))
        [some (.int 1), some (.int 2), none, some (.int 4), some (.int 5), some (.int 6)] =
          .ok r ∧
      r.walk? (.square ⟨1, 1⟩ 1 false) = some (.ok it) ∧
      it.finish.map (·.1) =
        .ok [(⟨0, 0⟩, .int 1), (⟨0, 1⟩, .int 2), (⟨1, 0⟩, .int 4), (⟨1, 2⟩, .int 6)] := by
  have hvs : (Area.mk ⟨0, 1⟩ 2 2).cells.filterMapM
      (AreaWalker.yieldAt #[.int 1, .int 2, .int 3, .int 4, .int 5, .int 6] 3
        (.mask #[false, false, true, false, false, false]) (.exclude ⟨1, 1⟩)) =
      .ok [(⟨0, 1⟩, 1, .int 2), (⟨1, 2⟩, 5, .int 6)] := rfl
  obtain ⟨-, -, ⟨it, hnew, hcur, hfin, hnexts⟩, ⟨itm, hnewm, hw⟩⟩ :=
    iterators_yield_area.1 #[.int 1, .int 2, .int 3, .int 4, .int 5, .int 6] 3 ⟨⟨0, 1⟩, 2, 2⟩
      (.mask #[false, false, true, false, false, false]) (.exclude ⟨1, 1⟩) rfl rfl (by decide)
  obtain ⟨done, hassign, -, -, hdata⟩ := (hw (.int 0)).2 _ hvs
  refine ⟨⟨it, hnew, hcur, by rw [hfin, hvs]; rfl, hnexts _ hvs 3⟩,
    ⟨itm, done, hnewm, hassign, ?_⟩, ?_⟩
  · apply Array.ext_getElem?
    intro j
    rw [hdata j]
    rcases j with _ | _ | _ | _ | _ | _ | j <;> simp
  · obtain ⟨r, hr⟩ : ∃ r, Backend.dense.ofOptions .int32
        (Metadata.sized ⟨2, 3⟩ (some (BinaryFloat.ofInt 5)))
        [some (.int 1), some (.int 2), none, some (.int 4), some (.int 5), some (.int 6)] =
          .ok r := ⟨_, rfl⟩
    have hs : r.Sound := (Raster.Reachable.built (.ofOptions ⟨rfl, rfl⟩ hr)).sound
    obtain ⟨a, ha⟩ : ∃ a, (CellSelection.square ⟨1, 1⟩ 1 false).area r.metadata.size = .ok a := by
      cases hr
      exact ⟨_, rfl⟩
    obtain ⟨it, hwalk⟩ : ∃ it, r.walk? (.square ⟨1, 1⟩ 1 false) = some (.ok it) := by
      cases hr
      exact ⟨_, congrArg some ((DenseRaster.walk_eq hs.wf hs.dims _).trans rfl)⟩
    refine ⟨r, it, hr, hwalk, ?_⟩
    rw [iterators_yield_area.2 r _ a it hs ha hwalk]
    cases hr
    cases ha
    rfl

end Georaster
