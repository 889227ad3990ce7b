import Georaster.Proofs.Raster.Reachable
/-!
# Clipping a selection to the grid

A selection of cells of a raster is clipped to the grid before it is walked. The square around a
centre is cut on both axes at zero and at the last row and column (`Area.square`); the rectangle
from a top-left cell is cut at the last row and column (`Area.clipRect`). In a grid whose counts
are coordinates:

* the square of `radius` around `center` holds exactly the cells of the grid within `radius` rows
  and columns of the centre, none for a negative radius, whenever the four bounds
  `center ± radius` are coordinates (`Area.square_clips`);
* the rectangle holds exactly the cells of the grid inside it when its top-left cell lies in the
  grid, and no cell otherwise: clipping starts from the top-left cell and gives up when that cell
  is outside, even where the rectangle overlaps the grid (`Area.clipRect_clips`);
* every computed area lies within the grid (`Area.Within`), so it can be walked over a buffer of
  one value per cell (`Area.Within.fits`), and a walk over a selection of a sound dense or masked
  raster starts whenever the selection's area is computed (`Raster.Sound.walk_starts`): the check
  that the area fits the buffer never fails.
-/

namespace Georaster

theorem Cell.isIn_eq_true {c : Cell} {s : GridSize} :
    c.isIn s = true ↔ 0 ≤ c.row ∧ 0 ≤ c.col ∧ c.row < s.rows ∧ c.col < s.cols := by
  simp [Cell.isIn, Cell.isValid, and_assoc]

namespace Area

variable {a : Area} {s : GridSize}

/-- An area lies within a grid: it is empty, or it starts at a valid cell and ends inside the
grid. -/
def Within (a : Area) (s : GridSize) : Prop :=
  a.isEmpty = true ∨
    0 ≤ a.topLeft.row ∧ 0 ≤ a.topLeft.col ∧ a.topLeft.row + a.rows ≤ s.rows ∧
      a.topLeft.col + a.cols ≤ s.cols

/-- An area within a grid of coordinate counts can be walked over a buffer of one value per cell
of the grid: its last cell is computed without overflow and its index is below the buffer's
length. -/
theorem Within.fits (h : a.Within s) (hr : Coord.fits s.rows = true)
    (hc : Coord.fits s.cols = true) : a.fits s.cols (s.rows.toNat * s.cols.toNat) = .ok true := by
  unfold Area.fits
  by_cases he : a.isEmpty = true
  · rw [if_pos he]
    rfl
  · rw [if_neg he]
    obtain ⟨h0, h1, hrow, hcol⟩ := h.resolve_left he
    have hne : 0 < a.rows ∧ 0 < a.cols := by
      simp only [isEmpty, decide_eq_true_eq, not_or, not_le] at he
      exact he
    rw [Coord.fits_iff] at hr hc
    -- the last cell is the last row and column of the area, all coordinates
    have hbr : a.bottomRight = .ok ⟨a.topLeft.row + a.rows - 1, a.topLeft.col + a.cols - 1⟩ := by
      unfold bottomRight
      rw [if_neg he, Coord.add_of_fits (Coord.fits_iff.mpr (by omega)), ok_bind,
        Coord.sub_of_fits (Coord.fits_iff.mpr (by omega)), ok_bind,
        Coord.add_of_fits (Coord.fits_iff.mpr (by omega)), ok_bind,
        Coord.sub_of_fits (Coord.fits_iff.mpr (by omega)), ok_bind]
      rfl
    -- the index of the last cell is below the number of cells
    have hlast : (a.topLeft.row + a.rows - 1).toNat * s.cols.toNat +
        (a.topLeft.col + a.cols - 1).toNat < s.rows.toNat * s.cols.toNat :=
      calc (a.topLeft.row + a.rows - 1).toNat * s.cols.toNat + (a.topLeft.col + a.cols - 1).toNat
          < (a.topLeft.row + a.rows - 1).toNat * s.cols.toNat + s.cols.toNat := by omega
        _ = ((a.topLeft.row + a.rows - 1).toNat + 1) * s.cols.toNat := (Nat.succ_mul _ _).symm
        _ ≤ s.rows.toNat * s.cols.toNat := Nat.mul_le_mul_right _ (by omega)
    simp only [hbr, ok_bind, pure_eq_ok, Bool.and_eq_true, decide_eq_true_eq]
    exact ⟨⟨h0, h1, by omega⟩, hlast⟩

/-! ### The square around a centre -/

/-- Whenever the square around a centre is computed, it lies within the grid and holds exactly the
cells of the grid within the radius of the centre. -/
theorem square_spec {c : Cell} {radius : Int} (h0 : 0 ≤ s.rows) (h1 : 0 ≤ s.cols)
    (h : square s c radius = .ok a) :
    a.Within s ∧ ∀ p, p ∈ a.cells ↔ p.isIn s = true ∧ max |p.row - c.row| |p.col - c.col| ≤ radius := by
  unfold square at h
  split at h
  · -- a negative radius selects nothing
    rename_i hneg
    cases pure_eq_ok.mp h
    refine ⟨.inl rfl, fun p => ?_⟩
    simp only [mem_cells, max_le_iff, abs_le]
    omega
  · -- the four bounds, each computed as a coordinate
    rename_i hnneg
    obtain ⟨top, ht, h⟩ := bind_eq_ok.mp h
    obtain ⟨left, hl, h⟩ := bind_eq_ok.mp h
    obtain ⟨bottom, hb, h⟩ := bind_eq_ok.mp h
    obtain ⟨last, hlast, h⟩ := bind_eq_ok.mp h
    obtain ⟨right, hr, h⟩ := bind_eq_ok.mp h
    obtain ⟨lastCol, hlastCol, h⟩ := bind_eq_ok.mp h
    rw [Coord.eq_of_sub_eq_ok ht, Coord.eq_of_sub_eq_ok hl, Coord.eq_of_add_eq_ok hb,
      Coord.eq_of_sub_eq_ok hlast, Coord.eq_of_add_eq_ok hr, Coord.eq_of_sub_eq_ok hlastCol] at h
    dsimp only at h
    split at h
    · -- the square misses the grid
      cases pure_eq_ok.mp h
      refine ⟨.inl rfl, fun p => ?_⟩
      simp only [mem_cells, Cell.isIn_eq_true, max_le_iff, abs_le]
      omega
    · cases pure_eq_ok.mp h
      refine ⟨.inr (by dsimp only; omega), fun p => ?_⟩
      simp only [mem_cells, Cell.isIn_eq_true, max_le_iff, abs_le]
      omega

/-- When the four bounds of the square are coordinates, and so is the last row and column of the
grid, the square is computed. -/
theorem square_isOk {c : Cell} {radius : Int} (h0 : 0 ≤ s.rows) (h1 : 0 ≤ s.cols)
    (hr : Coord.fits s.rows = true) (hc : Coord.fits s.cols = true)
    (htop : Coord.fits (c.row - radius) = true) (hbottom : Coord.fits (c.row + radius) = true)
    (hleft : Coord.fits (c.col - radius) = true) (hright : Coord.fits (c.col + radius) = true) :
    ∃ a, square s c radius = .ok a := by
  rw [Coord.fits_iff] at hr hc
  unfold square
  split
  · exact ⟨_, rfl⟩
  · rw [Coord.sub_of_fits htop, ok_bind, Coord.sub_of_fits hleft, ok_bind,
      Coord.add_of_fits hbottom, ok_bind, Coord.sub_of_fits (Coord.fits_iff.mpr (by omega)),
      ok_bind, Coord.add_of_fits hright, ok_bind,
      Coord.sub_of_fits (Coord.fits_iff.mpr (by omega)), ok_bind]
    dsimp only
    split
    · exact ⟨_, rfl⟩
    · exact ⟨_, rfl⟩

/-- In a grid of coordinate counts, the square of `radius` around a centre whose four bounds are
coordinates is computed, can be walked over the buffer, and holds exactly the cells of the grid
within `radius` rows and columns of the centre. -/
theorem square_clips {c : Cell} {radius : Int} (h0 : 0 ≤ s.rows) (h1 : 0 ≤ s.cols)
    (hr : Coord.fits s.rows = true) (hc : Coord.fits s.cols = true)
    (htop : Coord.fits (c.row - radius) = true) (hbottom : Coord.fits (c.row + radius) = true)
    (hleft : Coord.fits (c.col - radius) = true) (hright : Coord.fits (c.col + radius) = true) :
    ∃ a, square s c radius = .ok a ∧ a.fits s.cols (s.rows.toNat * s.cols.toNat) = .ok true ∧
      ∀ p, p ∈ a.cells ↔ p.isIn s = true ∧ max |p.row - c.row| |p.col - c.col| ≤ radius := by
  obtain ⟨a, ha⟩ := square_isOk h0 h1 hr hc htop hbottom hleft hright
  obtain ⟨hw, hmem⟩ := square_spec h0 h1 ha
  exact ⟨a, ha, hw.fits hr hc, hmem⟩

/-! ### The rectangle from a top-left cell -/

/-- The rectangle from a top-left cell inside the grid is cut at the last row and column; from a
top-left cell outside the grid it is empty. It can be walked over the buffer. -/
theorem clipRect_clips (tl : Cell) (rows cols : Int) (hr : Coord.fits s.rows = true)
    (hc : Coord.fits s.cols = true) :
    (clipRect s tl rows cols).fits s.cols (s.rows.toNat * s.cols.toNat) = .ok true ∧
      ∀ p, p ∈ (clipRect s tl rows cols).cells ↔ tl.isIn s = true ∧ p.isIn s = true ∧
        tl.row ≤ p.row ∧ p.row < tl.row + rows ∧ tl.col ≤ p.col ∧ p.col < tl.col + cols := by
  unfold clipRect
  by_cases htl : tl.isIn s = true
  · rw [if_neg (by simp [htl])]
    have htl' := Cell.isIn_eq_true.mp htl
    refine ⟨Within.fits (.inr (by dsimp only; omega)) hr hc, fun p => ?_⟩
    simp only [mem_cells, Cell.isIn_eq_true]
    omega
  · -- a top-left cell outside the grid gives no cell
    rw [if_pos (by simp [htl])]
    refine ⟨Within.fits (.inl rfl) hr hc, fun p => ?_⟩
    rw [Bool.not_eq_true] at htl
    simp only [mem_cells, htl, Bool.false_eq_true, false_and, iff_false]
    omega

/-- A rectangle whose top-left cell lies above the grid gets no cell, although its second row
overlaps the grid. -/
theorem clipRect_drops_overlap_above :
    ¬∀ p : Cell, p ∈ (clipRect ⟨4, 5⟩ ⟨-1, 0⟩ 2 2).cells ↔
      p.isIn ⟨4, 5⟩ = true ∧ -1 ≤ p.row ∧ p.row < -1 + 2 ∧ 0 ≤ p.col ∧ p.col < 0 + 2 := by
  intro h
  have hcell := (h ⟨0, 0⟩).mpr (by decide)
  revert hcell
  decide

end Area

/-! ### Walking a clipped selection -/

namespace CellSelection

/-- The area of a selection that is computed lies within the grid. -/
theorem within_of_area_eq_ok {s : GridSize} {sel : CellSelection} {a : Area} (h0 : 0 ≤ s.rows)
    (h1 : 0 ≤ s.cols) (h : sel.area s = .ok a) : a.Within s := by
  cases sel with
  | everything =>
    cases pure_eq_ok.mp h
    exact .inr ⟨le_refl 0, le_refl 0, by simp [Area.full], by simp [Area.full]⟩
  | square c radius withCenter => exact (Area.square_spec h0 h1 h).1
  | disc c radius withCenter => exact (Area.square_spec h0 h1 h).1
  | rect tl rows cols =>
    cases pure_eq_ok.mp h
    unfold Area.clipRect
    split
    · exact .inl rfl
    · rename_i htl
      have htl' := Cell.isIn_eq_true.mp (by simpa using htl)
      exact .inr (by dsimp only; omega)

end CellSelection

namespace DenseRaster

variable {d : DenseRaster}

/-- The area of a selection of a well-formed dense raster, once computed, fits its buffer. -/
theorem fits_area (h : d.Wf) (hd : d.metadata.CoordDims) {sel : CellSelection} {a : Area}
    (ha : sel.area d.metadata.size = .ok a) : a.fits d.metadata.cols d.data.size = .ok true := by
  rw [h.size_data]
  exact (CellSelection.within_of_area_eq_ok h.dims.rows_nonneg h.dims.cols_nonneg ha).fits
    hd.rows_fits hd.cols_fits

/-- A walk over a selection of a well-formed dense raster starts over the selection's area, once
that area is computed. -/
theorem walk_eq (h : d.Wf) (hd : d.metadata.CoordDims) (sel : CellSelection) :
    d.walk sel = (sel.area d.metadata.size).map fun a =>
      ⟨d.data, AreaWalker.new a d.metadata.cols, .invalid, .policy d.policy, sel.locations⟩ := by
  unfold walk
  cases ha : sel.area d.metadata.size with
  | error e => rfl
  | ok a =>
    rw [ok_bind, RasterIterator.new_of_fits (fits_area h hd ha)]
    rfl

end DenseRaster

namespace MaskedRaster

variable {k : MaskedRaster}

/-- The area of a selection of a well-formed masked raster, once computed, fits its buffer. -/
theorem fits_area (h : k.Wf) (hd : k.metadata.CoordDims) {sel : CellSelection} {a : Area}
    (ha : sel.area k.metadata.size = .ok a) : a.fits k.metadata.cols k.data.size = .ok true := by
  rw [h.size_data]
  exact (CellSelection.within_of_area_eq_ok h.dims.rows_nonneg h.dims.cols_nonneg ha).fits
    hd.rows_fits hd.cols_fits

/-- A walk over a selection of a well-formed masked raster starts over the selection's area, once
that area is computed. -/
theorem walk_eq (h : k.Wf) (hd : k.metadata.CoordDims) (sel : CellSelection) :
    k.walk sel = (sel.area k.metadata.size).map fun a =>
      ⟨k.data, AreaWalker.new a k.metadata.cols, .invalid, .mask k.mask, sel.locations⟩ := by
  unfold walk
  cases ha : sel.area k.metadata.size with
  | error e => rfl
  | ok a =>
    rw [ok_bind, RasterIterator.new_of_fits (fits_area h hd ha)]
    rfl

end MaskedRaster

namespace Raster

variable {r : Raster}

/-- A walk over a selection of a sound raster with a buffer starts, with its cursor on the first
cell of the selection's area and no current cell, whenever that area is computed: the check that
the area fits the buffer never fails. -/
theorem Sound.walk_starts (h : r.Sound) (sel : CellSelection) {a : Area}
    (ha : sel.area r.metadata.size = .ok a) :
    r.backend = .sparse ∨
      ∃ it, r.walk? sel = some (.ok it) ∧ it.walker = AreaWalker.new a r.metadata.cols ∧
        it.current = .invalid := by
  cases r with
  | dense d =>
    refine .inr ⟨⟨d.data, AreaWalker.new a d.metadata.cols, .invalid, .policy d.policy,
      sel.locations⟩, ?_, rfl, rfl⟩
    have ha : sel.area d.metadata.size = .ok a := ha
    rw [walk?, DenseRaster.walk_eq h.wf h.dims, ha]
    rfl
  | masked k =>
    refine .inr ⟨⟨k.data, AreaWalker.new a k.metadata.cols, .invalid, .mask k.mask,
      sel.locations⟩, ?_, rfl, rfl⟩
    have ha : sel.area k.metadata.size = .ok a := ha
    rw [walk?, MaskedRaster.walk_eq h.wf h.dims, ha]
    rfl
  | sparse s => exact .inl rfl

end Raster

namespace Area

/-- Clipping the selections of a grid whose counts are coordinates. The square of `radius` around a
centre whose four bounds are coordinates is computed, fits the buffer and holds exactly the cells
of the grid within `radius` rows and columns of the centre. The rectangle from a top-left cell fits
the buffer and holds exactly the cells of the grid inside it when the top-left cell lies in the
grid, and no cell otherwise. A walk over a selection of a sound dense or masked raster of that
grid starts, with its cursor on the first cell of the selection's area, whenever the area is
computed. -/
theorem selections_clip {s : GridSize} (h0 : 0 ≤ s.rows) (h1 : 0 ≤ s.cols)
    (hr : Coord.fits s.rows = true) (hc : Coord.fits s.cols = true) :
    (∀ (c : Cell) (radius : Int), Coord.fits (c.row - radius) = true →
      Coord.fits (c.row + radius) = true → Coord.fits (c.col - radius) = true →
      Coord.fits (c.col + radius) = true →
      ∃ a, square s c radius = .ok a ∧ a.fits s.cols (s.rows.toNat * s.cols.toNat) = .ok true ∧
        ∀ p, p ∈ a.cells ↔ p.isIn s = true ∧ max |p.row - c.row| |p.col - c.col| ≤ radius) ∧
    (∀ (tl : Cell) (rows cols : Int),
      (clipRect s tl rows cols).fits s.cols (s.rows.toNat * s.cols.toNat) = .ok true ∧
      ∀ p, p ∈ (clipRect s tl rows cols).cells ↔ tl.isIn s = true ∧ p.isIn s = true ∧
        tl.row ≤ p.row ∧ p.row < tl.row + rows ∧ tl.col ≤ p.col ∧ p.col < tl.col + cols) ∧
    ∀ (r : Raster) (sel : CellSelection) (a : Area), r.Sound → r.metadata.size = s →
      sel.area s = .ok a → r.backend = .sparse ∨
        ∃ it, r.walk? sel = some (.ok it) ∧ it.walker = AreaWalker.new a s.cols ∧
          it.current = .invalid := by
  refine ⟨fun c radius ht hb hl hr' => square_clips h0 h1 hr hc ht hb hl hr',
    fun tl rows cols => clipRect_clips tl rows cols hr hc, ?_⟩
  rintro r sel a hw rfl ha
  exact hw.walk_starts sel ha

/-- The square of radius one around the cell one row and one column in from the corner of a four
by five grid. -/
theorem selections_clip_four_by_five :
    ∃ a, square ⟨4, 5⟩ ⟨1, 1⟩ 1 = .ok a ∧ a.fits 5 (4 * 5) = .ok true ∧
      ∀ p : Cell, p ∈ a.cells ↔ p.isIn ⟨4, 5⟩ = true ∧ max |p.row - 1| |p.col - 1| ≤ 1 :=
  (selections_clip (s := ⟨4, 5⟩) (by decide) (by decide) rfl rfl).1 ⟨1, 1⟩ 1 rfl rfl rfl rfl

end Area

end Georaster
