import Georaster.Proofs.Sparse.Map
/-!
# The storage invariant of every sparse raster

A sparse raster is reachable when some constructor built it and some edits changed it since.
Every constructor lays out sound rows, and every edit that succeeds keeps the raster laid out
(`Layout`), so every reachable raster satisfies the storage invariant (`Csr`). An edit that fails
returns no raster: the raster it was called on is the one kept, still reachable.
-/

namespace Georaster

namespace SparseRaster

/-- The sparse rasters built by a constructor and then edited. Algebra with a sparse left operand
builds its result by `ofCells`, or by `mapValues` for a single raster. -/
inductive Reachable : SparseRaster → Prop
  | new {t : PixelType} {m : Metadata} {r : SparseRaster} :
      new t m = .ok r → Reachable r
  | filledWith {t : PixelType} {m : Metadata} {v : Pixel} {r : SparseRaster} :
      filledWith t m v = .ok r → Reachable r
  | filledWithNodata {t : PixelType} {m : Metadata} {r : SparseRaster} :
      filledWithNodata t m = .ok r → Reachable r
  | ofList {t : PixelType} {m : Metadata} {values : List Pixel} {r : SparseRaster} :
      ofList t m values = .ok r → Reachable r
  | ofCells {t : PixelType} {m : Metadata} {cell : Nat → Option Pixel} {r : SparseRaster} :
      ofCells t m cell = .ok r → Reachable r
  | ofTriplets {t : PixelType} {m : Metadata} {triplets : List (Cell × Pixel)}
      {r : SparseRaster} :
      ofTriplets t m triplets = .ok r → Reachable r
  | mapValues {r : SparseRaster} {t : PixelType} {n : Option Binary64}
      {op : Pixel → Option Pixel} {q : SparseRaster} :
      Reachable r → r.mapValues t n op = .ok q → Reachable q
  | setValue {r : SparseRaster} {i : Nat} {v : Option Pixel} {r' : SparseRaster} :
      Reachable r → r.setValue i v = .ok r' → Reachable r'
  | fill {r : SparseRaster} (v : Pixel) : Reachable r → Reachable (r.fill v)
  | fillValues {r : SparseRaster} (v : Pixel) : Reachable r → Reachable (r.fillValues v)
  | fillWithNodata {r : SparseRaster} : Reachable r → Reachable r.fillWithNodata
  | turnValueIntoNodata {r : SparseRaster} (v : Pixel) :
      Reachable r → Reachable (r.turnValueIntoNodata v)
  | resize {r : SparseRaster} (rows cols : Int) : Reachable r → Reachable (r.resize rows cols)
  | resizeAndFill {r : SparseRaster} (rows cols : Int) (v : Pixel) :
      Reachable r → Reachable (r.resizeAndFill rows cols v)
  | setNodata {r : SparseRaster} {n : Option Binary64} {r' : SparseRaster} :
      Reachable r → r.setNodata n = .ok r' → Reachable r'
  | setMetadata {r : SparseRaster} {m : Metadata} {r' : SparseRaster} :
      Reachable r → r.setMetadata m = .ok r' → Reachable r'

theorem layout_filledWith {t : PixelType} {m : Metadata} {v : Pixel} {r : SparseRaster}
    (h : filledWith t m v = .ok r) : ∃ rows, r.Layout rows := by
  obtain ⟨r₀, h₀, rfl⟩ := map_eq_ok.mp h
  exact ⟨_, (layout_empty h₀).fill v⟩

/-- Every reachable raster lays out sound rows: each constructor lays them out, and each edit
keeps them laid out. -/
theorem Reachable.exists_layout {r : SparseRaster} (h : r.Reachable) : ∃ rows, r.Layout rows := by
  induction h with
  | new h => exact ⟨_, layout_new h⟩
  | filledWith h => exact layout_filledWith h
  | filledWithNodata h => exact ⟨_, layout_filledWithNodata h⟩
  | ofList h => exact ⟨_, layout_ofList h⟩
  | ofCells h => exact ⟨_, layout_ofCells h⟩
  | ofTriplets h => exact ⟨_, layout_ofTriplets h⟩
  | mapValues _ hq ih =>
    obtain ⟨rows, hr⟩ := ih
    exact ⟨_, hr.mapValues hq⟩
  | setValue _ hs ih =>
    obtain ⟨rows, hr⟩ := ih
    exact ⟨_, hr.setValue hs⟩
  | fill v _ ih =>
    obtain ⟨rows, hr⟩ := ih
    exact ⟨_, hr.fill v⟩
  | fillValues v _ ih =>
    obtain ⟨rows, hr⟩ := ih
    exact ⟨_, hr.fillValues v⟩
  | fillWithNodata _ ih =>
    obtain ⟨rows, hr⟩ := ih
    exact ⟨_, hr.fillWithNodata⟩
  | turnValueIntoNodata v _ ih =>
    obtain ⟨rows, hr⟩ := ih
    exact ⟨_, hr.turnValueIntoNodata v⟩
  | resize rows cols _ ih =>
    obtain ⟨_, hr⟩ := ih
    exact ⟨_, hr.resize rows cols⟩
  | resizeAndFill rows cols v _ ih =>
    obtain ⟨_, hr⟩ := ih
    exact ⟨_, (hr.resize rows cols).fill v⟩
  | setNodata _ hs ih =>
    obtain ⟨rows, hr⟩ := ih
    exact ⟨_, hr.setNodata hs⟩
  | setMetadata _ hs ih =>
    obtain ⟨rows, hr⟩ := ih
    exact ⟨_, hr.setMetadata hs⟩

/-- Every sparse raster built by a constructor and then edited satisfies the storage invariant:
`rows + 1` offsets from zero, nondecreasing, ending at the number of entries; as many columns as
values; in every row, columns strictly increasing within the grid; and the nodata value the
metadata's in the pixel type, which the type accepts. -/
theorem csr_of_reachable {r : SparseRaster} (h : r.Reachable) : r.Csr := by
  obtain ⟨rows, hr⟩ := h.exists_layout
  exact hr.csr

/-- A raster of two rows of three 32-bit integers with nodata value `-1`, built from a list that
stores its third and fourth cells, then edited by a value inserted into an empty cell of its first
row and by the stored value of its second row removed, satisfies the storage invariant. -/
theorem csr_of_reachable_insert_remove :
    ∃ r₀ r₁ r₂, ofList .int32 (Metadata.sized ⟨2, 3⟩ (some (BinaryFloat.ofInt (-1))))
        [.int (-1), .int (-1), .int 7, .int 4, .int (-1), .int (-1)] = .ok r₀ ∧
      r₀.values = [.int 7, .int 4] ∧ r₀.setValue 1 (some (.int 9)) = .ok r₁ ∧
      r₁.setValue 3 none = .ok r₂ ∧ r₂.Csr := by
  obtain ⟨r₀, h₀⟩ : ∃ r₀, ofList .int32 (Metadata.sized ⟨2, 3⟩ (some (BinaryFloat.ofInt (-1))))
      [.int (-1), .int (-1), .int 7, .int 4, .int (-1), .int (-1)] = .ok r₀ := ⟨_, rfl⟩
  have hr₀ : r₀.Reachable := .ofList h₀
  have hw : r₀.metadata.cols < wordSize := by
    cases h₀
    decide
  have hlen : r₀.len = 6 := by
    cases h₀
    rfl
  -- the insertion, then the removal, each inside the grid
  obtain ⟨rows₀, hl₀⟩ := hr₀.exists_layout
  obtain ⟨r₁, h₁⟩ := hl₀.setValue_isOk hw (show 1 < r₀.len by omega) (some (.int 9))
  have hr₁ : r₁.Reachable := .setValue hr₀ h₁
  have hm₁ := metadata_of_setValue_eq_ok h₁
  obtain ⟨rows₁, hl₁⟩ := hr₁.exists_layout
  obtain ⟨r₂, h₂⟩ := hl₁.setValue_isOk (hm₁ ▸ hw)
    (show 3 < r₁.len by simp only [len, hm₁] at hlen ⊢; omega) none
  exact ⟨r₀, r₁, r₂, h₀, by cases h₀; rfl, h₁, h₂, csr_of_reachable (.setValue hr₁ h₂)⟩

end SparseRaster

end Georaster
