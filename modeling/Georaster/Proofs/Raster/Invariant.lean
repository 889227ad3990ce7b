import Georaster.Proofs.Raster.Construction
import Georaster.Proofs.Raster.CellWrite
import Georaster.Proofs.Raster.Traversal
/-!
# What every raster with a buffer keeps

A dense or masked raster stores one value per cell of its grid. Whatever the library does to it,
its dimensions stay counts, its buffer holds one value per cell, its pixel type accepts its
nodata value (so the nodata value reads as a pixel exactly when the metadata have one), and its
mask is empty or as long as the buffer. A dense raster keeps the policy it reads its buffer with,
and that policy stays the one of its type and nodata value: the constructors set it from the
metadata, the edits that change the nodata value set it again, and the others keep the type, the
metadata and the policy. Hence every read of a cell inside the grid succeeds, and a write inside
the grid fails only when it is asked to store a missing cell where none can be stored
(`Raster.Reachable.bufferInvariant`).

The dimensions and the buffer are soundness (`Raster.Reachable.sound`). That the pixel type accepts
the nodata value is a second inductive invariant (`Raster.NodataAccepted`): every constructor
checks it, and every step either keeps the pixel type and the nodata value or checks the pair it
sets (`Raster.Step.keepsNodata_or_accepts`); a sparse raster lays out its nodata value, so its
layout carries the fact. An edit that can fail (`setNodata`, `setMetadata`, `resizeWithNodata`,
a dense `turnValueIntoNodata`) makes its checks before it changes anything and returns no raster,
so the raster it was called on is the one kept.

The results of the algebra are reachable: an operation of two rasters builds its result from cells
(`Raster.Built.ofCells`), and an operation of one raster maps its cells (`Raster.Step.mapValues`).
-/

namespace Georaster

/-! ### The constructors check the nodata value -/

namespace DenseRaster

variable {t : PixelType} {m : Metadata} {d : DenseRaster}

/-- A dense raster built by a constructor has the pixel type and the metadata it was asked for,
and the type accepts their nodata value. -/
def Checks (d : DenseRaster) (t : PixelType) (m : Metadata) : Prop :=
  d.type = t ∧ d.metadata = m ∧ t.validateNodata m.nodata = .ok ()

theorem checks_ofData {data : Array Pixel} (h : ofData t m data = .ok d) : d.Checks t m := by
  obtain ⟨hv, -, -, -, rfl⟩ := ofData_eq_ok.mp h
  exact ⟨rfl, rfl, hv⟩

theorem Checks.initNodataValues (h : d.Checks t m) : d.initNodataValues.Checks t m :=
  ⟨(type_initNodataValues d).trans h.1, (metadata_initNodataValues d).trans h.2.1, h.2.2⟩

theorem checks_filledWithNodata (h : filledWithNodata t m = .ok d) : d.Checks t m := by
  obtain ⟨d₀, h₀, h⟩ := bind_eq_ok.mp h
  obtain ⟨n, -, h⟩ := bind_eq_ok.mp h
  cases pure_eq_ok.mp h
  -- filling rewrites the buffer only
  exact (checks_ofData h₀ : d₀.Checks t m)

theorem checks_ofCells {cell : Nat → Option Pixel} (h : ofCells t m cell = .ok d) :
    d.Checks t m := by
  unfold ofCells at h
  obtain ⟨-, -, h⟩ := bind_eq_ok.mp h
  dsimp only at h
  split at h
  · exact checks_ofData h
  · cases h

end DenseRaster

namespace MaskedRaster

variable {t : PixelType} {m : Metadata} {k : MaskedRaster}

/-- A masked raster built by a constructor has the pixel type and the metadata it was asked for,
and the type accepts their nodata value. -/
def Checks (k : MaskedRaster) (t : PixelType) (m : Metadata) : Prop :=
  k.type = t ∧ k.metadata = m ∧ t.validateNodata m.nodata = .ok ()

theorem checks_ofData {data : Array Pixel} {mask : Array Bool}
    (h : ofData t m data mask = .ok k) : k.Checks t m := by
  obtain ⟨hv, -, -, -, -, rfl⟩ := ofData_eq_ok.mp h
  exact ⟨rfl, rfl, hv⟩

/-- Rewriting the cells keeps what the constructor checked. -/
theorem Checks.of_eq {k' : MaskedRaster} (h : k.Checks t m) (ht : k'.type = k.type)
    (hm : k'.metadata = k.metadata) : k'.Checks t m :=
  ⟨ht.trans h.1, hm.trans h.2.1, h.2.2⟩

theorem checks_ofCells {cell : Nat → Option Pixel} (h : ofCells t m cell = .ok k) :
    k.Checks t m := by
  unfold ofCells at h
  obtain ⟨-, -, h⟩ := bind_eq_ok.mp h
  exact checks_ofData h

@[simp] theorem type_ensureMask (k : MaskedRaster) : k.ensureMask.type = k.type := by
  unfold ensureMask
  split <;> rfl

end MaskedRaster

namespace Raster

variable {r r' : Raster}

/-- Every property that holds of what the constructors build and that each step keeps holds of
every reachable raster. -/
theorem Reachable.invariant (P : Raster → Prop) (built : ∀ r, r.Built → P r)
    (step : ∀ r r', r.Reachable → P r → Step r r' → P r') (h : r.Reachable) : P r := by
  induction h with
  | built hb => exact built _ hb
  | step hr hs ih => exact step _ _ hr ih hs

/-- The pixel type accepts the nodata value of the metadata. -/
def NodataAccepted (r : Raster) : Prop := r.type.validateNodata r.metadata.nodata = .ok ()

/-- `r'` has the pixel type and the nodata value of `r`. -/
def KeepsNodata (r r' : Raster) : Prop :=
  r'.type = r.type ∧ r'.metadata.nodata = r.metadata.nodata

theorem NodataAccepted.of_keeps (h : r.NodataAccepted) (hk : KeepsNodata r r') :
    r'.NodataAccepted := by
  unfold NodataAccepted at h ⊢
  rw [hk.1, hk.2]
  exact h

/-- A sound sparse raster lays out its nodata value, which its pixel type accepts. -/
theorem Sound.nodataAccepted_sparse {s : SparseRaster} (h : (sparse s).Sound) :
    (sparse s).NodataAccepted :=
  h.sparse_layout.elim fun _ hl => hl.nodata_valid

theorem keepsNodata_dense {d d' : DenseRaster} (ht : d'.type = d.type)
    (hm : d'.metadata = d.metadata) : KeepsNodata (dense d) (dense d') :=
  ⟨ht, congrArg Metadata.nodata hm⟩

theorem keepsNodata_masked {k k' : MaskedRaster} (ht : k'.type = k.type)
    (hm : k'.metadata = k.metadata) : KeepsNodata (masked k) (masked k') :=
  ⟨ht, congrArg Metadata.nodata hm⟩

theorem keepsNodata_withBuffer (r : Raster) (data : Array Pixel) :
    KeepsNodata r (r.withBuffer data) := by
  cases r <;> exact ⟨rfl, rfl⟩

/-! ### Every constructor checks the nodata value -/

theorem nodataAccepted_dense {d : DenseRaster} {t : PixelType} {m : Metadata}
    (h : d.Checks t m) : (dense d).NodataAccepted := by
  obtain ⟨ht, hm, hv⟩ := h
  show d.type.validateNodata d.metadata.nodata = .ok ()
  rw [ht, hm]
  exact hv

theorem nodataAccepted_masked {k : MaskedRaster} {t : PixelType} {m : Metadata}
    (h : k.Checks t m) : (masked k).NodataAccepted := by
  obtain ⟨ht, hm, hv⟩ := h
  show k.type.validateNodata k.metadata.nodata = .ok ()
  rw [ht, hm]
  exact hv

/-- A raster that a storage builds from cells has a nodata value its pixel type accepts. -/
theorem nodataAccepted_ofCells {b : Backend} {t : PixelType} {m : Metadata}
    {cell : Nat → Option Pixel} (hm : m.CoordDims) (h : b.ofCells t m cell = .ok r) :
    r.NodataAccepted := by
  cases b with
  | dense =>
    obtain ⟨d, hd, rfl⟩ := map_eq_ok.mp h
    exact nodataAccepted_dense (DenseRaster.checks_ofCells hd)
  | masked =>
    obtain ⟨k, hk, rfl⟩ := map_eq_ok.mp h
    exact nodataAccepted_masked (MaskedRaster.checks_ofCells hk)
  | sparse =>
    obtain ⟨s, hs, rfl⟩ := map_eq_ok.mp h
    exact (sound_ofCells (b := .sparse) hm (by rw [Backend.ofCells, hs]; rfl)).nodataAccepted_sparse

/-- Every constructor checks that the pixel type accepts the nodata value. -/
theorem Built.nodataAccepted (h : r.Built) : r.NodataAccepted := by
  have hs := h.sound
  cases r with
  | sparse s => exact hs.nodataAccepted_sparse
  | dense d =>
    cases h with
    | @new b t m _ hm h =>
      cases b <;> obtain ⟨d', hd, he⟩ := map_eq_ok.mp h <;> cases he
      exact nodataAccepted_dense (DenseRaster.checks_ofData hd)
    | @filledWith b t m v _ hm h =>
      cases b <;> obtain ⟨d', hd, he⟩ := map_eq_ok.mp h <;> cases he
      obtain ⟨d₀, h₀, rfl⟩ := map_eq_ok.mp hd
      exact nodataAccepted_dense (DenseRaster.checks_ofData h₀).initNodataValues
    | @filledWithNodata b t m _ hm h =>
      cases b <;> obtain ⟨d', hd, he⟩ := map_eq_ok.mp h <;> cases he
      exact nodataAccepted_dense (DenseRaster.checks_filledWithNodata hd)
    | @ofList b t m values _ hm h =>
      cases b <;> obtain ⟨d', hd, he⟩ := map_eq_ok.mp h <;> cases he
      obtain ⟨d₀, h₀, rfl⟩ := map_eq_ok.mp hd
      exact nodataAccepted_dense (DenseRaster.checks_ofData h₀).initNodataValues
    | ofOptions hm h =>
      obtain ⟨u, -, h⟩ := bind_eq_ok.mp h
      exact nodataAccepted_ofCells hm h
    | ofCells hm h => exact nodataAccepted_ofCells hm h
  | masked k =>
    cases h with
    | @new b t m _ hm h =>
      cases b <;> obtain ⟨k', hk, he⟩ := map_eq_ok.mp h <;> cases he
      exact nodataAccepted_masked (MaskedRaster.checks_ofData hk)
    | @filledWith b t m v _ hm h =>
      cases b <;> obtain ⟨k', hk, he⟩ := map_eq_ok.mp h <;> cases he
      obtain ⟨k₀, h₀, rfl⟩ := map_eq_ok.mp hk
      exact nodataAccepted_masked ((MaskedRaster.checks_ofData h₀).of_eq
        (MaskedRaster.type_fill k₀ v) (MaskedRaster.metadata_fill k₀ v))
    | @filledWithNodata b t m _ hm h =>
      cases b <;> obtain ⟨k', hk, he⟩ := map_eq_ok.mp h <;> cases he
      obtain ⟨k₀, h₀, rfl⟩ := map_eq_ok.mp hk
      exact nodataAccepted_masked ((MaskedRaster.checks_ofData h₀).of_eq rfl rfl)
    | @ofList b t m values _ hm h =>
      cases b <;> obtain ⟨k', hk, he⟩ := map_eq_ok.mp h <;> cases he
      obtain ⟨k₀, h₀, rfl⟩ := map_eq_ok.mp hk
      exact nodataAccepted_masked ((MaskedRaster.checks_ofData h₀).of_eq
        (MaskedRaster.type_initNodataValues k₀) (MaskedRaster.metadata_initNodataValues k₀))
    | ofOptions hm h =>
      obtain ⟨u, -, h⟩ := bind_eq_ok.mp h
      exact nodataAccepted_ofCells hm h
    | ofCells hm h => exact nodataAccepted_ofCells hm h
    | ofDataWithMask hm h => exact nodataAccepted_masked (MaskedRaster.checks_ofData h)

/-! ### Every step keeps the nodata value accepted -/

section Steps

variable {d d' : DenseRaster} {k k' : MaskedRaster}

theorem keepsNodata_fillWithNodata (d : DenseRaster) :
    KeepsNodata (dense d) (dense d.fillWithNodata) := by
  unfold DenseRaster.fillWithNodata
  split
  · exact keepsNodata_dense rfl rfl
  · exact keepsNodata_dense rfl rfl

theorem keepsNodata_collapseData_dense (d : DenseRaster) :
    KeepsNodata (dense d) (dense d.collapseData) := by
  unfold DenseRaster.collapseData
  split
  · exact keepsNodata_dense rfl rfl
  · split
    · exact keepsNodata_dense rfl rfl
    · exact keepsNodata_dense rfl rfl

theorem keepsNodata_collapseData_masked (k : MaskedRaster) :
    KeepsNodata (masked k) (masked k.collapseData) := by
  unfold MaskedRaster.collapseData
  split
  · exact keepsNodata_masked rfl rfl
  · split
    · exact keepsNodata_masked rfl rfl
    · exact keepsNodata_masked rfl rfl

theorem keepsNodata_turnValueIntoNodata_masked (k : MaskedRaster) (v : Pixel) :
    KeepsNodata (masked k) (masked (k.turnValueIntoNodata v)) := by
  unfold MaskedRaster.turnValueIntoNodata
  split
  · -- the mask is allocated and flags the cells holding the value
    exact keepsNodata_masked (MaskedRaster.type_ensureMask k) (MaskedRaster.metadata_ensureMask k)
  · exact keepsNodata_masked rfl rfl

theorem keepsNodata_editEach_dense {edits : List CellEdit} {views : List CellView}
    (h : d.editEach edits = .ok (views, d')) : KeepsNodata (dense d) (dense d') := by
  unfold DenseRaster.editEach at h
  obtain ⟨⟨vs, data⟩, -, h⟩ := bind_eq_ok.mp h
  cases pure_eq_ok.mp h
  exact keepsNodata_dense rfl rfl

theorem keepsNodata_editEach_masked (k : MaskedRaster) (edits : List CellEdit) :
    KeepsNodata (masked k) (masked (k.editEach edits).2) := by
  refine keepsNodata_masked ?_ (MaskedRaster.editEach_eq k edits).1
  unfold MaskedRaster.editEach
  simp

theorem keepsNodata_assign_dense {sel : CellSelection} {v : Pixel} {cells : List Cell}
    (h : d.assign sel v = .ok (cells, d')) : KeepsNodata (dense d) (dense d') := by
  unfold DenseRaster.assign at h
  obtain ⟨w, -, h⟩ := bind_eq_ok.mp h
  obtain ⟨⟨cs, done⟩, -, h⟩ := bind_eq_ok.mp h
  cases pure_eq_ok.mp h
  exact keepsNodata_dense rfl rfl

theorem keepsNodata_assign_masked {sel : CellSelection} {v : Pixel} {cells : List Cell}
    (h : k.assign sel v = .ok (cells, k')) : KeepsNodata (masked k) (masked k') := by
  unfold MaskedRaster.assign at h
  obtain ⟨w, -, h⟩ := bind_eq_ok.mp h
  obtain ⟨⟨cs, done⟩, -, h⟩ := bind_eq_ok.mp h
  cases pure_eq_ok.mp h
  exact keepsNodata_masked rfl rfl

theorem keepsNodata_markAsData {i : Nat} (h : k.markAsData i = .ok k') :
    KeepsNodata (masked k) (masked k') := by
  unfold MaskedRaster.markAsData at h
  split at h
  · cases h
    exact keepsNodata_masked rfl rfl
  · obtain ⟨mask, -, h⟩ := bind_eq_ok.mp h
    cases pure_eq_ok.mp h
    exact keepsNodata_masked rfl rfl

end Steps

/-- What a step does to the pixel type and the nodata value: it keeps them, or it sets a pair it
has checked (a new nodata value, new metadata, no nodata value, a result built from cells), or it
gives a sparse raster, which lays its nodata value out. -/
theorem Step.keepsNodata_or_accepts (hs : Step r r') :
    KeepsNodata r r' ∨ r'.NodataAccepted ∨ r'.backend = .sparse := by
  cases hs with
  | setValue hs =>
    obtain ⟨-, ht, hm⟩ := setValue_keeps hs
    exact .inl ⟨ht, by rw [hm]⟩
  | fill r v =>
    cases r with
    | dense d => exact .inl (keepsNodata_dense rfl rfl)
    | masked k =>
      exact .inl (keepsNodata_masked (MaskedRaster.type_fill k v) (MaskedRaster.metadata_fill k v))
    | sparse s => exact .inr (.inr rfl)
  | fillValues r v =>
    cases r with
    | dense d => exact .inl (keepsNodata_dense rfl rfl)
    | masked k => exact .inl (keepsNodata_masked rfl rfl)
    | sparse s => exact .inr (.inr rfl)
  | fillWithNodata r =>
    cases r with
    | dense d => exact .inl (keepsNodata_fillWithNodata d)
    | masked k => exact .inl (keepsNodata_masked rfl rfl)
    | sparse s => exact .inr (.inr rfl)
  | turnValueIntoNodata hs =>
    cases r with
    | dense d =>
      obtain ⟨d', hd, rfl⟩ := map_eq_ok.mp hs
      obtain ⟨n, -, hd⟩ := bind_eq_ok.mp hd
      cases pure_eq_ok.mp hd
      exact .inl (keepsNodata_dense rfl rfl)
    | masked k =>
      cases hs
      exact .inl (keepsNodata_turnValueIntoNodata_masked k _)
    | sparse s =>
      cases hs
      exact .inr (.inr rfl)
  | setNodata hs =>
    cases r with
    | dense d =>
      obtain ⟨d', hd, rfl⟩ := map_eq_ok.mp hs
      obtain ⟨u, hv, hd⟩ := bind_eq_ok.mp hd
      cases pure_eq_ok.mp hd
      exact .inr (.inl hv)
    | masked k =>
      obtain ⟨k', hk, rfl⟩ := map_eq_ok.mp hs
      obtain ⟨u, hv, hk⟩ := bind_eq_ok.mp hk
      cases pure_eq_ok.mp hk
      exact .inr (.inl hv)
    | sparse s =>
      obtain ⟨s', -, rfl⟩ := map_eq_ok.mp hs
      exact .inr (.inr rfl)
  | setMetadata hm hs =>
    cases r with
    | dense d =>
      obtain ⟨d', hd, rfl⟩ := map_eq_ok.mp hs
      unfold DenseRaster.setMetadata at hd
      split at hd
      · cases hd
      · obtain ⟨u, hv, hd⟩ := bind_eq_ok.mp hd
        cases pure_eq_ok.mp hd
        exact .inr (.inl hv)
    | masked k =>
      obtain ⟨k', hk, rfl⟩ := map_eq_ok.mp hs
      unfold MaskedRaster.setMetadata at hk
      split at hk
      · cases hk
      · obtain ⟨u, hv, hk⟩ := bind_eq_ok.mp hk
        cases pure_eq_ok.mp hk
        exact .inr (.inl hv)
    | sparse s =>
      obtain ⟨s', -, rfl⟩ := map_eq_ok.mp hs
      exact .inr (.inr rfl)
  | resize r hr hc =>
    cases r with
    | dense d => exact .inl ⟨rfl, rfl⟩
    | masked k => exact .inl ⟨rfl, rfl⟩
    | sparse s => exact .inr (.inr rfl)
  | @resizeAndFill r rows cols v hr hc =>
    cases r with
    | dense d => exact .inl ⟨rfl, rfl⟩
    | masked k =>
      -- filling the resized raster
      refine .inl ⟨MaskedRaster.type_fill (k.resize rows cols) v, ?_⟩
      show ((k.resize rows cols).fill v).metadata.nodata = k.metadata.nodata
      rw [MaskedRaster.metadata_fill]
      rfl
    | sparse s => exact .inr (.inr rfl)
  | mapValues hq =>
    cases r with
    | dense d =>
      -- the result is built from the mapped cells, after checking its nodata value
      dsimp only [Raster.mapValues, Backend.ofCells] at hq
      obtain ⟨d', hd, rfl⟩ := map_eq_ok.mp hq
      exact .inr (.inl (nodataAccepted_dense (DenseRaster.checks_ofCells hd)))
    | masked k =>
      dsimp only [Raster.mapValues, Backend.ofCells] at hq
      obtain ⟨k', hk, rfl⟩ := map_eq_ok.mp hq
      exact .inr (.inl (nodataAccepted_masked (MaskedRaster.checks_ofCells hk)))
    | sparse s =>
      obtain ⟨s', -, rfl⟩ := map_eq_ok.mp hq
      exact .inr (.inr rfl)
  | rawSet hs =>
    obtain ⟨data, -, hs⟩ := Option.map_eq_some_iff.mp hs
    obtain ⟨data', -, rfl⟩ := map_eq_ok.mp hs
    exact .inl (keepsNodata_withBuffer _ _)
  | rawCellSet hs =>
    obtain ⟨data, -, hs⟩ := Option.map_eq_some_iff.mp hs
    obtain ⟨i, -, hs⟩ := bind_eq_ok.mp hs
    obtain ⟨data', -, rfl⟩ := map_eq_ok.mp hs
    exact .inl (keepsNodata_withBuffer _ _)
  | initNodataValues hs =>
    cases r with
    | dense d =>
      cases hs
      exact .inl (keepsNodata_dense (DenseRaster.type_initNodataValues d)
        (DenseRaster.metadata_initNodataValues d))
    | masked k =>
      cases hs
      exact .inl (keepsNodata_masked (MaskedRaster.type_initNodataValues k)
        (MaskedRaster.metadata_initNodataValues k))
    | sparse s => cases hs
  | collapseData hs =>
    cases r with
    | dense d =>
      cases hs
      exact .inl (keepsNodata_collapseData_dense d)
    | masked k =>
      cases hs
      exact .inl (keepsNodata_collapseData_masked k)
    | sparse s => cases hs
  | replaceNodata hs =>
    -- no nodata value is left, which every type accepts
    cases r with
    | dense d =>
      cases hs
      exact .inr (.inl rfl)
    | masked k =>
      cases hs
      exact .inr (.inl rfl)
    | sparse s => cases hs
  | resizeWithNodata hr hc hs =>
    cases r with
    | dense d =>
      obtain ⟨d', hd, rfl⟩ := map_eq_ok.mp (Option.some.inj hs)
      obtain ⟨u, hv, hd⟩ := bind_eq_ok.mp hd
      cases pure_eq_ok.mp hd
      exact .inr (.inl hv)
    | masked k =>
      obtain ⟨k', hk, rfl⟩ := map_eq_ok.mp (Option.some.inj hs)
      obtain ⟨u, hv, hk⟩ := bind_eq_ok.mp hk
      cases pure_eq_ok.mp hk
      -- the mask may be dropped; the nodata value is the one checked
      refine .inr (.inl ?_)
      split <;> exact hv
    | sparse s => cases hs
  | editEach hs =>
    cases r with
    | dense d =>
      obtain ⟨⟨vs, d'⟩, hd, he⟩ := map_eq_ok.mp (Option.some.inj hs)
      cases he
      exact .inl (keepsNodata_editEach_dense hd)
    | masked k =>
      cases hs
      exact .inl (keepsNodata_editEach_masked k _)
    | sparse s => cases hs
  | assign hs =>
    cases r with
    | dense d =>
      obtain ⟨⟨cs, d'⟩, hd, he⟩ := map_eq_ok.mp (Option.some.inj hs)
      cases he
      exact .inl (keepsNodata_assign_dense hd)
    | masked k =>
      obtain ⟨⟨cs, k'⟩, hk, he⟩ := map_eq_ok.mp (Option.some.inj hs)
      cases he
      exact .inl (keepsNodata_assign_masked hk)
    | sparse s => cases hs
  | markAsData hk => exact .inl (keepsNodata_markAsData hk)

/-- Every step of a sound raster keeps its nodata value accepted. -/
theorem Step.nodataAccepted (hs : Step r r') (hw : r.Sound) (h : r.NodataAccepted) :
    r'.NodataAccepted := by
  rcases hs.keepsNodata_or_accepts with hk | ha | hsp
  · exact h.of_keeps hk
  · exact ha
  · -- a sparse raster lays its nodata value out
    cases r' with
    | sparse s => exact (hs.sound hw).nodataAccepted_sparse
    | dense d => cases hsp
    | masked k => cases hsp

/-- Every reachable raster has a nodata value that its pixel type accepts. -/
theorem Reachable.nodataAccepted (h : r.Reachable) : r.NodataAccepted :=
  h.invariant _ (fun _ hb => hb.nodataAccepted) fun _ _ hr ih hs => hs.nodataAccepted hr.sound ih

/-! ### The results of the algebra -/

/-- The results of the algebra with a reachable left operand are reachable: an operation of two
rasters builds its result from cells, an operation of one raster maps its cells. -/
theorem Reachable.algebra (h : r.Reachable) :
    (∀ op b q, binary op r b = .ok q → q.Reachable) ∧
      (∀ op st s q, r.scalar op st s = .ok q → q.Reachable) ∧
      (∀ q, r.negate = .ok q → q.Reachable) ∧ (∀ q, r.logicalNot = .ok q → q.Reachable) ∧
      (∀ t q, r.cast t = .ok q → q.Reachable) := by
  refine ⟨fun op b q hq => ?_, fun op st s q hq => ?_, fun q hq => ?_, fun q hq => ?_,
    fun t q hq => ?_⟩
  · -- the cells of both operands, combined, with the metadata of the left one
    rw [binary_eq_ok] at hq
    obtain ⟨u, -, hq⟩ := bind_eq_ok.mp hq
    refine .built (.ofCells ?_ hq)
    exact h.sound.dims.of_size rfl
  · obtain ⟨-, sw, -, hq⟩ := scalar_eq_ok.mp hq
    exact h.step (.mapValues hq)
  · exact h.step (.mapValues (negate_eq_ok.mp hq).2)
  · exact h.step (.mapValues hq)
  · exact h.step (.mapValues hq)

end Raster

/-! ### The invariant of a raster with a buffer -/

/-- Once the type accepts the nodata value, the nodata value reads as a pixel exactly when there
is one. -/
theorem PixelType.isSome_nodataValue {t : PixelType} {n : Option Binary64}
    (h : t.validateNodata n = .ok ()) : (t.nodataValue n).isSome = n.isSome := by
  rw [Bool.eq_iff_iff, Option.isSome_iff_ne_none, Option.isSome_iff_ne_none, ne_eq, ne_eq,
    PixelType.nodataValue_eq_none_iff h]

namespace DenseRaster

/-- What a dense raster keeps through every edit: counts of rows and of columns, one stored value
per cell, a nodata value its pixel type accepts (which therefore reads as a pixel exactly when the
metadata have one), and reading its buffer through the policy of that type and nodata value. -/
structure Invariant (d : DenseRaster) : Prop where
  rows_nonneg : 0 ≤ d.metadata.rows
  cols_nonneg : 0 ≤ d.metadata.cols
  size_data : d.data.size = d.metadata.cellCount
  nodata_accepted : d.type.validateNodata d.metadata.nodata = .ok ()
  nodataValue_isSome : d.nodataValue.isSome = d.metadata.nodata.isSome
  policy_eq : d.policy = d.type.policy d.metadata.nodata

end DenseRaster

namespace MaskedRaster

/-- What a masked raster keeps through every edit: counts of rows and of columns, one stored value
per cell, a nodata value its pixel type accepts (which therefore reads as a pixel exactly when the
metadata have one), and a mask that is empty or flags every cell. -/
structure Invariant (k : MaskedRaster) : Prop where
  rows_nonneg : 0 ≤ k.metadata.rows
  cols_nonneg : 0 ≤ k.metadata.cols
  size_data : k.data.size = k.metadata.cellCount
  nodata_accepted : k.type.validateNodata k.metadata.nodata = .ok ()
  nodataValue_isSome : k.nodataValue.isSome = k.metadata.nodata.isSome
  mask_size : k.mask.size = 0 ∨ k.mask.size = k.data.size

end MaskedRaster

namespace Raster

variable {r : Raster}

theorem Sound.denseInvariant {d : DenseRaster} (h : (dense d).Sound)
    (ha : (dense d).NodataAccepted) : d.Invariant where
  rows_nonneg := h.wf.dims.rows_nonneg
  cols_nonneg := h.wf.dims.cols_nonneg
  size_data := h.wf.size_data
  nodata_accepted := ha
  nodataValue_isSome := PixelType.isSome_nodataValue ha
  policy_eq := h.dense_policy

theorem Sound.maskedInvariant {k : MaskedRaster} (h : (masked k).Sound)
    (ha : (masked k).NodataAccepted) : k.Invariant where
  rows_nonneg := h.wf.dims.rows_nonneg
  cols_nonneg := h.wf.dims.cols_nonneg
  size_data := h.wf.size_data
  nodata_accepted := ha
  nodataValue_isSome := PixelType.isSome_nodataValue ha
  mask_size := h.masked_mask_size

/-- Inside the grid of a well-formed raster a write fails only by aborting, when a dense raster is
asked to store a missing cell with no value to mark it. -/
theorem Wf.setValue_inBounds (h : r.Wf) {i : Nat} (hi : i < r.len) (x : Option Pixel) :
    (∃ r', r.setValue i x = .ok r') ∨
      r.setValue i x =
        .error (.abort "Cannot mark a cell as nodata in a raster without nodata value") := by
  cases hs : r.setValue i x with
  | ok r' => exact .inl ⟨r', rfl⟩
  | error e => exact .inr (by rw [((h.setValue_eq_error_iff hi).mp hs).1])

/-- Every reachable dense or masked raster satisfies the invariant of its storage; and inside the
grid of every reachable raster each cell can be read and asked about, and a write fails only by
aborting when a dense raster is asked to store a missing cell with no value to mark it. -/
theorem Reachable.bufferInvariant (h : r.Reachable) :
    (∀ d, r = dense d → d.Invariant) ∧ (∀ k, r = masked k → k.Invariant) ∧
      ∀ i < r.len, (∃ x, r.value i = .ok x) ∧ (∃ b, r.isNodata i = .ok b) ∧
        ∀ x, (∃ r', r.setValue i x = .ok r') ∨ r.setValue i x =
          .error (.abort "Cannot mark a cell as nodata in a raster without nodata value") := by
  have hs := h.sound
  have ha := h.nodataAccepted
  refine ⟨?_, ?_, fun i hi => ⟨⟨_, hs.wf.value_eq hi⟩, ⟨(r.toOptions.getD i none).isNone, ?_⟩,
    hs.wf.setValue_inBounds hi⟩⟩
  · rintro d rfl
    exact hs.denseInvariant ha
  · rintro k rfl
    exact hs.maskedInvariant ha
  · rw [hs.wf.isNodata_eq hi, hs.wf.value_eq hi]
    rfl

/-- A dense raster with a missing cell, given the nodata value `7` in place of `5` and then a
missing first cell, and a new masked raster whose second cell is then marked missing, are
reachable: they keep the invariant of their storage. The dense raster reads its old nodata cell as
the value `5` and its first cell, which stores `7`, as missing. -/
theorem bufferInvariant_after_edits :
    ∃ d₀ d₁ d₂ k₀ k₁,
      Backend.dense.ofOptions .int32 (Metadata.sized ⟨1, 3⟩ (some (BinaryFloat.ofInt 5)))
        [some (.int 4), none, some (.int 9)] = .ok d₀ ∧
      d₀.setNodata (some (BinaryFloat.ofInt 7)) = .ok d₁ ∧ d₁.setValue 0 none = .ok d₂ ∧
      d₂.toOptions = [none, some (.int 5), some (.int 9)] ∧
      ((∀ d, d₂ = dense d → d.Invariant) ∧ (∀ k, d₂ = masked k → k.Invariant) ∧
        ∀ i < d₂.len, (∃ x, d₂.value i = .ok x) ∧ (∃ b, d₂.isNodata i = .ok b) ∧
          ∀ x, (∃ r', d₂.setValue i x = .ok r') ∨ d₂.setValue i x =
            .error (.abort "Cannot mark a cell as nodata in a raster without nodata value")) ∧
      Backend.masked.new .int32 (Metadata.sized ⟨1, 3⟩ (some (BinaryFloat.ofInt 5))) = .ok k₀ ∧
      k₀.setValue 1 none = .ok k₁ ∧ k₁.toOptions = [some (.int 0), none, some (.int 0)] ∧
      ((∀ d, k₁ = dense d → d.Invariant) ∧ (∀ k, k₁ = masked k → k.Invariant) ∧
        ∀ i < k₁.len, (∃ x, k₁.value i = .ok x) ∧ (∃ b, k₁.isNodata i = .ok b) ∧
          ∀ x, (∃ r', k₁.setValue i x = .ok r') ∨ k₁.setValue i x =
            .error (.abort "Cannot mark a cell as nodata in a raster without nodata value")) := by
  have hm : (Metadata.sized ⟨1, 3⟩ (some (BinaryFloat.ofInt 5))).CoordDims := ⟨rfl, rfl⟩
  obtain ⟨d₀, hd₀⟩ : ∃ d, Backend.dense.ofOptions .int32
      (Metadata.sized ⟨1, 3⟩ (some (BinaryFloat.ofInt 5))) [some (.int 4), none, some (.int 9)] =
        .ok d := ⟨_, rfl⟩
  obtain ⟨d₁, hd₁⟩ : ∃ d, d₀.setNodata (some (BinaryFloat.ofInt 7)) = .ok d := by
    cases hd₀
    exact ⟨_, rfl⟩
  obtain ⟨d₂, hd₂⟩ : ∃ d, d₁.setValue 0 none = .ok d := by
    cases hd₀
    cases hd₁
    exact ⟨_, rfl⟩
  obtain ⟨k₀, hk₀⟩ : ∃ k, Backend.masked.new .int32
      (Metadata.sized ⟨1, 3⟩ (some (BinaryFloat.ofInt 5))) = .ok k := ⟨_, rfl⟩
  obtain ⟨k₁, hk₁⟩ : ∃ k, k₀.setValue 1 none = .ok k := by
    cases hk₀
    exact ⟨_, rfl⟩
  have hd := Reachable.bufferInvariant
    (((Reachable.built (.ofOptions hm hd₀)).step (.setNodata hd₁)).step (.setValue hd₂))
  have hk := Reachable.bufferInvariant ((Reachable.built (.new hm hk₀)).step (.setValue hk₁))
  refine ⟨d₀, d₁, d₂, k₀, k₁, hd₀, hd₁, hd₂, ?_, hd, hk₀, hk₁, ?_, hk⟩
  · cases hd₀
    cases hd₁
    cases hd₂
    rfl
  · cases hk₀
    cases hk₁
    rfl

end Raster

end Georaster
