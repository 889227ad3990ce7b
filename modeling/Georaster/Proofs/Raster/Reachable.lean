import Georaster.Proofs.Grid.Walker
import Georaster.Proofs.Sparse.Reachable
import Georaster.Raster.Selection
import Georaster.Raster.Buffered
/-!
# The rasters the library can reach

A raster is reachable when a constructor of one of the storages built it (`Raster.Built`) and
edits of the library changed it since, one `Raster.Step` at a time (`Raster.Reachable`). The
library keeps the numbers of rows and of columns in 32-bit signed integers, so the dimensions
given to a constructor or an edit are coordinates (`Metadata.CoordDims`).

Every reachable raster is sound: well formed in its storage (`Raster.Wf`: one stored value per
cell, a mask that is empty or flags every cell, sound rows in a sparse raster) and with
coordinate dimensions (`Raster.Sound`). Each constructor builds a sound raster and each step
keeps it sound; by induction every reachable raster is sound (`Reachable.sound`).

The steps are the edits common to every storage, the algebra and casts of one raster
(`mapValues`; the algebra of two rasters and the cellwise extremes build their result by
`ofCells`, transforms write their output by `setValue`), and the edits that only a raster with a
buffer offers: raw writes, the edit of every cell through its view, writing a selection of
cells, and moving values between the buffer and the nodata marking.
-/

namespace Georaster

/-- A fold in `Except` that keeps an invariant at every step keeps it to the end. -/
theorem foldlM_invariant {α β ε : Type} {f : β → α → Except ε β} (P : β → Prop)
    (hf : ∀ b a b', P b → f b a = .ok b' → P b') :
    ∀ (l : List α) {b b' : β}, P b → l.foldlM f b = .ok b' → P b'
  | [], _, _, hb, h => by
    cases h
    exact hb
  | a :: l, b, _, hb, h => by
    rw [List.foldlM_cons] at h
    obtain ⟨b₁, h₁, h⟩ := bind_eq_ok.mp h
    exact foldlM_invariant P hf l (hf b a b₁ hb h₁) h

namespace Metadata

/-- The dimensions are coordinates: the library keeps the numbers of rows and of columns in
32-bit signed integers. -/
structure CoordDims (m : Metadata) : Prop where
  rows_fits : Coord.fits m.rows = true
  cols_fits : Coord.fits m.cols = true

variable {m m' : Metadata}

theorem CoordDims.of_size (h : m.CoordDims) (hs : m'.size = m.size) : m'.CoordDims := by
  have hr : m'.rows = m.rows := congrArg GridSize.rows hs
  have hc : m'.cols = m.cols := congrArg GridSize.cols hs
  exact ⟨hr ▸ h.rows_fits, hc ▸ h.cols_fits⟩

theorem CoordDims.rows_lt (h : m.CoordDims) : m.rows < 2 ^ 31 := by
  have := h.rows_fits
  simp only [Coord.fits, decide_eq_true_eq] at this
  exact this.2

theorem CoordDims.cols_lt (h : m.CoordDims) : m.cols < 2 ^ 31 := by
  have := h.cols_fits
  simp only [Coord.fits, decide_eq_true_eq] at this
  exact this.2

/-- Columns that are a coordinate fit a machine word. -/
theorem CoordDims.cols_lt_wordSize (h : m.CoordDims) : m.cols < wordSize := by
  have := h.cols_lt
  simp only [wordSize]
  omega

/-- Dimensions given as coordinates, each taken as zero when negative, are coordinates. -/
theorem coordDims_resized (m : Metadata) {rows cols : Int} (hr : Coord.fits rows = true)
    (hc : Coord.fits cols = true) :
    ({ m with rows := max rows 0, cols := max cols 0 } : Metadata).CoordDims := by
  simp only [Coord.fits, decide_eq_true_eq] at hr hc
  constructor <;> simp only [Coord.fits, decide_eq_true_eq] <;> omega

end Metadata

namespace RasterIteratorMut

theorem data_of_new {data : Array Pixel} {cols : Int} {area : Area} {vf : ValueFilter}
    {lf : LocationFilter} {it : RasterIteratorMut} (h : new data cols area vf lf = .ok it) :
    it.data = data := by
  unfold new at h
  obtain ⟨b, -, h⟩ := bind_eq_ok.mp h
  split at h
  · cases pure_eq_ok.mp h
    rfl
  · cases h

end RasterIteratorMut

namespace DenseRaster

variable {d d' : DenseRaster}

/-- Setting a cell stores the value the policy writes for the cell, or aborts when the policy
has none. -/
theorem setValue_eq_write (d : DenseRaster) (i : Nat) (v : Option Pixel) :
    d.setValue i v = match d.policy.write v with
      | some x => (Buffer.set d.data i x).map fun data => { d with data }
      | none => abort "Cannot mark a cell as nodata in a raster without nodata value" := by
  cases v with
  | some x => rfl
  | none =>
    simp only [setValue, NodataPolicy.write]
    cases d.policy.missingValue <;> rfl

/-- Setting a cell stores, at an index inside the buffer, the value the policy writes for the
cell; a missing cell that the policy cannot write aborts. -/
theorem setValue_eq_ok {i : Nat} {v : Option Pixel} :
    d.setValue i v = .ok d' ↔ ∃ x, d.policy.write v = some x ∧ i < d.data.size ∧
      d' = { d with data := d.data.setIfInBounds i x } := by
  rw [setValue_eq_write]
  cases hx : d.policy.write v with
  | none => simp [abort]
  | some x =>
    simp only [Buffer.set]
    by_cases hi : i < d.data.size <;> simp [hi, eq_comm]

/-- Editing every cell through its view rewrites the buffer in place. -/
theorem editEach_eq_ok {edits : List CellEdit} {views : List CellView}
    (h : d.editEach edits = .ok (views, d')) :
    ∃ data : Array Pixel, d' = { d with data } ∧ data.size = d.data.size := by
  unfold editEach at h
  obtain ⟨⟨vs, data⟩, hfold, h⟩ := bind_eq_ok.mp h
  cases pure_eq_ok.mp h
  refine ⟨_, rfl, foldlM_invariant (fun acc => acc.2.size = d.data.size) ?_ _ rfl hfold⟩
  intro acc i acc' hacc hstep
  obtain ⟨x, -, hstep⟩ := bind_eq_ok.mp hstep
  cases pure_eq_ok.mp hstep
  exact Array.size_setIfInBounds.trans hacc

/-- Writing a selection rewrites the buffer in place. -/
theorem assign_eq_ok {sel : CellSelection} {v : Pixel} {cells : List Cell}
    (h : d.assign sel v = .ok (cells, d')) :
    ∃ data : Array Pixel, d' = { d with data } ∧ data.size = d.data.size := by
  unfold assign at h
  obtain ⟨w, hw, h⟩ := bind_eq_ok.mp h
  obtain ⟨⟨cs, done⟩, hdone, h⟩ := bind_eq_ok.mp h
  cases pure_eq_ok.mp h
  obtain ⟨area, -, hw⟩ := bind_eq_ok.mp hw
  exact ⟨_, rfl, (RasterIteratorMut.size_of_assign hdone).trans
    (RasterIteratorMut.data_of_new hw ▸ rfl)⟩

end DenseRaster

/-- A fold whose every step keeps the lengths of a buffer and of a mask keeps them. -/
theorem foldl_keeps_sizes {γ α : Type}
    (f : γ × Array Pixel × Array Bool → α → γ × Array Pixel × Array Bool)
    (hf : ∀ acc a, (f acc a).2.1.size = acc.2.1.size ∧ (f acc a).2.2.size = acc.2.2.size)
    (l : List α) (init : γ × Array Pixel × Array Bool) :
    (l.foldl f init).2.1.size = init.2.1.size ∧ (l.foldl f init).2.2.size = init.2.2.size :=
  List.foldlRecOn (motive := fun acc => acc.2.1.size = init.2.1.size ∧ acc.2.2.size = init.2.2.size)
    l f ⟨rfl, rfl⟩ fun acc hacc a _ => ⟨(hf acc a).1.trans hacc.1, (hf acc a).2.trans hacc.2⟩

namespace MaskedRaster

variable {k k' : MaskedRaster}

/-- The mask of a well-formed masked raster is empty or as long as the buffer. -/
theorem Wf.mask_size (h : k.Wf) : k.mask.size = 0 ∨ k.mask.size = k.data.size := by
  rcases h.size_mask with hm | hm
  · exact .inl (by simp [hm])
  · exact .inr hm

@[simp] theorem data_ensureMask (k : MaskedRaster) : k.ensureMask.data = k.data := by
  unfold ensureMask
  split <;> rfl

@[simp] theorem metadata_ensureMask (k : MaskedRaster) : k.ensureMask.metadata = k.metadata := by
  unfold ensureMask
  split <;> rfl

/-- Allocating the mask of a raster with cells makes it as long as the buffer. -/
theorem Wf.size_ensureMask (h : k.Wf) (hd : 0 < k.data.size) :
    k.ensureMask.mask.size = k.data.size := by
  unfold ensureMask
  split
  · simp
  · rename_i hne
    rcases h.mask_size with h0 | hs
    · -- an empty mask of a raster with cells is allocated
      have hm : k.mask = #[] := Array.eq_empty_of_size_eq_zero h0
      have hd' : k.data ≠ #[] := fun he => by simp [he] at hd
      simp [hm, hd'] at hne
    · exact hs

theorem Wf.mask_size_ensureMask (h : k.Wf) :
    k.ensureMask.mask.size = 0 ∨ k.ensureMask.mask.size = k.data.size := by
  by_cases hd : 0 < k.data.size
  · exact .inr (h.size_ensureMask hd)
  · unfold ensureMask
    split
    · simp
    · exact h.mask_size

/-- Storing a value writes it at an index inside the buffer and clears the cell's flag, if the
mask is allocated. -/
theorem setValue_some_eq_ok {i : Nat} {x : Pixel} :
    k.setValue i (some x) = .ok k' ↔ i < k.data.size ∧ (k.mask = #[] ∨ i < k.mask.size) ∧
      k' = { k with data := k.data.setIfInBounds i x, mask := k.mask.setIfInBounds i false } := by
  simp only [setValue, markAsData, Buffer.set]
  by_cases hi : i < k.data.size
  · by_cases hm : k.mask = #[]
    · simp [hi, hm, eq_comm]
    · have hne : k.mask.isEmpty = false := by simpa using hm
      by_cases hmi : i < k.mask.size <;> simp [hi, hm, hne, hmi, eq_comm]
  · simp [hi]

/-- Marking a cell missing allocates the mask and flags the cell, at an index inside it. -/
theorem setValue_none_eq_ok {i : Nat} :
    k.setValue i none = .ok k' ↔ i < k.ensureMask.mask.size ∧
      k' = { k.ensureMask with mask := k.ensureMask.mask.setIfInBounds i true } := by
  simp only [setValue, Buffer.set]
  by_cases hi : i < k.ensureMask.mask.size <;> simp [hi, eq_comm]

theorem markAsData_eq_ok {i : Nat} (h : k.markAsData i = .ok k') :
    k'.metadata = k.metadata ∧ k'.data = k.data ∧ (k'.mask = k.mask ∨ k'.mask.size = k.mask.size) := by
  unfold markAsData at h
  split at h
  · cases h
    exact ⟨rfl, rfl, .inl rfl⟩
  · obtain ⟨mask, hmask, h⟩ := bind_eq_ok.mp h
    cases pure_eq_ok.mp h
    exact ⟨rfl, rfl, .inr (Buffer.size_of_set_eq_ok hmask)⟩

/-- Editing every cell through its view allocates the mask and rewrites buffer and mask in
place. -/
theorem editEach_eq (k : MaskedRaster) (edits : List CellEdit) :
    (k.editEach edits).2.metadata = k.metadata ∧
      (k.editEach edits).2.data.size = k.data.size ∧
      (k.editEach edits).2.mask.size = k.ensureMask.mask.size := by
  unfold editEach
  simp only
  refine ⟨by simp, ?_, ?_⟩
  · exact (foldl_keeps_sizes _ (fun _ _ => ⟨by simp, by simp⟩) _ _).1.trans (by simp)
  · exact (foldl_keeps_sizes _ (fun _ _ => ⟨by simp, by simp⟩) _ _).2

/-- Writing a selection rewrites the buffer in place. -/
theorem assign_eq_ok {sel : CellSelection} {v : Pixel} {cells : List Cell}
    (h : k.assign sel v = .ok (cells, k')) :
    k'.metadata = k.metadata ∧ k'.data.size = k.data.size ∧ k'.mask = k.mask := by
  unfold assign at h
  obtain ⟨w, hw, h⟩ := bind_eq_ok.mp h
  obtain ⟨⟨cs, done⟩, hdone, h⟩ := bind_eq_ok.mp h
  cases pure_eq_ok.mp h
  obtain ⟨area, -, hw⟩ := bind_eq_ok.mp hw
  exact ⟨rfl, (RasterIteratorMut.size_of_assign hdone).trans (RasterIteratorMut.data_of_new hw ▸ rfl),
    rfl⟩

end MaskedRaster

namespace SparseRaster

variable {s s' : SparseRaster}

@[simp] theorem metadata_fill (s : SparseRaster) (v : Pixel) : (s.fill v).metadata = s.metadata := by
  unfold SparseRaster.fill
  split <;> rfl

theorem size_of_setMetadata_eq_ok {m : Metadata} (h : s.setMetadata m = .ok s') :
    s'.metadata = m ∧ s'.metadata.size = s.metadata.size := by
  unfold SparseRaster.setMetadata at h
  split at h
  · cases h
  · rename_i hsize
    obtain ⟨n, -, h⟩ := bind_eq_ok.mp h
    cases pure_eq_ok.mp h
    refine ⟨rfl, ?_⟩
    simp only [Metadata.size, GridSize.mk.injEq]
    omega

theorem metadata_of_setNodata_eq_ok {n : Option Binary64} (h : s.setNodata n = .ok s') :
    s'.metadata = s.metadata.withNodata n := by
  obtain ⟨x, -, h⟩ := bind_eq_ok.mp h
  cases pure_eq_ok.mp h
  rfl

theorem metadata_of_mapValues_eq_ok {t : PixelType} {n : Option Binary64}
    {op : Pixel → Option Pixel} (h : s.mapValues t n op = .ok s') :
    s'.metadata = s.metadata.withNodata n :=
  (ofSortedEntries_eq_ok h).2.1

theorem metadata_of_ofList_eq_ok {t : PixelType} {m : Metadata} {values : List Pixel}
    (h : ofList t m values = .ok s) : s.metadata = m := by
  unfold ofList at h
  obtain ⟨n, -, h⟩ := bind_eq_ok.mp h
  obtain ⟨u, -, h⟩ := bind_eq_ok.mp h
  exact (ofSortedEntries_eq_ok h).2.1

theorem metadata_of_ofTriplets_eq_ok {t : PixelType} {m : Metadata}
    {triplets : List (Cell × Pixel)} (h : ofTriplets t m triplets = .ok s) : s.metadata = m := by
  unfold ofTriplets at h
  split at h
  · cases h
  · exact (ofSortedEntries_eq_ok h).2.1

end SparseRaster

namespace Raster

/-- A raster in a state the library can reach: well formed in its storage, with coordinate
dimensions. -/
structure Sound (r : Raster) : Prop where
  wf : r.Wf
  dims : r.metadata.CoordDims

/-! ### Dense rasters -/

section Dense

variable {d d' : DenseRaster}

/-- A dense raster whose dimensions are counts and coordinates, whose buffer holds one value per
cell and which reads its buffer through the policy of its type and nodata value is sound. -/
theorem sound_dense (h0 : 0 ≤ d.metadata.rows) (h1 : 0 ≤ d.metadata.cols)
    (hd : d.metadata.CoordDims) (hs : d.data.size = d.len)
    (hp : d.policy = d.type.policy d.metadata.nodata) : (dense d).Sound :=
  ⟨⟨⟨h0, h1, hd.cols_lt_wordSize⟩, hs, hp⟩, hd⟩

/-- A sound dense raster reads its buffer through the policy of its type and nodata value. -/
theorem Sound.dense_policy (h : (dense d).Sound) : d.policy = d.type.policy d.metadata.nodata :=
  DenseRaster.Wf.policy_eq h.wf

/-- A dense raster stays sound when its grid and its buffer keep their sizes and it reads its
buffer through the policy of its type and nodata value. -/
theorem Sound.dense_of_size (h : (dense d).Sound) (hm : d'.metadata.size = d.metadata.size)
    (hs : d'.data.size = d.data.size) (hp : d'.policy = d'.type.policy d'.metadata.nodata) :
    (dense d').Sound := by
  have hr : d'.metadata.rows = d.metadata.rows := congrArg GridSize.rows hm
  have hc : d'.metadata.cols = d.metadata.cols := congrArg GridSize.cols hm
  have hw : d.Wf := h.wf
  refine sound_dense (hr ▸ hw.dims.rows_nonneg) (hc ▸ hw.dims.cols_nonneg)
    (h.dims.of_size hm) ?_ hp
  rw [hs, hw.size_data]
  simp only [DenseRaster.len, Metadata.cellCount, hm]

/-- A sound dense raster stays sound when only its buffer changes, keeping its length. -/
theorem Sound.dense_withData (h : (dense d).Sound) {data : Array Pixel}
    (hs : data.size = d.data.size) : (dense { d with data }).Sound :=
  h.dense_of_size rfl hs h.dense_policy

theorem Sound.dense_fill (h : (dense d).Sound) (v : Pixel) : (dense (d.fill v)).Sound :=
  h.dense_withData Array.size_replicate

theorem Sound.dense_fillValues (h : (dense d).Sound) (v : Pixel) :
    (dense (d.fillValues v)).Sound :=
  h.dense_withData Array.size_map

theorem Sound.dense_fillWithNodata (h : (dense d).Sound) : (dense d.fillWithNodata).Sound := by
  unfold DenseRaster.fillWithNodata
  split
  · exact h.dense_fill _
  · exact h

theorem Sound.dense_initNodataValues (h : (dense d).Sound) :
    (dense d.initNodataValues).Sound := by
  unfold DenseRaster.initNodataValues
  split
  · exact h
  · split
    · split
      · exact h
      · exact h.dense_withData Array.size_map
    · exact h

theorem Sound.dense_collapseData (h : (dense d).Sound) : (dense d.collapseData).Sound := by
  unfold DenseRaster.collapseData
  split
  · exact h
  · split
    · exact h.dense_withData Array.size_map
    · exact h

theorem Sound.dense_replaceNodata (h : (dense d).Sound) (v : Pixel) :
    (dense (d.replaceNodata v)).Sound :=
  h.dense_of_size rfl Array.size_map rfl

theorem Sound.dense_turnValueIntoNodata (h : (dense d).Sound) {v : Pixel}
    (hd : d.turnValueIntoNodata v = .ok d') : (dense d').Sound := by
  obtain ⟨n, -, hd⟩ := bind_eq_ok.mp hd
  cases pure_eq_ok.mp hd
  exact h.dense_withData Array.size_map

theorem Sound.dense_setNodata (h : (dense d).Sound) {n : Option Binary64}
    (hd : d.setNodata n = .ok d') : (dense d').Sound := by
  obtain ⟨u, -, hd⟩ := bind_eq_ok.mp hd
  cases pure_eq_ok.mp hd
  exact h.dense_of_size rfl rfl rfl

theorem sound_dense_setMetadata {m : Metadata} (hm : m.CoordDims) (hd : d.setMetadata m = .ok d') :
    (dense d').Sound := by
  unfold DenseRaster.setMetadata at hd
  split at hd
  · cases hd
  · rename_i hsize
    obtain ⟨u, -, hd⟩ := bind_eq_ok.mp hd
    cases pure_eq_ok.mp hd
    exact sound_dense (show 0 ≤ m.rows by omega) (show 0 ≤ m.cols by omega) hm
      (by simp [DenseRaster.len]; omega) rfl

/-- Resizing a dense raster that reads its buffer through its own policy gives a sound raster;
the metadata's nodata value and the policy stay. -/
theorem sound_dense_resize (d : DenseRaster) {rows cols : Int} (hr : Coord.fits rows = true)
    (hc : Coord.fits cols = true) (hp : d.policy = d.type.policy d.metadata.nodata) :
    (dense (d.resize rows cols)).Sound :=
  sound_dense (show 0 ≤ max rows 0 by omega) (show 0 ≤ max cols 0 by omega)
    (Metadata.coordDims_resized _ hr hc) (Buffer.size_resize _ _ _) hp

theorem sound_dense_resizeWithNodata {rows cols : Int} {n : Option Binary64}
    (hr : Coord.fits rows = true) (hc : Coord.fits cols = true)
    (hd : d.resizeWithNodata rows cols n = .ok d') : (dense d').Sound := by
  obtain ⟨u, -, hd⟩ := bind_eq_ok.mp hd
  cases pure_eq_ok.mp hd
  exact sound_dense (show 0 ≤ max rows 0 by omega) (show 0 ≤ max cols 0 by omega)
    ((Metadata.coordDims_resized d.metadata hr hc).of_size rfl) (Buffer.size_resize _ _ _) rfl

theorem Sound.dense_setValue (h : (dense d).Sound) {i : Nat} {v : Option Pixel}
    (hd : d.setValue i v = .ok d') : (dense d').Sound := by
  obtain ⟨x, -, -, rfl⟩ := DenseRaster.setValue_eq_ok.mp hd
  exact h.dense_withData Array.size_setIfInBounds

end Dense

/-! ### Masked rasters -/

section Masked

variable {k k' : MaskedRaster}

/-- A masked raster whose dimensions are counts and coordinates, whose buffer holds one value per
cell and whose mask is empty or as long as the buffer is sound. -/
theorem sound_masked (h0 : 0 ≤ k.metadata.rows) (h1 : 0 ≤ k.metadata.cols)
    (hd : k.metadata.CoordDims) (hs : k.data.size = k.len)
    (hmask : k.mask.size = 0 ∨ k.mask.size = k.data.size) : (masked k).Sound :=
  ⟨⟨⟨h0, h1, hd.cols_lt_wordSize⟩, hs, hmask.imp Array.eq_empty_of_size_eq_zero id⟩, hd⟩

/-- A masked raster stays sound when its grid and its buffer keep their sizes and its mask stays
empty or as long as the buffer. -/
theorem Sound.masked_of_size (h : (masked k).Sound) (hm : k'.metadata.size = k.metadata.size)
    (hs : k'.data.size = k.data.size) (hmask : k'.mask.size = 0 ∨ k'.mask.size = k.data.size) :
    (masked k').Sound := by
  have hr : k'.metadata.rows = k.metadata.rows := congrArg GridSize.rows hm
  have hc : k'.metadata.cols = k.metadata.cols := congrArg GridSize.cols hm
  have hw : k.Wf := h.wf
  refine sound_masked (hr ▸ hw.dims.rows_nonneg) (hc ▸ hw.dims.cols_nonneg)
    (h.dims.of_size hm) ?_ (hs ▸ hmask)
  rw [hs, hw.size_data]
  simp only [MaskedRaster.len, Metadata.cellCount, hm]

theorem Sound.masked_mask_size (h : (masked k).Sound) :
    k.mask.size = 0 ∨ k.mask.size = k.data.size :=
  MaskedRaster.Wf.mask_size h.wf

theorem Sound.masked_fill (h : (masked k).Sound) (v : Pixel) : (masked (k.fill v)).Sound := by
  unfold MaskedRaster.fill
  dsimp only
  split
  · exact h.masked_of_size rfl Array.size_replicate h.masked_mask_size
  · split
    · exact h.masked_of_size rfl Array.size_replicate (.inr Array.size_replicate)
    · exact h.masked_of_size rfl Array.size_replicate (.inl rfl)

theorem Sound.masked_fillValues (h : (masked k).Sound) (v : Pixel) :
    (masked (k.fillValues v)).Sound :=
  h.masked_of_size rfl Array.size_replicate h.masked_mask_size

theorem Sound.masked_fillWithNodata (h : (masked k).Sound) : (masked k.fillWithNodata).Sound :=
  h.masked_of_size rfl rfl (.inr Array.size_replicate)

theorem Sound.masked_initNodataValues (h : (masked k).Sound) :
    (masked k.initNodataValues).Sound := by
  unfold MaskedRaster.initNodataValues
  split
  · exact h
  · refine h.masked_of_size rfl rfl ?_
    dsimp only
    split
    · exact .inr Array.size_map
    · exact .inl rfl

theorem Sound.masked_collapseData (h : (masked k).Sound) : (masked k.collapseData).Sound := by
  unfold MaskedRaster.collapseData
  split
  · exact h
  · rename_i hne
    split
    · -- an allocated mask is as long as the buffer, so the pairs are as many as the cells
      have hmask : k.mask.size = k.data.size :=
        h.masked_mask_size.resolve_left fun h0 => hne (by simp [Array.eq_empty_of_size_eq_zero h0])
      exact h.masked_of_size rfl (by simp [hmask]) h.masked_mask_size
    · exact h

theorem Sound.masked_turnValueIntoNodata (h : (masked k).Sound) (v : Pixel) :
    (masked (k.turnValueIntoNodata v)).Sound := by
  unfold MaskedRaster.turnValueIntoNodata
  split
  · -- the mask is allocated first, so the flags are as many as the cells
    have hw : k.Wf := h.wf
    refine h.masked_of_size (by simp) (by simp) ?_
    simp only [Array.size_map, Array.size_zip, MaskedRaster.data_ensureMask]
    rcases hw.mask_size_ensureMask with h0 | hs
    · exact .inl (by rw [h0]; exact Nat.min_zero _)
    · exact .inr (by rw [hs]; exact Nat.min_self _)
  · exact h

theorem Sound.masked_replaceNodata (h : (masked k).Sound) (v : Pixel) :
    (masked (k.replaceNodata v)).Sound :=
  h.masked_of_size rfl (by simp [MaskedRaster.replaceNodata]) (.inl rfl)

theorem Sound.masked_setNodata (h : (masked k).Sound) {n : Option Binary64}
    (hk : k.setNodata n = .ok k') : (masked k').Sound := by
  obtain ⟨u, -, hk⟩ := bind_eq_ok.mp hk
  cases pure_eq_ok.mp hk
  exact h.masked_of_size rfl rfl h.masked_mask_size

theorem Sound.masked_setMetadata (h : (masked k).Sound) {m : Metadata} (hm : m.CoordDims)
    (hk : k.setMetadata m = .ok k') : (masked k').Sound := by
  unfold MaskedRaster.setMetadata at hk
  split at hk
  · cases hk
  · rename_i hsize
    obtain ⟨u, -, hk⟩ := bind_eq_ok.mp hk
    cases pure_eq_ok.mp hk
    exact sound_masked (show 0 ≤ m.rows by omega) (show 0 ≤ m.cols by omega) hm
      (by simp [MaskedRaster.len]; omega) h.masked_mask_size

theorem sound_masked_resize (k : MaskedRaster) {rows cols : Int}
    (hr : Coord.fits rows = true) (hc : Coord.fits cols = true) :
    (masked (k.resize rows cols)).Sound := by
  refine sound_masked (show 0 ≤ max rows 0 by omega) (show 0 ≤ max cols 0 by omega)
    (Metadata.coordDims_resized _ hr hc) (Buffer.size_resize _ _ _) ?_
  simp only [MaskedRaster.resize]
  split
  · exact .inl (by simpa using ‹k.mask.isEmpty = true›)
  · exact .inr (by simp)

theorem sound_masked_resizeWithNodata {rows cols : Int}
    {n : Option Binary64} (hr : Coord.fits rows = true) (hc : Coord.fits cols = true)
    (hk : k.resizeWithNodata rows cols n = .ok k') : (masked k').Sound := by
  obtain ⟨u, -, hk⟩ := bind_eq_ok.mp hk
  cases pure_eq_ok.mp hk
  have hs := sound_masked_resize k hr hc
  dsimp only
  split
  · exact hs.masked_of_size rfl rfl (.inl rfl)
  · exact hs.masked_of_size rfl rfl hs.masked_mask_size

theorem Sound.masked_setValue (h : (masked k).Sound) {i : Nat} {v : Option Pixel}
    (hk : k.setValue i v = .ok k') : (masked k').Sound := by
  have hw : k.Wf := h.wf
  cases v with
  | some x =>
    obtain ⟨-, -, rfl⟩ := MaskedRaster.setValue_some_eq_ok.mp hk
    exact h.masked_of_size rfl (by simp) (by simpa using h.masked_mask_size)
  | none =>
    obtain ⟨-, rfl⟩ := MaskedRaster.setValue_none_eq_ok.mp hk
    exact h.masked_of_size (by simp) (by simp) (by simpa using hw.mask_size_ensureMask)

theorem Sound.masked_markAsData (h : (masked k).Sound) {i : Nat} (hk : k.markAsData i = .ok k') :
    (masked k').Sound := by
  obtain ⟨hm, hd, hmask⟩ := MaskedRaster.markAsData_eq_ok hk
  refine h.masked_of_size (by rw [hm]) (by rw [hd]) ?_
  rcases hmask with hmask | hmask <;> rw [hmask] <;> exact h.masked_mask_size

theorem Sound.masked_editEach (h : (masked k).Sound) (edits : List CellEdit) :
    (masked (k.editEach edits).2).Sound := by
  have hw : k.Wf := h.wf
  obtain ⟨hm, hd, hmask⟩ := MaskedRaster.editEach_eq k edits
  exact h.masked_of_size (by rw [hm]) hd (by rw [hmask]; exact hw.mask_size_ensureMask)

theorem Sound.masked_assign (h : (masked k).Sound) {sel : CellSelection} {v : Pixel}
    {cells : List Cell} (hk : k.assign sel v = .ok (cells, k')) : (masked k').Sound := by
  obtain ⟨hm, hd, hmask⟩ := MaskedRaster.assign_eq_ok hk
  exact h.masked_of_size (by rw [hm]) hd (by rw [hmask]; exact h.masked_mask_size)

end Masked

/-! ### Sparse rasters -/

section Sparse

variable {s s' : SparseRaster}

/-- A sparse raster that lays out sound rows and has coordinate dimensions is sound. -/
theorem sound_sparse (hl : ∃ rows, s.Layout rows) (hd : s.metadata.CoordDims) :
    (sparse s).Sound :=
  ⟨⟨hl, hd.cols_lt_wordSize⟩, hd⟩

theorem Sound.sparse_layout (h : (sparse s).Sound) : ∃ rows, s.Layout rows :=
  SparseRaster.Wf.layout h.wf

/-- A sparse raster stays sound when its rows stay sound and its grid keeps its size. -/
theorem Sound.sparse_of_layout (h : (sparse s).Sound)
    (hl : ∀ rows, s.Layout rows → ∃ rows', s'.Layout rows')
    (hm : s'.metadata.size = s.metadata.size) : (sparse s').Sound :=
  sound_sparse (h.sparse_layout.elim hl) (h.dims.of_size hm)

theorem sound_sparse_empty {t : PixelType} {m : Metadata} (hm : m.CoordDims)
    (h : SparseRaster.empty t m = .ok s) : (sparse s).Sound := by
  have hl := SparseRaster.layout_empty h
  obtain ⟨n, -, -, -, rfl⟩ := SparseRaster.empty_eq_ok.mp h
  exact sound_sparse ⟨_, hl⟩ hm

end Sparse

/-! ### Constructors and steps -/

/-- The rasters that the constructors of the library build, from metadata whose dimensions are
coordinates. -/
inductive Built : Raster → Prop
  | new {b : Backend} {t : PixelType} {m : Metadata} {r : Raster} :
      m.CoordDims → b.new t m = .ok r → Built r
  | filledWith {b : Backend} {t : PixelType} {m : Metadata} {v : Pixel} {r : Raster} :
      m.CoordDims → b.filledWith t m v = .ok r → Built r
  | filledWithNodata {b : Backend} {t : PixelType} {m : Metadata} {r : Raster} :
      m.CoordDims → b.filledWithNodata t m = .ok r → Built r
  | ofList {b : Backend} {t : PixelType} {m : Metadata} {values : List Pixel} {r : Raster} :
      m.CoordDims → b.ofList t m values = .ok r → Built r
  | ofOptions {b : Backend} {t : PixelType} {m : Metadata} {values : List (Option Pixel)}
      {r : Raster} : m.CoordDims → b.ofOptions t m values = .ok r → Built r
  | ofCells {b : Backend} {t : PixelType} {m : Metadata} {cell : Nat → Option Pixel}
      {r : Raster} : m.CoordDims → b.ofCells t m cell = .ok r → Built r
  | ofTriplets {t : PixelType} {m : Metadata} {triplets : List (Cell × Pixel)}
      {s : SparseRaster} : m.CoordDims → SparseRaster.ofTriplets t m triplets = .ok s →
      Built (sparse s)
  | ofDataWithMask {t : PixelType} {m : Metadata} {data : Array Pixel} {mask : Array Bool}
      {k : MaskedRaster} : m.CoordDims → MaskedRaster.ofData t m data mask = .ok k →
      Built (masked k)

/-- One edit of a raster by the library, from the raster it is applied to to the raster it
gives. Setting a cell by its position (`setCellValue`, marking it as nodata) sets the cell at its
index. -/
inductive Step : Raster → Raster → Prop
  | setValue {r : Raster} {i : Nat} {v : Option Pixel} {r' : Raster} :
      r.setValue i v = .ok r' → Step r r'
  | fill (r : Raster) (v : Pixel) : Step r (r.fill v)
  | fillValues (r : Raster) (v : Pixel) : Step r (r.fillValues v)
  | fillWithNodata (r : Raster) : Step r r.fillWithNodata
  | turnValueIntoNodata {r : Raster} {v : Pixel} {r' : Raster} :
      r.turnValueIntoNodata v = .ok r' → Step r r'
  | setNodata {r : Raster} {n : Option Binary64} {r' : Raster} :
      r.setNodata n = .ok r' → Step r r'
  | setMetadata {r : Raster} {m : Metadata} {r' : Raster} :
      m.CoordDims → r.setMetadata m = .ok r' → Step r r'
  | resize (r : Raster) {rows cols : Int} :
      Coord.fits rows = true → Coord.fits cols = true → Step r (r.resize rows cols)
  | resizeAndFill (r : Raster) {rows cols : Int} (v : Pixel) :
      Coord.fits rows = true → Coord.fits cols = true → Step r (r.resizeAndFill rows cols v)
  | mapValues {r : Raster} {t : PixelType} {n : Option Binary64} {op : Pixel → Option Pixel}
      {q : Raster} : r.mapValues t n op = .ok q → Step r q
  | rawSet {r : Raster} {i : Nat} {v : Pixel} {r' : Raster} :
      r.rawSet? i v = some (.ok r') → Step r r'
  | rawCellSet {r : Raster} {c : Cell} {v : Pixel} {r' : Raster} :
      r.rawCellSet? c v = some (.ok r') → Step r r'
  | initNodataValues {r r' : Raster} : r.initNodataValues? = some r' → Step r r'
  | collapseData {r r' : Raster} : r.collapseData? = some r' → Step r r'
  | replaceNodata {r : Raster} {v : Pixel} {r' : Raster} : r.replaceNodata? v = some r' → Step r r'
  | resizeWithNodata {r : Raster} {rows cols : Int} {n : Option Binary64} {r' : Raster} :
      Coord.fits rows = true → Coord.fits cols = true →
      r.resizeWithNodata? rows cols n = some (.ok r') → Step r r'
  | editEach {r : Raster} {edits : List CellEdit} {views : List CellView} {r' : Raster} :
      r.editEach? edits = some (.ok (views, r')) → Step r r'
  | assign {r : Raster} {sel : CellSelection} {v : Pixel} {cells : List Cell} {r' : Raster} :
      r.assign? sel v = some (.ok (cells, r')) → Step r r'
  | markAsData {k : MaskedRaster} {i : Nat} {k' : MaskedRaster} :
      k.markAsData i = .ok k' → Step (masked k) (masked k')

/-- The rasters built by a constructor and then edited, one step at a time. -/
inductive Reachable : Raster → Prop
  | built {r : Raster} : Built r → Reachable r
  | step {r r' : Raster} : Reachable r → Step r r' → Reachable r'

/-! ### Every constructor builds a sound raster -/

variable {r r' : Raster}

theorem sound_dense_ofData {t : PixelType} {m : Metadata} {data : Array Pixel} {d : DenseRaster}
    (hm : m.CoordDims) (h : DenseRaster.ofData t m data = .ok d) : (dense d).Sound := by
  obtain ⟨-, h0, h1, hsize, rfl⟩ := DenseRaster.ofData_eq_ok.mp h
  exact sound_dense h0 h1 hm hsize.symm rfl

theorem sound_masked_ofData {t : PixelType} {m : Metadata} {data : Array Pixel}
    {mask : Array Bool} {k : MaskedRaster} (hm : m.CoordDims)
    (h : MaskedRaster.ofData t m data mask = .ok k) : (masked k).Sound := by
  obtain ⟨-, h0, h1, hsize, hmask, rfl⟩ := MaskedRaster.ofData_eq_ok.mp h
  exact sound_masked h0 h1 hm hsize.symm (hmask.imp (fun he => by simp [he]) id)

theorem sound_ofCells {b : Backend} {t : PixelType} {m : Metadata} {cell : Nat → Option Pixel}
    (hm : m.CoordDims) (h : b.ofCells t m cell = .ok r) : r.Sound := by
  have hh := Backend.ofCells_eq_ok hm.cols_lt_wordSize h
  exact ⟨hh.wf, hh.metadata_eq ▸ hm⟩

/-! ### Every step keeps a raster sound -/

theorem Sound.setValue (h : r.Sound) {i : Nat} {v : Option Pixel}
    (hs : r.setValue i v = .ok r') : r'.Sound := by
  cases r with
  | dense d =>
    obtain ⟨d', hd, rfl⟩ := map_eq_ok.mp hs
    exact h.dense_setValue hd
  | masked k =>
    obtain ⟨k', hk, rfl⟩ := map_eq_ok.mp hs
    exact h.masked_setValue hk
  | sparse s =>
    obtain ⟨s', hs', rfl⟩ := map_eq_ok.mp hs
    exact h.sparse_of_layout (fun _ hl => ⟨_, hl.setValue hs'⟩)
      (by rw [SparseRaster.metadata_of_setValue_eq_ok hs'])

theorem Sound.fill (h : r.Sound) (v : Pixel) : (r.fill v).Sound := by
  cases r with
  | dense d => exact h.dense_fill v
  | masked k => exact h.masked_fill v
  | sparse s => exact h.sparse_of_layout (fun _ hl => ⟨_, hl.fill v⟩) (by simp)

theorem Sound.fillValues (h : r.Sound) (v : Pixel) : (r.fillValues v).Sound := by
  cases r with
  | dense d => exact h.dense_fillValues v
  | masked k => exact h.masked_fillValues v
  | sparse s => exact h.sparse_of_layout (fun _ hl => ⟨_, hl.fillValues v⟩) rfl

theorem Sound.fillWithNodata (h : r.Sound) : r.fillWithNodata.Sound := by
  cases r with
  | dense d => exact h.dense_fillWithNodata
  | masked k => exact h.masked_fillWithNodata
  | sparse s => exact h.sparse_of_layout (fun _ hl => ⟨_, hl.fillWithNodata⟩) rfl

theorem Sound.turnValueIntoNodata (h : r.Sound) {v : Pixel}
    (hs : r.turnValueIntoNodata v = .ok r') : r'.Sound := by
  cases r with
  | dense d =>
    obtain ⟨d', hd, rfl⟩ := map_eq_ok.mp hs
    exact h.dense_turnValueIntoNodata hd
  | masked k =>
    cases hs
    exact h.masked_turnValueIntoNodata v
  | sparse s =>
    cases hs
    exact h.sparse_of_layout (fun _ hl => ⟨_, hl.turnValueIntoNodata v⟩) rfl

theorem Sound.setNodata (h : r.Sound) {n : Option Binary64} (hs : r.setNodata n = .ok r') :
    r'.Sound := by
  cases r with
  | dense d =>
    obtain ⟨d', hd, rfl⟩ := map_eq_ok.mp hs
    exact h.dense_setNodata hd
  | masked k =>
    obtain ⟨k', hk, rfl⟩ := map_eq_ok.mp hs
    exact h.masked_setNodata hk
  | sparse s =>
    obtain ⟨s', hs', rfl⟩ := map_eq_ok.mp hs
    exact h.sparse_of_layout (fun _ hl => ⟨_, hl.setNodata hs'⟩)
      (by rw [SparseRaster.metadata_of_setNodata_eq_ok hs']; rfl)

theorem Sound.setMetadata (h : r.Sound) {m : Metadata} (hm : m.CoordDims)
    (hs : r.setMetadata m = .ok r') : r'.Sound := by
  cases r with
  | dense d =>
    obtain ⟨d', hd, rfl⟩ := map_eq_ok.mp hs
    exact sound_dense_setMetadata hm hd
  | masked k =>
    obtain ⟨k', hk, rfl⟩ := map_eq_ok.mp hs
    exact h.masked_setMetadata hm hk
  | sparse s =>
    obtain ⟨s', hs', rfl⟩ := map_eq_ok.mp hs
    exact h.sparse_of_layout (fun _ hl => ⟨_, hl.setMetadata hs'⟩)
      (SparseRaster.size_of_setMetadata_eq_ok hs').2

theorem Sound.resize (h : r.Sound) {rows cols : Int} (hr : Coord.fits rows = true)
    (hc : Coord.fits cols = true) : (r.resize rows cols).Sound := by
  cases r with
  | dense d => exact sound_dense_resize d hr hc h.dense_policy
  | masked k => exact sound_masked_resize k hr hc
  | sparse s =>
    obtain ⟨rows', hl⟩ := h.sparse_layout
    exact sound_sparse ⟨_, hl.resize rows cols⟩ (Metadata.coordDims_resized _ hr hc)

/-- Resizing and filling is filling the resized raster. -/
theorem resizeAndFill_eq (r : Raster) (rows cols : Int) (v : Pixel) :
    r.resizeAndFill rows cols v = (r.resize rows cols).fill v := by
  cases r <;> rfl

theorem Sound.mapValues (h : r.Sound) {t : PixelType} {n : Option Binary64}
    {op : Pixel → Option Pixel} (hq : r.mapValues t n op = .ok r') : r'.Sound := by
  cases r with
  | dense d =>
    -- a dense or masked result is built from the cells, with the new nodata value
    have hm : (d.metadata.withNodata n).CoordDims := h.dims.of_size rfl
    dsimp only [Raster.mapValues] at hq
    exact sound_ofCells hm hq
  | masked k =>
    have hm : (k.metadata.withNodata n).CoordDims := h.dims.of_size rfl
    dsimp only [Raster.mapValues] at hq
    exact sound_ofCells hm hq
  | sparse s =>
    obtain ⟨s', hs', rfl⟩ := map_eq_ok.mp hq
    exact h.sparse_of_layout (fun _ hl => ⟨_, hl.mapValues hs'⟩)
      (by rw [SparseRaster.metadata_of_mapValues_eq_ok hs']; rfl)

/-- A raw write keeps the buffer's length. -/
theorem Sound.withBuffer (h : r.Sound) {data data' : Array Pixel} (hb : r.buffer? = some data)
    (hs : data'.size = data.size) : (r.withBuffer data').Sound := by
  cases r with
  | dense d =>
    cases hb
    exact h.dense_withData hs
  | masked k =>
    cases hb
    exact h.masked_of_size rfl hs h.masked_mask_size
  | sparse s => cases hb

theorem Sound.rawSet (h : r.Sound) {i : Nat} {v : Pixel} (hs : r.rawSet? i v = some (.ok r')) :
    r'.Sound := by
  obtain ⟨data, hb, hs⟩ := Option.map_eq_some_iff.mp hs
  obtain ⟨data', hset, rfl⟩ := map_eq_ok.mp hs
  exact h.withBuffer hb (Buffer.size_of_set_eq_ok hset)

theorem Sound.rawCellSet (h : r.Sound) {c : Cell} {v : Pixel}
    (hs : r.rawCellSet? c v = some (.ok r')) : r'.Sound := by
  obtain ⟨data, hb, hs⟩ := Option.map_eq_some_iff.mp hs
  obtain ⟨i, -, hs⟩ := bind_eq_ok.mp hs
  obtain ⟨data', hset, rfl⟩ := map_eq_ok.mp hs
  exact h.withBuffer hb (Buffer.size_of_set_eq_ok hset)

theorem Sound.initNodataValues (h : r.Sound) (hs : r.initNodataValues? = some r') : r'.Sound := by
  cases r with
  | dense d =>
    cases hs
    exact h.dense_initNodataValues
  | masked k =>
    cases hs
    exact h.masked_initNodataValues
  | sparse s => cases hs

theorem Sound.collapseData (h : r.Sound) (hs : r.collapseData? = some r') : r'.Sound := by
  cases r with
  | dense d =>
    cases hs
    exact h.dense_collapseData
  | masked k =>
    cases hs
    exact h.masked_collapseData
  | sparse s => cases hs

theorem Sound.replaceNodata (h : r.Sound) {v : Pixel} (hs : r.replaceNodata? v = some r') :
    r'.Sound := by
  cases r with
  | dense d =>
    cases hs
    exact h.dense_replaceNodata v
  | masked k =>
    cases hs
    exact h.masked_replaceNodata v
  | sparse s => cases hs

theorem sound_resizeWithNodata {rows cols : Int} {n : Option Binary64}
    (hr : Coord.fits rows = true) (hc : Coord.fits cols = true)
    (hs : r.resizeWithNodata? rows cols n = some (.ok r')) : r'.Sound := by
  cases r with
  | dense d =>
    obtain ⟨d', hd, rfl⟩ := map_eq_ok.mp (Option.some.inj hs)
    exact sound_dense_resizeWithNodata hr hc hd
  | masked k =>
    obtain ⟨k', hk, rfl⟩ := map_eq_ok.mp (Option.some.inj hs)
    exact sound_masked_resizeWithNodata hr hc hk
  | sparse s => cases hs

theorem Sound.editEach (h : r.Sound) {edits : List CellEdit} {views : List CellView}
    (hs : r.editEach? edits = some (.ok (views, r'))) : r'.Sound := by
  cases r with
  | dense d =>
    obtain ⟨⟨vs, d'⟩, hd, he⟩ := map_eq_ok.mp (Option.some.inj hs)
    cases he
    obtain ⟨data, rfl, hsize⟩ := DenseRaster.editEach_eq_ok hd
    exact h.dense_withData hsize
  | masked k =>
    cases hs
    exact h.masked_editEach edits
  | sparse s => cases hs

theorem Sound.assign (h : r.Sound) {sel : CellSelection} {v : Pixel} {cells : List Cell}
    (hs : r.assign? sel v = some (.ok (cells, r'))) : r'.Sound := by
  cases r with
  | dense d =>
    obtain ⟨⟨cs, d'⟩, hd, he⟩ := map_eq_ok.mp (Option.some.inj hs)
    cases he
    obtain ⟨data, rfl, hsize⟩ := DenseRaster.assign_eq_ok hd
    exact h.dense_withData hsize
  | masked k =>
    obtain ⟨⟨cs, k'⟩, hk, he⟩ := map_eq_ok.mp (Option.some.inj hs)
    cases he
    exact h.masked_assign hk
  | sparse s => cases hs

/-! ### Every reachable raster is sound -/

/-- Every constructor builds a sound raster. -/
theorem Built.sound (h : r.Built) : r.Sound := by
  cases h with
  | @new b t m r hm h =>
    cases b with
    | dense =>
      obtain ⟨d, hd, rfl⟩ := map_eq_ok.mp h
      exact sound_dense_ofData hm hd
    | masked =>
      obtain ⟨k, hk, rfl⟩ := map_eq_ok.mp h
      exact sound_masked_ofData hm hk
    | sparse =>
      obtain ⟨s, hs, rfl⟩ := map_eq_ok.mp h
      exact sound_sparse_empty hm hs
  | @filledWith b t m v r hm h =>
    cases b with
    | dense =>
      -- the buffer of the value, then the values marking nodata made NaN
      obtain ⟨d, hd, rfl⟩ := map_eq_ok.mp h
      obtain ⟨d₀, hd₀, rfl⟩ := map_eq_ok.mp hd
      exact (sound_dense_ofData hm hd₀).dense_initNodataValues
    | masked =>
      obtain ⟨k, hk, rfl⟩ := map_eq_ok.mp h
      obtain ⟨k₀, hk₀, rfl⟩ := map_eq_ok.mp hk
      exact (sound_masked_ofData hm hk₀).masked_fill v
    | sparse =>
      obtain ⟨s, hs, rfl⟩ := map_eq_ok.mp h
      obtain ⟨s₀, hs₀, rfl⟩ := map_eq_ok.mp hs
      exact (sound_sparse_empty hm hs₀).fill v
  | @filledWithNodata b t m r hm h =>
    cases b with
    | dense =>
      obtain ⟨d, hd, rfl⟩ := map_eq_ok.mp h
      obtain ⟨d₀, hd₀, hd⟩ := bind_eq_ok.mp hd
      obtain ⟨n, -, hd⟩ := bind_eq_ok.mp hd
      cases pure_eq_ok.mp hd
      exact (sound_dense_ofData hm hd₀).dense_fill n
    | masked =>
      obtain ⟨k, hk, rfl⟩ := map_eq_ok.mp h
      obtain ⟨k₀, hk₀, rfl⟩ := map_eq_ok.mp hk
      exact (sound_masked_ofData hm hk₀).masked_fillWithNodata
    | sparse =>
      obtain ⟨s, hs, rfl⟩ := map_eq_ok.mp h
      exact sound_sparse_empty hm hs
  | @ofList b t m values r hm h =>
    cases b with
    | dense =>
      obtain ⟨d, hd, rfl⟩ := map_eq_ok.mp h
      obtain ⟨d₀, hd₀, rfl⟩ := map_eq_ok.mp hd
      exact (sound_dense_ofData hm hd₀).dense_initNodataValues
    | masked =>
      obtain ⟨k, hk, rfl⟩ := map_eq_ok.mp h
      obtain ⟨k₀, hk₀, rfl⟩ := map_eq_ok.mp hk
      exact (sound_masked_ofData hm hk₀).masked_initNodataValues
    | sparse =>
      obtain ⟨s, hs, rfl⟩ := map_eq_ok.mp h
      exact sound_sparse ⟨_, SparseRaster.layout_ofList hs⟩
        (SparseRaster.metadata_of_ofList_eq_ok hs ▸ hm)
  | ofOptions hm h =>
    obtain ⟨u, -, h⟩ := bind_eq_ok.mp h
    exact sound_ofCells hm h
  | ofCells hm h => exact sound_ofCells hm h
  | ofTriplets hm h =>
    exact sound_sparse ⟨_, SparseRaster.layout_ofTriplets h⟩
      (SparseRaster.metadata_of_ofTriplets_eq_ok h ▸ hm)
  | ofDataWithMask hm h => exact sound_masked_ofData hm h

/-- Every step keeps a raster sound. -/
theorem Step.sound (hs : Step r r') (h : r.Sound) : r'.Sound := by
  cases hs with
  | setValue hs => exact h.setValue hs
  | fill _ v => exact h.fill v
  | fillValues _ v => exact h.fillValues v
  | fillWithNodata _ => exact h.fillWithNodata
  | turnValueIntoNodata hs => exact h.turnValueIntoNodata hs
  | setNodata hs => exact h.setNodata hs
  | setMetadata hm hs => exact h.setMetadata hm hs
  | resize _ hr hc => exact h.resize hr hc
  | resizeAndFill _ v hr hc =>
    rw [resizeAndFill_eq]
    exact (h.resize hr hc).fill v
  | mapValues hq => exact h.mapValues hq
  | rawSet hs => exact h.rawSet hs
  | rawCellSet hs => exact h.rawCellSet hs
  | initNodataValues hs => exact h.initNodataValues hs
  | collapseData hs => exact h.collapseData hs
  | replaceNodata hs => exact h.replaceNodata hs
  | resizeWithNodata hr hc hs => exact sound_resizeWithNodata hr hc hs
  | editEach hs => exact h.editEach hs
  | assign hs => exact h.assign hs
  | markAsData hk => exact h.masked_markAsData hk

/-- Every reachable raster is sound: each constructor builds a sound raster and each step keeps
it sound. -/
theorem Reachable.sound (h : r.Reachable) : r.Sound := by
  induction h with
  | built hb => exact hb.sound
  | step _ hs ih => exact hs.sound ih

end Raster

end Georaster
