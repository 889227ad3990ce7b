import Georaster.Proofs.Raster.Invariant
import Georaster.Analysis.Extremes
/-!
# The cellwise least and greatest of several rasters

`Raster.minimumOf` and `Raster.maximumOf` combine rasters of one size cell by cell: the cells at
an index are folded from the left, a later value replacing the one so far when it is strictly
less (greater), and the cell is missing as soon as one raster's cell is (`selectedCell`,
`foldlM_pick`). The result is built from these cells with the storage, type and metadata of the
first raster, so it reads each combined cell back as that storage does (`Backend.readBack`): a
dense first raster stores the cells in-band, and reads a combined value that marks its nodata as
missing; one of an integral type without nodata value cannot store a missing cell at all, and
the combination then fails while computing.

Fewer than two rasters, or rasters of different sizes, are refused as an invalid argument
(`Raster.selectsCells_cellwise`, `Raster.extremesOf_select`).
-/

namespace Georaster

/-! ### Folding the cells at one index -/

/-- One step of the fold: a missing cell stops it; a value is combined with the value so far, or
starts it. -/
def pickCell (select : Pixel → Pixel → Pixel) (acc : Option Pixel) (x : Option Pixel) :
    Option (Option Pixel) :=
  x.map fun v => some ((acc.map (select · v)).getD v)

/-- The cells at one index, combined from the left by `select`: missing when one of them is,
otherwise the left fold of `select` over their values from the first. -/
def selectedCell (select : Pixel → Pixel → Pixel) (cells : List (Option Pixel)) : Option Pixel :=
  match cells.mapM id with
  | some (v :: vs) => some (vs.foldl select v)
  | _ => none

/-- From a value so far, the fold stops at a missing cell and otherwise folds every value. -/
theorem foldlM_pick (select : Pixel → Pixel → Pixel) :
    ∀ (cells : List (Option Pixel)) (a : Pixel),
      cells.foldlM (pickCell select) (some a) =
        (cells.mapM id).map fun vs => some (vs.foldl select a)
  | [], a => rfl
  | none :: cells, a => rfl
  | some v :: cells, a => by
    rw [List.foldlM_cons, List.mapM_cons]
    show (cells.foldlM (pickCell select) (some (select a v))) = _
    rw [foldlM_pick select cells (select a v)]
    cases cells.mapM id <;> rfl

/-- Started with no value, the fold is the combined cell. -/
theorem join_foldlM_pick (select : Pixel → Pixel → Pixel) (cells : List (Option Pixel)) :
    (cells.foldlM (pickCell select) none).join = selectedCell select cells := by
  match cells with
  | [] => rfl
  | none :: cells => rfl
  | some v :: cells =>
    rw [List.foldlM_cons]
    show (cells.foldlM (pickCell select) (some v)).join = _
    rw [foldlM_pick, selectedCell, List.mapM_cons]
    cases cells.mapM id <;> rfl

/-- The combined cell of some cells is missing exactly when one of them is. -/
theorem selectedCell_eq_none_iff (select : Pixel → Pixel → Pixel) {cells : List (Option Pixel)}
    (hne : cells ≠ []) : selectedCell select cells = none ↔ none ∈ cells := by
  have hnone : cells.mapM id = none ↔ none ∈ cells := by
    rw [mapM_eq_none_iff]
    simp
  cases hm : cells.mapM id with
  | none => simp [selectedCell, hm, ← hnone]
  | some vs =>
    -- every cell holds a value, one for each, so there is a first one
    have hlen : vs.length = cells.length := (mapM_eq_some_iff.mp hm).length_eq.symm
    have hvs : vs ≠ [] := by
      rintro rfl
      exact hne (List.length_eq_zero_iff.mp hlen.symm)
    obtain ⟨v, vs, rfl⟩ := List.exists_cons_of_ne_nil hvs
    simp [selectedCell, hm, ← hnone]

namespace Raster

/-- The cells of the rasters at index `i`, in order. -/
def cellsAt (rs : List Raster) (i : Nat) : List (Option Pixel) := rs.map (·.toOptions.getD i none)

/-- Rasters of one size, at least two, are combined into a raster built from the combined cells
with the first raster's storage, type and metadata. -/
theorem cellwise_eq_ofCells (select : Pixel → Pixel → Pixel) {first second : Raster}
    {rest : List Raster} (hsize : ∀ r ∈ second :: rest, r.size = first.size) :
    cellwise select (first :: second :: rest) =
      first.backend.ofCells first.type first.metadata
        fun i => selectedCell select (cellsAt (first :: second :: rest) i) := by
  have hsame : ((second :: rest).any fun r => r.size ≠ first.size) = false :=
    List.any_eq_false.mpr fun r hr => by simp [hsize r hr]
  rw [cellwise, if_neg (by simp only [hsame]; decide)]
  · dsimp only
    congr 1
    funext i
    rw [← join_foldlM_pick, cellsAt, List.foldlM_map, List.foldlM_map]
    simp only [getD_toArray]
    rfl
  · exact List.cons_ne_nil _ _

/-- Rasters of which one differs in size from the first are refused. -/
theorem cellwise_of_size_ne (select : Pixel → Pixel → Pixel) {first second : Raster}
    {rest : List Raster} (hsize : ¬∀ r ∈ second :: rest, r.size = first.size) :
    cellwise select (first :: second :: rest) =
      .error (.invalidArgument "Not all provided rasters have the same size") := by
  have hdiffer : ((second :: rest).any fun r => r.size ≠ first.size) = true := by
    push Not at hsize
    obtain ⟨r, hr, hne⟩ := hsize
    exact List.any_eq_true.mpr ⟨r, hr, by simpa using hne⟩
  rw [cellwise, if_pos hdiffer]
  exact List.cons_ne_nil _ _

/-- A reachable raster can be rebuilt from cells by its own storage: its type accepts its nodata
value, and a sparse raster has that value in its type. -/
theorem Reachable.ofCells_config {r : Raster} (hr : r.Reachable) :
    ¬(r.type.refusesNodata r.metadata.nodata ∨
      (r.backend = .sparse ∧ r.type.nodataValue r.metadata.nodata = none)) := by
  rintro (hrefuses | ⟨hsparse, hnone⟩)
  · exact PixelType.validateNodata_eq_ok_iff.mp hr.nodataAccepted hrefuses
  · cases r with
    | sparse s =>
      -- a sparse raster lays out its nodata value, which is the metadata's in its type
      obtain ⟨rows, hl⟩ := hr.sound.sparse_layout
      have hsome := hl.nodata_eq
      simp only [type, metadata] at hnone
      rw [hnone] at hsome
      cases hsome
    | _ => cases hsparse

/-- A first raster that cannot keep the combined cells: dense, of an integral type without
nodata value, while a combined cell is missing. -/
def DropsMissing (select : Pixel → Pixel → Pixel) (first : Raster) (rs : List Raster) : Prop :=
  first.backend = .dense ∧ first.type.hasNaN = false ∧ first.metadata.nodata = none ∧
    ∃ i < first.len, selectedCell select (cellsAt rs i) = none

/-- What combining the rasters `rs` cell by cell with `select` gives: fewer than two rasters, or
rasters of different sizes, are refused as an invalid argument, and only they; otherwise, with
`first` the first raster, the result fails while computing when `first` cannot keep the combined
cells, and is otherwise a raster of `first`'s storage, type and metadata whose every cell is the
combined cell as `first`'s storage reads it back. -/
structure SelectsCells (select : Pixel → Pixel → Pixel) (rs : List Raster)
    (x : Except RasterError Raster) : Prop where
  refused_iff : errorKind x = some "InvalidArgument" ↔
    rs.length < 2 ∨ ∃ r ∈ rs, ∃ r' ∈ rs, r.size ≠ r'.size
  drops : ∀ first rest, rs = first :: rest → rest ≠ [] → (∀ r ∈ rest, r.size = first.size) →
    DropsMissing select first rs → errorKind x = some "Runtime"
  holds : ∀ first rest, rs = first :: rest → rest ≠ [] → (∀ r ∈ rest, r.size = first.size) →
    ¬DropsMissing select first rs → ∃ q, x = .ok q ∧
      q.Holds first.backend first.type first.metadata
        fun i => first.backend.readBack first.type first.metadata.nodata
          (selectedCell select (cellsAt rs i))

/-- Some two of `first :: rest` differ in size exactly when one of `rest` differs from `first`. -/
theorem exists_size_ne_iff {first : Raster} {rest : List Raster} :
    (∃ r ∈ first :: rest, ∃ r' ∈ first :: rest, r.size ≠ r'.size) ↔
      ∃ r ∈ rest, r.size ≠ first.size := by
  constructor
  · rintro ⟨r, hr, r', hr', hne⟩
    by_contra hall
    push Not at hall
    have hsize : ∀ q ∈ first :: rest, q.size = first.size := by
      intro q hq
      rcases List.mem_cons.mp hq with rfl | hq
      · rfl
      · exact hall q hq
    exact hne ((hsize r hr).trans (hsize r' hr').symm)
  · rintro ⟨r, hr, hne⟩
    exact ⟨r, List.mem_cons_of_mem _ hr, first, List.mem_cons_self, hne⟩

/-- Combining reachable rasters cell by cell does what `SelectsCells` says, for every `select`. -/
theorem selectsCells_cellwise (select : Pixel → Pixel → Pixel) {rs : List Raster}
    (hrs : ∀ r ∈ rs, r.Reachable) : SelectsCells select rs (cellwise select rs) := by
  match rs, hrs with
  | [], _ =>
    exact ⟨by simp [cellwise, RasterError.kind], (fun _ _ h => by cases h),
      (fun _ _ h => by cases h)⟩
  | [a], _ =>
    refine ⟨by simp [cellwise, RasterError.kind], ?_, ?_⟩
    all_goals
      rintro _ _ ⟨⟩ hne
      exact absurd rfl hne
  | first :: second :: rest, hrs =>
    by_cases hsize : ∀ r ∈ second :: rest, r.size = first.size
    · -- the rasters are combined from the first one's storage
      have hsound := (hrs first List.mem_cons_self).sound
      have h0 := hsound.wf.rows_nonneg
      have h1 := hsound.wf.cols_nonneg
      have hsame : ¬∃ r ∈ first :: second :: rest, ∃ r' ∈ first :: second :: rest,
          r.size ≠ r'.size := by
        rw [exists_size_ne_iff]
        push Not
        exact hsize
      obtain ⟨-, hruntime, hok⟩ := Backend.errorKind_ofCells (b := first.backend) (t := first.type)
        (c := fun i => selectedCell select (cellsAt (first :: second :: rest) i)) h0 h1
      rw [cellwise_eq_ofCells select hsize]
      refine ⟨?_, fun first' rest' heq _ _ hdrop => ?_, fun first' rest' heq _ _ hkeep => ?_⟩
      · simp only [List.length_cons, hsame, or_false]
        exact iff_of_false
          (Backend.errorKind_ofCells_ne (k := "InvalidArgument") h0 h1 (by decide) (by decide))
          (by omega)
      · obtain ⟨rfl, rfl⟩ := List.cons.inj heq
        exact (hruntime (hrs first List.mem_cons_self).ofCells_config).mpr hdrop
      · obtain ⟨rfl, rfl⟩ := List.cons.inj heq
        obtain ⟨q, hq⟩ := hok (hrs first List.mem_cons_self).ofCells_config hkeep
        exact ⟨q, hq, Backend.ofCells_eq_ok hsound.wf.cols_lt hq⟩
    · -- a raster of another size is refused
      refine ⟨?_, fun first' rest' heq _ hall => ?_, fun first' rest' heq _ hall => ?_⟩
      · rw [cellwise_of_size_ne select hsize, exists_size_ne_iff]
        push Not at hsize
        exact iff_of_true rfl (.inr hsize)
      all_goals
        obtain ⟨rfl, rfl⟩ := List.cons.inj heq
        exact absurd hall hsize

/-- The cellwise least and greatest of reachable rasters, of any storages and types: fewer than
two rasters, or rasters of different sizes, are refused as an invalid argument; otherwise a dense
first raster of an integral type without nodata value fails while computing when a combined cell
is missing, and in every other case the result has the first raster's storage, type and
metadata, and its cell `i` is missing when a cell `i` of the rasters is, and is otherwise the left
fold over their values of "take the later value if it is strictly less (greater)", as the first
raster's storage reads it back. -/
theorem extremesOf_select {rs : List Raster} (hrs : ∀ r ∈ rs, r.Reachable) :
    SelectsCells (fun a b => if b.lt a then b else a) rs (minimumOf rs) ∧
      SelectsCells (fun a b => if a.lt b then b else a) rs (maximumOf rs) :=
  ⟨selectsCells_cellwise _ hrs, selectsCells_cellwise _ hrs⟩

/-- Two dense rasters of one row of three 32-bit integers with nodata value `5`, the first with a
missing cell, combine as `SelectsCells` says: the missing cell stays missing, and every other
cell is the least (greatest) of the two values. -/
theorem extremesOf_select_dense_nodata :
    ∃ a b, Backend.dense.ofOptions .int32 (Metadata.sized ⟨1, 3⟩ (some (BinaryFloat.ofInt 5)))
        [some (.int 4), none, some (.int 9)] = .ok a ∧
      Backend.dense.ofOptions .int32 (Metadata.sized ⟨1, 3⟩ (some (BinaryFloat.ofInt 5)))
        [some (.int 7), some (.int 2), some (.int 1)] = .ok b ∧
      SelectsCells (fun a b => if b.lt a then b else a) [a, b] (minimumOf [a, b]) ∧
      SelectsCells (fun a b => if a.lt b then b else a) [a, b] (maximumOf [a, b]) ∧
      (minimumOf [a, b]).map toOptions = .ok [some (.int 4), none, some (.int 1)] ∧
      (maximumOf [a, b]).map toOptions = .ok [some (.int 7), none, some (.int 9)] := by
  have hm : (Metadata.sized ⟨1, 3⟩ (some (BinaryFloat.ofInt 5))).CoordDims := ⟨rfl, rfl⟩
  obtain ⟨a, ha⟩ : ∃ a, Backend.dense.ofOptions .int32
      (Metadata.sized ⟨1, 3⟩ (some (BinaryFloat.ofInt 5))) [some (.int 4), none, some (.int 9)] =
        .ok a := ⟨_, rfl⟩
  obtain ⟨b, hb⟩ : ∃ b, Backend.dense.ofOptions .int32
      (Metadata.sized ⟨1, 3⟩ (some (BinaryFloat.ofInt 5))) [some (.int 7), some (.int 2),
        some (.int 1)] = .ok b := ⟨_, rfl⟩
  have hreach : ∀ r ∈ [a, b], r.Reachable := fun r hr => by
    rcases List.mem_pair.mp hr with rfl | rfl
    · exact .built (.ofOptions hm ha)
    · exact .built (.ofOptions hm hb)
  obtain ⟨hmin, hmax⟩ := extremesOf_select hreach
  cases ha
  cases hb
  exact ⟨_, _, rfl, rfl, hmin, hmax, rfl, rfl⟩

/-- A dense first raster reads a combined value equal to its nodata value as missing, though no
raster's cell is: the least of `7` (nodata value `5`) and `5` (nodata value `-1`) is `5`. -/
theorem minimumOf_at_nodata_reads_missing :
    ∃ q, minimumOf
        [dense ⟨.int32, Metadata.sized ⟨1, 1⟩ (some (BinaryFloat.ofInt 5)), #[.int 7],
            PixelType.int32.policy (some (BinaryFloat.ofInt 5))⟩,
          dense ⟨.int32, Metadata.sized ⟨1, 1⟩ (some (BinaryFloat.ofInt (-1))), #[.int 5],
            PixelType.int32.policy (some (BinaryFloat.ofInt (-1)))⟩] =
        .ok q ∧
      (dense ⟨.int32, Metadata.sized ⟨1, 1⟩ (some (BinaryFloat.ofInt 5)), #[.int 7],
          PixelType.int32.policy (some (BinaryFloat.ofInt 5))⟩).value 0 =
        .ok (some (.int 7)) ∧
      (dense ⟨.int32, Metadata.sized ⟨1, 1⟩ (some (BinaryFloat.ofInt (-1))), #[.int 5],
          PixelType.int32.policy (some (BinaryFloat.ofInt (-1)))⟩).value 0 =
        .ok (some (.int 5)) ∧
      q.value 0 = .ok none :=
  ⟨_, rfl, rfl, rfl, rfl⟩

end Raster

end Georaster
