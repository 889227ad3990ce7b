import Georaster.Nodata
import Georaster.Grid.Area
import Georaster.Raster.Buffer
/-!
# Walking an area of a row-major buffer

An iterator over an area of a grid stored as a row-major buffer is driven by a cursor, an
`AreaWalker`, that stands on the cell it passes next. Each step hands out that cell with its
index in the buffer and moves one column on; past the last column of the area it jumps to the
first column of the next row, and past the last row it becomes the invalid cell, after which
every step gives nothing.

Two iterators drive the cursor and skip what two filters reject: a location filter looks at the
cell only, and, for the cells it keeps, a value filter looks at the index and the stored value.

* A `RasterIterator` reads the buffer and yields each kept cell with its value. It remembers the
  cell it yielded last, its *current* cell, which is the invalid cell before the first call and
  again once the iterator is exhausted.
* A `RasterIteratorMut` hands out each kept value for writing. It owns only the tail of the
  buffer past the values already handed out: the cursor's index is rebased against the start of
  that tail (`index - offset`, a machine-word subtraction), the value is read there, and after
  the value is handed out the tail starts just past it.

Either iterator can only be built over an area that fits the buffer (`Area.fits`); otherwise
building it aborts with the description of the area.
-/

namespace Georaster

/-- Which stored values a walk skips. -/
inductive ValueFilter where
  /-- No value is skipped. -/
  | all
  /-- Values that the policy reads as missing are skipped. -/
  | policy (p : NodataPolicy)
  /-- Indices flagged in the mask are skipped; an empty mask flags nothing. -/
  | mask (m : Array Bool)
  deriving Inhabited

/-- Which cells a walk skips. -/
inductive LocationFilter where
  /-- No cell is skipped. -/
  | all
  /-- The one cell is skipped. -/
  | exclude (c : Cell)
  /-- Cells farther than `radius` from `center` are skipped, the centre itself unless
  `withCenter`. -/
  | circle (center : Cell) (radius : Int) (withCenter : Bool)
  deriving Inhabited

namespace ValueFilter

/-- Whether the value stored at index `i` is skipped; reading a mask past its end aborts. -/
def excludes : ValueFilter → Nat → Pixel → Outcome Bool
  | all, _, _ => pure false
  | policy p, _, v => pure (p.isMissing v)
  | mask m, i, _ => if m.isEmpty then pure false else Buffer.get m i

end ValueFilter

namespace LocationFilter

/-- Whether the cell is skipped. A circle compares the distance between cell centres with the
radius in double precision; that distance aborts when an offset is not a coordinate. -/
def excludes : LocationFilter → Cell → Outcome Bool
  | all, _ => pure false
  | exclude c, x => pure (x == c)
  | circle center radius withCenter, x =>
    if x = center then pure !withCenter
    else do pure ((BinaryFloat.ofInt radius : Binary64).lt (← center.distance x))

end LocationFilter

/-! ### The cursor -/

/-- A cursor over the cells of an area of a grid of `gridCols` columns, in row-major order. -/
structure AreaWalker where
  /-- The area walked. -/
  area : Area
  /-- The number of columns of the grid. -/
  gridCols : Int
  /-- The cell passed next; the invalid cell once every cell is passed. -/
  next : Cell

namespace AreaWalker

/-- The cursor on the first cell of the area, or exhausted for an empty area. -/
def new (area : Area) (gridCols : Int) : AreaWalker :=
  ⟨area, gridCols, if area.isEmpty then .invalid else area.topLeft⟩

variable (w : AreaWalker)

/-- The cell after `c`: one column on, or the first column of the next row once the column
reaches the end of the area; the invalid cell once the row does. Each bound is a coordinate
sum. -/
def following (c : Cell) : Outcome Cell := do
  let col ← Coord.add c.col 1
  let endCol ← Coord.add w.area.topLeft.col w.area.cols
  let n ← if endCol ≤ col then (Cell.mk · w.area.topLeft.col) <$> Coord.add c.row 1
    else pure ⟨c.row, col⟩
  let endRow ← Coord.add w.area.topLeft.row w.area.rows
  pure (if endRow ≤ n.row then .invalid else n)

/-- The cell the cursor stands on with its index in the buffer, and the cursor moved past it;
nothing once the cursor is invalid. -/
def step : Outcome (Option (Cell × Nat × AreaWalker)) :=
  if !w.next.isValid then pure none
  else do
    let next ← w.following w.next
    let i ← w.next.index w.gridCols
    pure (some (w.next, i, { w with next }))

/-- A bound on the steps the cursor still takes: none once it is invalid, otherwise its own
cell, a full row of the area for every row from its own to the end of the area, and the columns
from its own to the end of the area. -/
def progress : Nat :=
  if w.next.isValid then
    1 + (w.area.topLeft.row + w.area.rows - w.next.row).toNat * (w.area.cols.toNat + 1) +
      (w.area.topLeft.col + w.area.cols - w.next.col).toNat
  else 0

/-- What the following cell can be: the invalid cell, the next column of the same row before
the end column, or the first column of the next row before the end row. -/
theorem following_cases {c n : Cell} (h : w.following c = .ok n) :
    n = .invalid ∨
      (n = ⟨c.row, c.col + 1⟩ ∧ c.col + 1 < w.area.topLeft.col + w.area.cols ∧
        c.row < w.area.topLeft.row + w.area.rows) ∨
      (n = ⟨c.row + 1, w.area.topLeft.col⟩ ∧ w.area.topLeft.col + w.area.cols ≤ c.col + 1 ∧
        c.row + 1 < w.area.topLeft.row + w.area.rows) := by
  unfold following at h
  -- each checked sum either aborts, and so does the step, or is the sum
  have hsum : ∀ a b : Int, Coord.add a b = pure (a + b) ∨ ∃ e, Coord.add a b = .error e :=
    fun a b => by
      cases hab : Coord.add a b with
      | error e => exact .inr ⟨e, rfl⟩
      | ok s => exact .inl (by rw [(Coord.checked_eq_ok_iff _ _ _).mp hab |>.2]; rfl)
  rcases hsum c.col 1 with h1 | ⟨e, h1⟩ <;> rw [h1] at h
  case inr => cases h
  rcases hsum w.area.topLeft.col w.area.cols with h2 | ⟨e, h2⟩ <;> rw [pure_bind, h2] at h
  case inr => cases h
  rw [pure_bind] at h
  by_cases hwrap : w.area.topLeft.col + w.area.cols ≤ c.col + 1
  · -- past the end column: the first column of the next row
    rw [if_pos hwrap] at h
    rcases hsum c.row 1 with h3 | ⟨e, h3⟩ <;> rw [h3] at h
    case inr => cases h
    rw [map_pure, pure_bind] at h
    rcases hsum w.area.topLeft.row w.area.rows with h4 | ⟨e, h4⟩ <;> rw [h4] at h
    case inr => cases h
    simp only [pure_bind] at h
    split at h <;> cases h
    · exact .inl rfl
    · exact .inr (.inr ⟨rfl, hwrap, by omega⟩)
  · -- within the row: the next column
    rw [if_neg hwrap, pure_bind] at h
    rcases hsum w.area.topLeft.row w.area.rows with h4 | ⟨e, h4⟩ <;> rw [h4] at h
    case inr => cases h
    simp only [pure_bind] at h
    split at h <;> cases h
    · exact .inl rfl
    · exact .inr (.inl ⟨rfl, by omega, by omega⟩)

/-- Moving a valid cursor to the following cell lowers the bound: within a row one column fewer
is left, and a jump to the next row trades a full row for at most a row's columns. -/
theorem progress_following {c n : Cell} (hc : c.isValid = true) (h : w.following c = .ok n) :
    ({ w with next := n } : AreaWalker).progress < ({ w with next := c } : AreaWalker).progress := by
  have hinv : Cell.invalid.isValid = false := rfl
  unfold progress
  dsimp only
  rw [if_pos hc]
  rcases w.following_cases h with rfl | ⟨rfl, hcol, hrow⟩ | ⟨rfl, hcol, hrow⟩
  · rw [hinv, if_neg Bool.false_ne_true]
    omega
  · dsimp only
    split <;> omega
  · -- a full row fewer is left, and at most a row's columns more
    dsimp only
    have hrows : (w.area.topLeft.row + w.area.rows - c.row).toNat =
        (w.area.topLeft.row + w.area.rows - (c.row + 1)).toNat + 1 := by omega
    rw [hrows, Nat.add_mul, Nat.one_mul]
    split <;> omega

/-- A step that hands out a cell lowers the bound. -/
theorem progress_step {c : Cell} {i : Nat} {w' : AreaWalker} (h : w.step = .ok (some (c, i, w'))) :
    w'.progress < w.progress := by
  unfold step at h
  split at h
  · cases h
  · rename_i hv
    simp only [bind, Except.bind] at h
    split at h
    · cases h
    · rename_i n hn
      split at h
      · cases h
      · simp only [pure, Except.pure, Except.ok.injEq, Option.some.injEq, Prod.mk.injEq] at h
        obtain ⟨-, -, rfl⟩ := h
        exact progress_following w (by simpa using hv) hn

set_option linter.unusedVariables false in
/-- Steps the cursor until `keep` takes a cell: that cell with what `keep` gives for it, and the
cursor past it; nothing, with the exhausted cursor, when no cell is left. -/
def seek {β : Type} (keep : Cell → Nat → Outcome (Option β)) (w : AreaWalker) :
    Outcome (Option (Cell × β) × AreaWalker) :=
  match h : w.step with
  | .error e => .error e
  | .ok none => pure (none, w)
  | .ok (some (c, i, w')) => do
    match ← keep c i with
    | some b => pure (some (c, b), w')
    | none => seek keep w'
termination_by w.progress
decreasing_by exact w.progress_step h

/-- A search that finds a cell lowers the bound. -/
theorem progress_seek {β : Type} {keep : Cell → Nat → Outcome (Option β)} {x : Cell × β}
    {w' : AreaWalker} (h : w.seek keep = .ok (some x, w')) : w'.progress < w.progress := by
  fun_induction seek keep w with
  | case1 w e hs => cases h
  | case2 w hs => cases h
  | case3 w c i w₁ hs ih =>
    have hlt := w.progress_step hs
    cases hk : keep c i with
    | error e => rw [hk] at h; cases h
    | ok o =>
      have hk' : keep c i = pure o := hk
      rw [hk', pure_bind] at h
      cases o with
      | some b =>
        simp only [pure, Except.pure, Except.ok.injEq, Prod.mk.injEq] at h
        obtain ⟨-, rfl⟩ := h
        exact hlt
      | none => exact Nat.lt_trans (ih h) hlt

end AreaWalker

/-! ### Reading an area -/

/-- An iterator over the values of an area of a row-major buffer. -/
structure RasterIterator where
  /-- The buffer. -/
  data : Array Pixel
  /-- The cursor. -/
  walker : AreaWalker
  /-- The cell yielded last, invalid before the first and after the last. -/
  current : Cell
  /-- The value filter. -/
  values : ValueFilter
  /-- The location filter. -/
  locations : LocationFilter

namespace RasterIterator

/-- An iterator over the area, which must fit the buffer. -/
def new (data : Array Pixel) (gridCols : Int) (area : Area) (values : ValueFilter)
    (locations : LocationFilter) : Outcome RasterIterator := do
  if ← area.fits gridCols data.size then
    pure ⟨data, AreaWalker.new area gridCols, .invalid, values, locations⟩
  else abort s!"Raster area {area.describe} outside of the raster data"

variable (it : RasterIterator)

/-- The value at a cell of index `i`, unless the location filter skips the cell or the value
filter skips the value. -/
def keep (c : Cell) (i : Nat) : Outcome (Option Pixel) := do
  if ← it.locations.excludes c then pure none
  else
    let v ← Buffer.get it.data i
    if ← it.values.excludes i v then pure none else pure (some v)

/-- The next cell the iterator yields, with its value, and the iterator after it, whose current
cell is the one yielded, or the invalid cell when none is left. -/
def nextEntry : Outcome (Option (Cell × Pixel) × RasterIterator) := do
  match ← it.walker.seek it.keep with
  | (some (c, v), walker) => pure (some (c, v), { it with walker, current := c })
  | (none, walker) => pure (none, { it with walker, current := .invalid })

theorem progress_nextEntry {x : Cell × Pixel} {it' : RasterIterator}
    (h : it.nextEntry = .ok (some x, it')) : it'.walker.progress < it.walker.progress := by
  unfold nextEntry at h
  simp only [bind, Except.bind] at h
  split at h
  · cases h
  · rename_i r hr
    split at h
    · simp only [pure, Except.pure, Except.ok.injEq, Prod.mk.injEq] at h
      obtain ⟨-, rfl⟩ := h
      exact it.walker.progress_seek hr
    · cases h

set_option linter.unusedVariables false in
/-- The cells the iterator still yields with their values, as collecting it gives them, and the
exhausted iterator. -/
def finish (it : RasterIterator) : Outcome (List (Cell × Pixel) × RasterIterator) :=
  match h : it.nextEntry with
  | .error e => .error e
  | .ok (none, done) => pure ([], done)
  | .ok (some x, it') => do
    let (xs, done) ← it'.finish
    pure (x :: xs, done)
termination_by it.walker.progress
decreasing_by exact it.progress_nextEntry h

end RasterIterator

/-! ### Writing an area -/

/-- An iterator that hands out the values of an area of a row-major buffer for writing. The
values before `offset` have been handed out or passed; the iterator owns the tail from there. -/
structure RasterIteratorMut where
  /-- The buffer, written through the values handed out. -/
  data : Array Pixel
  /-- The index of the first value of the tail. -/
  offset : Nat
  /-- The cursor. -/
  walker : AreaWalker
  /-- The cell of the value handed out last, invalid before the first and after the last. -/
  current : Cell
  /-- The value filter. -/
  values : ValueFilter
  /-- The location filter. -/
  locations : LocationFilter

namespace RasterIteratorMut

/-- A writing iterator over the area, which must fit the buffer; it owns the whole buffer. -/
def new (data : Array Pixel) (gridCols : Int) (area : Area) (values : ValueFilter)
    (locations : LocationFilter) : Outcome RasterIteratorMut := do
  if ← area.fits gridCols data.size then
    pure ⟨data, 0, AreaWalker.new area gridCols, .invalid, values, locations⟩
  else abort s!"Raster area {area.describe} outside of the raster data"

variable (it : RasterIteratorMut)

/-- The values the iterator still owns. -/
def rest : Array Pixel := it.data.extract it.offset it.data.size

/-- The position in the tail of the value at a cell of index `i`, unless the location filter
skips the cell or the value filter skips the value read there. Rebasing the index against the
tail is a machine-word subtraction, and the read aborts past the end of the tail. -/
def keep (c : Cell) (i : Nat) : Outcome (Option Nat) := do
  if ← it.locations.excludes c then pure none
  else
    if i < it.offset then abort "attempt to subtract with overflow"
    else
      let j := i - it.offset
      let v ← Buffer.get it.rest j
      if ← it.values.excludes i v then pure none else pure (some j)

/-- The index in the buffer of the next value handed out, and the iterator after it, whose tail
starts past that value; the read before has checked that the tail holds it. -/
def next : Outcome (Option Nat × RasterIteratorMut) := do
  match ← it.walker.seek it.keep with
  | (some (c, j), walker) =>
    pure (some (it.offset + j), { it with offset := it.offset + j + 1, walker, current := c })
  | (none, walker) => pure (none, { it with walker, current := .invalid })

theorem progress_next {p : Nat} {it' : RasterIteratorMut} (h : it.next = .ok (some p, it')) :
    it'.walker.progress < it.walker.progress := by
  unfold next at h
  simp only [bind, Except.bind] at h
  split at h
  · cases h
  · rename_i r hr
    split at h
    · simp only [pure, Except.pure, Except.ok.injEq, Prod.mk.injEq] at h
      obtain ⟨-, rfl⟩ := h
      exact it.walker.progress_seek hr
    · cases h

set_option linter.unusedVariables false in
/-- Writes `v` through every value the iterator hands out: the cells written with their indices,
in order, and the exhausted iterator over the written buffer. -/
def assign (it : RasterIteratorMut) (v : Pixel) : Outcome (List (Cell × Nat) × RasterIteratorMut) :=
  match h : it.next with
  | .error e => .error e
  | .ok (none, done) => pure ([], done)
  | .ok (some p, it') => do
    let data ← Buffer.set it'.data p v
    let (ws, done) ← assign { it' with data } v
    pure ((it'.current, p) :: ws, done)
termination_by it.walker.progress
decreasing_by exact it.progress_next h

end RasterIteratorMut

end Georaster
