import Georaster.Proofs.Analysis.Scan
import Georaster.Proofs.Pixel.Order
/-!
# The least and greatest values of a raster

The four analyses of extremes go through the cells in three ways: `Raster.minimum` and
`Raster.maximum` fold the data values, `Raster.minmax` scans them two at a time, and
`Raster.minmaxCell` scans the data cells paired with their cells of the grid. Each storage lists
its data values in row-major order (`Raster.Wf.dataValues_eq`), and the data cells are the same
values at the cells of their indices (`Raster.Wf.dataCells_eq`), so all four look at one sequence.

On values of the raster's type, none of them NaN, `Pixel.lt` is the order of a key
(`Pixel.lt_iff_key_lt`), and the scans find the first least and the last greatest element
(`isFirstLeast_foldl`, `minmaxBy_spec`). In terms of the cells (`FirstExtremeAt`,
`LastExtremeAt`): the least value is that of the first data cell holding a least value; the
cell pair of `minmaxCell` is that cell and the last data cell holding a greatest value, whose
values `minmax` returns; `maximum` returns the value of the first data cell holding a greatest
value. All four fail exactly when no cell holds data (`Raster.Reachable.extremes_spec`).
-/

namespace Georaster

/-! ### Data cells with their indices -/

/-- The data cells of a list of cells, each with its index, in order of index. -/
def indexedData (cells : List (Option Pixel)) : List (Nat × Pixel) :=
  cells.zipIdx.filterMap fun (o, i) => o.map (i, ·)

variable {cells : List (Option Pixel)}

theorem mem_indexedData {i : Nat} {v : Pixel} :
    (i, v) ∈ indexedData cells ↔ cells[i]? = some (some v) := by
  simp only [indexedData, List.mem_filterMap, Prod.exists]
  constructor
  · rintro ⟨o, j, hmem, ho⟩
    cases o with
    | none => cases ho
    | some w =>
      simp only [Option.map_some, Option.some.injEq, Prod.mk.injEq] at ho
      obtain ⟨rfl, rfl⟩ := ho
      exact List.mem_zipIdx_iff_getElem?.mp hmem
  · intro h
    exact ⟨some v, i, List.mem_zipIdx_iff_getElem?.mpr h, rfl⟩

theorem pairwise_indexedData : (indexedData cells).Pairwise (·.1 < ·.1) := by
  have hidx : cells.zipIdx.Pairwise (·.2 < ·.2) := by
    rw [← List.pairwise_map (R := (· < ·)), List.zipIdx_map_snd]
    exact List.pairwise_lt_range'
  refine hidx.filterMap _ fun a a' h b hb b' hb' => ?_
  obtain ⟨v, -, rfl⟩ := Option.map_eq_some_iff.mp hb
  obtain ⟨v', -, rfl⟩ := Option.map_eq_some_iff.mp hb'
  exact h

theorem map_snd_indexedData : (indexedData cells).map (·.2) = cells.filterMap id := by
  rw [indexedData, List.map_filterMap]
  conv_rhs => rw [← List.zipIdx_map_fst 0 cells, List.filterMap_map]
  refine List.filterMap_congr fun x _ => ?_
  obtain ⟨o, i⟩ := x
  cases o <;> rfl

/-- Of a list ordered by index, an element at an earlier index than one in the middle comes
before it, and one at a later index after it. -/
theorem mem_left_of_lt {l pre post : List (Nat × Pixel)} {p q : Nat × Pixel}
    (hl : l.Pairwise (·.1 < ·.1)) (he : l = pre ++ p :: post) (hq : q ∈ l) (hlt : q.1 < p.1) :
    q ∈ pre := by
  subst he
  have hpost := (List.pairwise_cons.mp (List.pairwise_append.mp hl).2.1).1
  rcases List.mem_append.mp hq with hq | hq
  · exact hq
  · rcases List.mem_cons.mp hq with rfl | hq
    · exact absurd hlt (lt_irrefl _)
    · exact absurd (hpost q hq) (not_lt.mpr hlt.le)

theorem mem_right_of_lt {l pre post : List (Nat × Pixel)} {p q : Nat × Pixel}
    (hl : l.Pairwise (·.1 < ·.1)) (he : l = pre ++ p :: post) (hq : q ∈ l) (hlt : p.1 < q.1) :
    q ∈ post := by
  subst he
  have hpre := (List.pairwise_append.mp hl).2.2
  rcases List.mem_append.mp hq with hq | hq
  · exact absurd (hpre q hq p List.mem_cons_self) (not_lt.mpr hlt.le)
  · rcases List.mem_cons.mp hq with rfl | hq
    · exact absurd hlt (lt_irrefl _)
    · exact hq

/-! ### Extreme cells -/

/-- Cell `i` holds `v`, and no cell holds a value that `lt` puts before `v`: for `Pixel.lt` a
least value, for its converse a greatest one. -/
structure ExtremeAt (lt : Pixel → Pixel → Bool) (cells : List (Option Pixel)) (i : Nat) (v : Pixel) :
    Prop where
  value_at : cells[i]? = some (some v)
  extreme : ∀ (j : Nat) w, cells[j]? = some (some w) → lt w v = false

/-- Cell `i` is the first, in row-major order, to hold an extreme value, and holds `v`. -/
structure FirstExtremeAt (lt : Pixel → Pixel → Bool) (cells : List (Option Pixel)) (i : Nat)
    (v : Pixel) : Prop extends ExtremeAt lt cells i v where
  first : ∀ j < i, ∀ w, ¬ExtremeAt lt cells j w

/-- Cell `i` is the last, in row-major order, to hold an extreme value, and holds `v`. -/
structure LastExtremeAt (lt : Pixel → Pixel → Bool) (cells : List (Option Pixel)) (i : Nat)
    (v : Pixel) : Prop extends ExtremeAt lt cells i v where
  last : ∀ j, i < j → ∀ w, ¬ExtremeAt lt cells j w

variable {lt : Pixel → Pixel → Bool}

/-- There is one first extreme cell. -/
theorem FirstExtremeAt.unique {i j : Nat} {v w : Pixel} (h : FirstExtremeAt lt cells i v)
    (h' : FirstExtremeAt lt cells j w) : i = j ∧ v = w := by
  rcases lt_trichotomy i j with hij | rfl | hji
  · exact absurd h.toExtremeAt (h'.first i hij v)
  · have hvw := h.value_at.symm.trans h'.value_at
    exact ⟨rfl, by simpa using hvw⟩
  · exact absurd h'.toExtremeAt (h.first j hji w)

/-- There is one last extreme cell. -/
theorem LastExtremeAt.unique {i j : Nat} {v w : Pixel} (h : LastExtremeAt lt cells i v)
    (h' : LastExtremeAt lt cells j w) : i = j ∧ v = w := by
  rcases lt_trichotomy i j with hij | rfl | hji
  · exact absurd h'.toExtremeAt (h.last j hij w)
  · have hvw := h.value_at.symm.trans h'.value_at
    exact ⟨rfl, by simpa using hvw⟩
  · exact absurd h.toExtremeAt (h'.last i hji v)

section Transfer

variable {β : Type} [LinearOrder β] {key : Pixel → β} {P : Pixel → Prop}

/-- The first element of least key among the indexed data cells is the first extreme cell. -/
theorem firstExtremeAt_of_isFirstLeast (hlt : ∀ a b, P a → P b → (lt a b = true ↔ key a < key b))
    (hP : ∀ v, some v ∈ cells → P v) {i : Nat} {v : Pixel}
    (h : IsFirstLeast (key ∘ Prod.snd) (indexedData cells) (i, v)) : FirstExtremeAt lt cells i v := by
  have hmem := h.mem
  obtain ⟨pre, post, he, hle, hbefore⟩ := h
  have hv : cells[i]? = some (some v) := mem_indexedData.mp hmem
  have hPv : P v := hP v (List.mem_of_getElem? hv)
  refine ⟨⟨hv, fun j w hw => ?_⟩, fun j hj w hext => ?_⟩
  · -- no data value is below the least one
    have hkey : key v ≤ key w := hle (j, w) (mem_indexedData.mpr hw)
    rw [lt_eq_decide hlt (hP w (List.mem_of_getElem? hw)) hPv]
    exact decide_eq_false (not_lt.mpr hkey)
  · -- an earlier data cell holds a greater value, which is not extreme
    have hjw := mem_left_of_lt pairwise_indexedData he (mem_indexedData.mpr hext.value_at) hj
    have hkey : key v < key w := hbefore (j, w) hjw
    have hnot := hext.extreme i v hv
    rw [lt_eq_decide hlt hPv (hP w (List.mem_of_getElem? hext.value_at))] at hnot
    exact absurd hkey (of_decide_eq_false hnot)

/-- The last element of greatest key among the indexed data cells is the last cell holding a
value that nothing is above. -/
theorem lastExtremeAt_of_isLastGreatest
    (hlt : ∀ a b, P a → P b → (lt a b = true ↔ key a < key b))
    (hP : ∀ v, some v ∈ cells → P v) {i : Nat} {v : Pixel}
    (h : IsLastGreatest (key ∘ Prod.snd) (indexedData cells) (i, v)) :
    LastExtremeAt (flip lt) cells i v := by
  have hmem := h.mem
  obtain ⟨pre, post, he, hle, hafter⟩ := h
  have hv : cells[i]? = some (some v) := mem_indexedData.mp hmem
  have hPv : P v := hP v (List.mem_of_getElem? hv)
  refine ⟨⟨hv, fun j w hw => ?_⟩, fun j hj w hext => ?_⟩
  · -- no data value is above the greatest one
    have hkey : key w ≤ key v := hle (j, w) (mem_indexedData.mpr hw)
    show lt v w = false
    rw [lt_eq_decide hlt hPv (hP w (List.mem_of_getElem? hw))]
    exact decide_eq_false (not_lt.mpr hkey)
  · -- a later data cell holds a smaller value, which is not extreme
    have hjw := mem_right_of_lt pairwise_indexedData he (mem_indexedData.mpr hext.value_at) hj
    have hkey : key w < key v := hafter (j, w) hjw
    have hnot : lt w v = false := hext.extreme i v hv
    rw [lt_eq_decide hlt (hP w (List.mem_of_getElem? hext.value_at)) hPv] at hnot
    exact absurd hkey (of_decide_eq_false hnot)

/-- The first least and the last greatest of the indexed data cells, each mapped by a function
that keeps its key, are those of the first and the last extreme cells. -/
theorem extremeAt_of_map {γ : Type} {f : Nat × Pixel → γ} {key' : γ → β}
    (hf : ∀ p, key' (f p) = key p.2) (hlt : ∀ a b, P a → P b → (lt a b = true ↔ key a < key b))
    (hP : ∀ v, some v ∈ cells → P v) {lo hi : γ}
    (hlo : IsFirstLeast key' ((indexedData cells).map f) lo)
    (hhi : IsLastGreatest key' ((indexedData cells).map f) hi) :
    ∃ i v j w, FirstExtremeAt lt cells i v ∧ LastExtremeAt (flip lt) cells j w ∧
      lo = f (i, v) ∧ hi = f (j, w) := by
  have hkey : key' ∘ f = key ∘ Prod.snd := funext hf
  obtain ⟨⟨i, v⟩, hp, rfl⟩ := hlo.of_map
  obtain ⟨⟨j, w⟩, hq, rfl⟩ := hhi.of_map
  rw [hkey] at hp hq
  exact ⟨i, v, j, w, firstExtremeAt_of_isFirstLeast hlt hP hp,
    lastExtremeAt_of_isLastGreatest hlt hP hq, rfl, rfl⟩

end Transfer

/-! ### The extremes of a raster -/

/-- The cells of a grid, row by row, are the cells of its indices in order. -/
theorem GridSize.cells_eq (s : GridSize) :
    s.cells = (List.range (s.rows.toNat * s.cols.toNat)).map (Cell.ofDivMod · s.cols) := by
  rw [← Area.cells_full]
  unfold GridSize.cells Area.cells
  split
  · -- a grid without rows or columns has no cell
    rename_i he
    unfold Area.isEmpty Area.full at he
    rcases of_decide_eq_true he with h | h
    · simp [Int.toNat_eq_zero.mpr h]
    · simp [Int.toNat_eq_zero.mpr h]
  · simp [Area.full]

namespace Raster

variable {r : Raster}

/-- Pairing the data values with the cells of the grid gives the data cells of their indices. -/
theorem Wf.dataCells_eq (hw : r.Wf) :
    r.dataCells = (indexedData r.toOptions).map fun p => (Cell.ofDivMod p.1 r.metadata.cols, p.2) := by
  have hlen : r.size.rows.toNat * r.size.cols.toNat = r.toOptions.length := hw.length_toOptions.symm
  have hzip : (List.range r.toOptions.length).zip r.toOptions =
      r.toOptions.zipIdx.map Prod.swap := by
    rw [List.zipIdx_eq_zip_range', List.zip_swap, List.range_eq_range']
  rw [dataCells, GridSize.cells_eq, hlen, List.zip_map_left, hzip, List.map_map, List.filterMap_map,
    indexedData, List.map_filterMap]
  refine List.filterMap_congr fun ⟨o, i⟩ _ => ?_
  cases o <;> rfl

theorem Wf.dataValues_eq_map (hw : r.Wf) : r.dataValues = (indexedData r.toOptions).map (·.2) := by
  rw [hw.dataValues_eq, map_snd_indexedData]

/-- Every data value of a well-formed raster is a cell of it. -/
theorem Wf.mem_toOptions_of_mem_dataValues (hw : r.Wf) {v : Pixel} (hv : v ∈ r.dataValues) :
    some v ∈ r.toOptions := by
  rw [hw.dataValues_eq] at hv
  obtain ⟨o, ho, rfl⟩ := List.mem_filterMap.mp hv
  exact ho

/-- A well-formed raster has a data value exactly when some cell is not missing. -/
theorem Wf.dataValues_eq_nil_iff (hw : r.Wf) :
    r.dataValues = [] ↔ ∀ x ∈ r.toOptions, x = none := by
  rw [hw.dataValues_eq, List.filterMap_eq_nil_iff]
  rfl

section Extremes

variable {r : Raster}

/-- A value of the raster's type other than NaN: one that `Pixel.lt` compares by its key. -/
def Comparable (r : Raster) (v : Pixel) : Prop := r.type.holds v = true ∧ v.isNaN = false

theorem lt_iff_of_comparable (a b : Pixel) (ha : r.Comparable a) (hb : r.Comparable b) :
    a.lt b = true ↔ a.key < b.key :=
  Pixel.lt_iff_key_lt ha.1 hb.1 ha.2 hb.2

/-- The converse order compares the keys the other way round. -/
theorem flip_lt_iff_of_comparable (a b : Pixel) (ha : r.Comparable a) (hb : r.Comparable b) :
    flip Pixel.lt a b = true ↔
      (OrderDual.toDual ∘ Pixel.key) a < (OrderDual.toDual ∘ Pixel.key) b :=
  (lt_iff_of_comparable b a hb ha).trans OrderDual.toDual_lt_toDual.symm

/-- A fold over the data values that gives way only to a value strictly before the one kept, for
an order of keys, ends at the value of the first extreme cell. -/
theorem Wf.foldl_firstExtremeAt (hw : r.Wf) {β : Type} [LinearOrder β] {key : Pixel → β}
    {lt : Pixel → Pixel → Bool}
    (hlt : ∀ a b, r.Comparable a → r.Comparable b → (lt a b = true ↔ key a < key b))
    (hv : ∀ v, some v ∈ r.toOptions → r.Comparable v) {v : Pixel} {vs : List Pixel}
    (hcons : r.dataValues = v :: vs) :
    ∃ i, FirstExtremeAt lt r.toOptions i (vs.foldl (fun m x => if lt x m then x else m) v) := by
  have hP : ∀ y ∈ [v] ++ vs, r.Comparable y := fun y hy =>
    hv y (hw.mem_toOptions_of_mem_dataValues (by simpa [hcons] using hy))
  have hfirst := isFirstLeast_foldl hlt [v] vs v (isFirstLeast_singleton v) hP
  rw [List.singleton_append, ← hcons, hw.dataValues_eq_map] at hfirst
  obtain ⟨⟨i, lo⟩, hp, hlo⟩ := hfirst.of_map
  refine ⟨i, ?_⟩
  rw [← hlo]
  exact firstExtremeAt_of_isFirstLeast hlt hv hp

/-- The least value is the value of the first data cell holding a least value. -/
theorem Wf.minimum_spec (hw : r.Wf) (hv : ∀ v, some v ∈ r.toOptions → r.Comparable v)
    (hne : r.dataValues ≠ []) :
    ∃ i lo, FirstExtremeAt Pixel.lt r.toOptions i lo ∧ r.minimum = .ok lo := by
  obtain ⟨v, vs, hcons⟩ := List.exists_cons_of_ne_nil hne
  obtain ⟨i, hi⟩ := hw.foldl_firstExtremeAt lt_iff_of_comparable hv hcons
  exact ⟨i, _, hi, by rw [minimum, hcons]⟩

/-- The greatest value is the value of the first data cell holding a greatest value: the fold
gives way only to a strictly greater value, as the one for the least value does under the
converse order. -/
theorem Wf.maximum_spec (hw : r.Wf) (hv : ∀ v, some v ∈ r.toOptions → r.Comparable v)
    (hne : r.dataValues ≠ []) :
    ∃ k hi, FirstExtremeAt (flip Pixel.lt) r.toOptions k hi ∧ r.maximum = .ok hi := by
  obtain ⟨v, vs, hcons⟩ := List.exists_cons_of_ne_nil hne
  obtain ⟨k, hk⟩ := hw.foldl_firstExtremeAt flip_lt_iff_of_comparable hv hcons
  exact ⟨k, _, hk, by rw [maximum, hcons]; rfl⟩

/-- `minmax` gives the values of the first data cell holding a least value and of the last
holding a greatest one. -/
theorem Wf.minmax_spec (hw : r.Wf) (hv : ∀ v, some v ∈ r.toOptions → r.Comparable v)
    (hne : r.dataValues ≠ []) :
    ∃ i lo j hi, FirstExtremeAt Pixel.lt r.toOptions i lo ∧
      LastExtremeAt (flip Pixel.lt) r.toOptions j hi ∧ r.minmax = .ok (lo, hi) := by
  obtain ⟨lo, hi, hmm, hlo, hhi⟩ := minmaxBy_spec lt_iff_of_comparable
    (fun y hy => hv y (hw.mem_toOptions_of_mem_dataValues hy)) hne
  rw [hw.dataValues_eq_map] at hlo hhi
  obtain ⟨i, v, j, w, hfirst, hlast, hlo', hhi'⟩ :=
    extremeAt_of_map (fun _ => rfl) lt_iff_of_comparable hv hlo hhi
  exact ⟨i, v, j, w, hfirst, hlast, by simp [minmax, hmm, hlo', hhi']⟩

/-- `minmaxCell` gives the first data cell holding a least value and the last holding a greatest
one, each at the cell of its index. -/
theorem Wf.minmaxCell_spec (hw : r.Wf) (hv : ∀ v, some v ∈ r.toOptions → r.Comparable v)
    (hne : r.dataValues ≠ []) :
    ∃ i lo j hi, FirstExtremeAt Pixel.lt r.toOptions i lo ∧
      LastExtremeAt (flip Pixel.lt) r.toOptions j hi ∧
      r.minmaxCell = .ok (Cell.ofDivMod i r.metadata.cols, Cell.ofDivMod j r.metadata.cols) := by
  have hcells : r.dataCells.map (·.2) = r.dataValues := by
    rw [hw.dataCells_eq, List.map_map, hw.dataValues_eq_map]
    rfl
  have hP : ∀ p ∈ r.dataCells, r.Comparable p.2 := fun p hp =>
    hv p.2 (hw.mem_toOptions_of_mem_dataValues (hcells ▸ List.mem_map_of_mem hp))
  have hne' : r.dataCells ≠ [] := fun h => hne (by rw [← hcells, h, List.map_nil])
  -- the cells are compared by their values
  have hlt : ∀ a b : Cell × Pixel, r.Comparable a.2 → r.Comparable b.2 →
      (a.2.lt b.2 = true ↔ (Pixel.key ∘ Prod.snd) a < (Pixel.key ∘ Prod.snd) b) :=
    fun a b ha hb => lt_iff_of_comparable a.2 b.2 ha hb
  obtain ⟨lo, hi, hmm, hlo, hhi⟩ := minmaxBy_spec hlt hP hne'
  rw [hw.dataCells_eq] at hlo hhi
  obtain ⟨i, v, j, w, hfirst, hlast, hlo', hhi'⟩ :=
    extremeAt_of_map (f := fun p => (Cell.ofDivMod p.1 r.metadata.cols, p.2)) (fun _ => rfl)
      lt_iff_of_comparable hv hlo hhi
  exact ⟨i, v, j, w, hfirst, hlast, by simp [minmaxCell, hmm, hlo', hhi']⟩

/-- Without a data cell, all four analyses fail with the error that there is no data. -/
theorem Wf.extremes_of_noData (hw : r.Wf) (hnone : ∀ x ∈ r.toOptions, x = none) :
    r.minimum = .error noDataError ∧ r.maximum = .error noDataError ∧
      r.minmax = .error noDataError ∧ r.minmaxCell = .error noDataError := by
  have hdv : r.dataValues = [] := hw.dataValues_eq_nil_iff.mpr hnone
  have hcells : r.dataCells = [] := by
    rw [hw.dataCells_eq, List.map_eq_nil_iff, ← List.map_eq_nil_iff (f := (·.2)),
      map_snd_indexedData, ← hw.dataValues_eq, hdv]
  refine ⟨?_, ?_, ?_, ?_⟩
  · rw [minimum, hdv]
  · rw [maximum, hdv]
  · simp [minmax, hdv, minmaxBy]
  · simp [minmaxCell, hcells, minmaxBy]

/-- For every reachable raster whose data values are of its type and none of them NaN, the four
analyses of extremes fail with the error that there is no data exactly when no cell holds data.
Otherwise, with `i` the first data cell in row-major order holding a least value and `j` the last
holding a greatest value, `minmaxCell` gives the cells of `i` and `j`, `minmax` their values,
`minimum` the value of `i`, and `maximum` the value of the first data cell holding a greatest
value. -/
theorem Reachable.extremes_spec (hr : r.Reachable)
    (hv : ∀ v, some v ∈ r.toOptions → r.type.holds v = true ∧ v.isNaN = false) :
    ((∀ x ∈ r.toOptions, x = none) ∧ r.minimum = .error noDataError ∧
        r.maximum = .error noDataError ∧ r.minmax = .error noDataError ∧
        r.minmaxCell = .error noDataError) ∨
      ∃ i lo j hi k hi', FirstExtremeAt Pixel.lt r.toOptions i lo ∧
        LastExtremeAt (flip Pixel.lt) r.toOptions j hi ∧
        FirstExtremeAt (flip Pixel.lt) r.toOptions k hi' ∧
        r.minmaxCell = .ok (Cell.ofDivMod i r.metadata.cols, Cell.ofDivMod j r.metadata.cols) ∧
        r.minmax = .ok (lo, hi) ∧ r.minimum = .ok lo ∧ r.maximum = .ok hi' := by
  have hw : r.Wf := hr.sound.wf
  by_cases hnone : ∀ x ∈ r.toOptions, x = none
  · exact .inl ⟨hnone, hw.extremes_of_noData hnone⟩
  · have hne : r.dataValues ≠ [] := fun h => hnone (hw.dataValues_eq_nil_iff.mp h)
    obtain ⟨i, lo, hfirst, hmin⟩ := hw.minimum_spec hv hne
    obtain ⟨k, hi', hfirstMax, hmax⟩ := hw.maximum_spec hv hne
    obtain ⟨i₁, lo₁, j, hi, hfirst₁, hlast, hmm⟩ := hw.minmax_spec hv hne
    obtain ⟨i₂, lo₂, j₂, hi₂, hfirst₂, hlast₂, hcell⟩ := hw.minmaxCell_spec hv hne
    -- all four scans meet the same first least and last greatest cells
    obtain ⟨rfl, rfl⟩ := hfirst.unique hfirst₁
    obtain ⟨rfl, -⟩ := hfirst.unique hfirst₂
    obtain ⟨rfl, -⟩ := hlast.unique hlast₂
    exact .inr ⟨i, lo, j, hi, k, hi', hfirst, hlast, hfirstMax, hcell, hmm, hmin, hmax⟩

/-- A dense raster of two rows of three integers with nodata value `5`, a missing cell, two
cells holding the least value `1` and two holding the greatest value `9`, and a raster whose every
cell is missing: the second has no extremes, and the first pairs its first least cell, the first
of the second row, with its last greatest cell, the second of that row. -/
theorem extremes_spec_nodata_ties :
    ∃ r e, Backend.dense.ofOptions .int32 (Metadata.sized ⟨2, 3⟩ (some (BinaryFloat.ofInt 5)))
        [some (.int 4), none, some (.int 9), some (.int 1), some (.int 9), some (.int 1)] = .ok r ∧
      Backend.dense.ofOptions .int32 (Metadata.sized ⟨1, 2⟩ (some (BinaryFloat.ofInt 5)))
        [none, none] = .ok e ∧
      (((∀ x ∈ r.toOptions, x = none) ∧ r.minimum = .error noDataError ∧
          r.maximum = .error noDataError ∧ r.minmax = .error noDataError ∧
          r.minmaxCell = .error noDataError) ∨
        ∃ i lo j hi k hi', FirstExtremeAt Pixel.lt r.toOptions i lo ∧
          LastExtremeAt (flip Pixel.lt) r.toOptions j hi ∧
          FirstExtremeAt (flip Pixel.lt) r.toOptions k hi' ∧
          r.minmaxCell = .ok (Cell.ofDivMod i r.metadata.cols, Cell.ofDivMod j r.metadata.cols) ∧
          r.minmax = .ok (lo, hi) ∧ r.minimum = .ok lo ∧ r.maximum = .ok hi') ∧
      (((∀ x ∈ e.toOptions, x = none) ∧ e.minimum = .error noDataError ∧
          e.maximum = .error noDataError ∧ e.minmax = .error noDataError ∧
          e.minmaxCell = .error noDataError) ∨
        ∃ i lo j hi k hi', FirstExtremeAt Pixel.lt e.toOptions i lo ∧
          LastExtremeAt (flip Pixel.lt) e.toOptions j hi ∧
          FirstExtremeAt (flip Pixel.lt) e.toOptions k hi' ∧
          e.minmaxCell = .ok (Cell.ofDivMod i e.metadata.cols, Cell.ofDivMod j e.metadata.cols) ∧
          e.minmax = .ok (lo, hi) ∧ e.minimum = .ok lo ∧ e.maximum = .ok hi') ∧
      r.minmaxCell = .ok (⟨1, 0⟩, ⟨1, 1⟩) ∧ r.minmax = .ok (.int 1, .int 9) := by
  obtain ⟨r, hr⟩ : ∃ r, Backend.dense.ofOptions .int32
      (Metadata.sized ⟨2, 3⟩ (some (BinaryFloat.ofInt 5)))
      [some (.int 4), none, some (.int 9), some (.int 1), some (.int 9), some (.int 1)] = .ok r :=
    ⟨_, rfl⟩
  obtain ⟨e, he⟩ : ∃ e, Backend.dense.ofOptions .int32
      (Metadata.sized ⟨1, 2⟩ (some (BinaryFloat.ofInt 5))) [none, none] = .ok e := ⟨_, rfl⟩
  have hsr := Reachable.extremes_spec (.built (.ofOptions ⟨rfl, rfl⟩ hr)) fun v hv => by
    cases hr
    change some v ∈ [some (Pixel.int 4), none, some (.int 9), some (.int 1), some (.int 9),
      some (.int 1)] at hv
    simp only [List.mem_cons, Option.some.injEq, reduceCtorEq, List.not_mem_nil, or_false,
      false_or] at hv
    rcases hv with rfl | rfl | rfl | rfl | rfl <;> exact ⟨rfl, rfl⟩
  have hse := Reachable.extremes_spec (.built (.ofOptions ⟨rfl, rfl⟩ he)) fun v hv => by
    cases he
    change some v ∈ [none, none] at hv
    simp at hv
  cases hr
  cases he
  exact ⟨_, _, rfl, rfl, hsr, hse, rfl, rfl⟩

end Extremes

end Raster

end Georaster
