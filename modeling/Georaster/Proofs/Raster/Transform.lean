import Georaster.Proofs.Raster.Invariant
import Georaster.Analysis.Transform
/-!
# Writing a raster from others: every check before the first write

`transform`, `transformBinary` and `update` make all their checks before they write a cell, and
for reachable rasters the checks are complete. Each operation fails, with a runtime error,
exactly when the sizes differ or when a cell has to become missing in a raster that cannot hold
one; for a raster that accepts its nodata value that is a dense raster of an integral type
without nodata value (`Raster.NodataAccepted.canRepresentNodata_eq_false_iff`). Otherwise every
write succeeds (`Raster.Reachable.writeWhere`), so none of them aborts, and the result is the
raster written at every index, each cell read back as its storage reads it.

`update` writes only the cells whose value changes (`Raster.changes`): a new value that compares
equal to the old one, as `-0.0` to `0.0`, leaves the old one in place
(`Raster.update_keeps_equal_zero`).
-/

namespace Georaster

/-- Two folds whose steps agree along the list are the same. -/
theorem foldlM_congr {α β ε : Type} {f g : β → α → Except ε β} :
    ∀ {l : List α} {b : β}, (∀ b, ∀ a ∈ l, f b a = g b a) → l.foldlM f b = l.foldlM g b
  | [], _, _ => rfl
  | a :: l, b, h => by
    rw [List.foldlM_cons, List.foldlM_cons, h b a List.mem_cons_self]
    cases g b a with
    | error e => rfl
    | ok b' => exact foldlM_congr fun b'' a' ha' => h b'' a' (List.mem_cons_of_mem a ha')

/-- Folding over the kept elements of a list is folding over the list, stepping only at the kept
ones. -/
theorem foldlM_filterMap_ite {α β γ ε : Type} (p : α → Bool) (g : α → γ) (f : β → γ → Except ε β) :
    ∀ (l : List α) (b : β),
      (l.filterMap fun a => if p a then some (g a) else none).foldlM f b =
        l.foldlM (fun b a => if p a then f b (g a) else pure b) b
  | [], _ => rfl
  | a :: l, b => by
    by_cases hp : p a = true
    · rw [List.filterMap_cons, if_pos hp, List.foldlM_cons, List.foldlM_cons, if_pos hp]
      cases f b (g a) with
      | error e => rfl
      | ok b' => exact foldlM_filterMap_ite p g f l b'
    · rw [List.filterMap_cons, if_neg hp, List.foldlM_cons, if_neg hp]
      exact foldlM_filterMap_ite p g f l b

/-- Among the pairs kept by a test, one has a missing second part exactly when some element
passes the test and maps to nothing. -/
theorem any_filterMap_ite_isNone {α β : Type} (p : α → Bool) (g : α → Option β) (l : List α) :
    ((l.filterMap fun a => if p a then some (a, g a) else none).any fun u => u.2.isNone) = true ↔
      ∃ a ∈ l, p a = true ∧ g a = none := by
  rw [List.any_eq_true]
  constructor
  · rintro ⟨u, hu, hnone⟩
    obtain ⟨a, ha, hau⟩ := List.mem_filterMap.mp hu
    by_cases hp : p a = true
    · rw [if_pos hp] at hau
      cases hau
      exact ⟨a, ha, hp, Option.isNone_iff_eq_none.mp hnone⟩
    · rw [if_neg hp] at hau
      cases hau
  · rintro ⟨a, ha, hp, hnone⟩
    refine ⟨(a, g a), List.mem_filterMap.mpr ⟨a, ha, by rw [if_pos hp]⟩, ?_⟩
    rw [hnone]
    rfl

/-- A filtering traversal whose every step succeeds keeps what the steps keep. -/
theorem filterMapM_eq_ok {α β ε : Type} {f : α → Except ε (Option β)} {k : α → Option β}
    {l : List α} (h : ∀ a ∈ l, f a = .ok (k a)) : l.filterMapM f = .ok (l.filterMap k) := by
  have hmap := filterMapM_map_eq_ok (g := id) h
  rwa [List.map_id] at hmap

namespace Raster

variable {r r' : Raster}

/-- Between well-formed rasters, keeping the storage, the pixel type and the metadata keeps
whether a missing cell can be held: a dense buffer's policy is the one of its type and nodata
value. -/
theorem Wf.canRepresentNodata_congr (h' : r'.Wf) (h : r.Wf) (hb : r'.backend = r.backend)
    (ht : r'.type = r.type) (hm : r'.metadata = r.metadata) :
    r'.canRepresentNodata = r.canRepresentNodata := by
  cases r' with
  | dense d' =>
    cases r with
    | dense d =>
      have ht : d'.type = d.type := ht
      have hm : d'.metadata = d.metadata := hm
      simp only [canRepresentNodata, DenseRaster.canRepresentNodata,
        DenseRaster.Wf.policy_eq h', DenseRaster.Wf.policy_eq h, ht, hm]
    | masked k => cases hb
    | sparse s => cases hb
  | masked k' =>
    cases r with
    | dense d => cases hb
    | masked k => rfl
    | sparse s => rfl
  | sparse s' =>
    cases r with
    | dense d => cases hb
    | masked k => rfl
    | sparse s => rfl

/-- A well-formed raster that accepts its nodata value cannot hold a missing cell exactly when it
is dense, of an integral type, and without nodata value. -/
theorem NodataAccepted.canRepresentNodata_eq_false_iff (h : r.NodataAccepted) (hw : r.Wf) :
    r.canRepresentNodata = false ↔
      r.backend = .dense ∧ r.type.hasNaN = false ∧ r.metadata.nodata = none := by
  cases r with
  | dense d =>
    have hnone := PixelType.missingValue_eq_none_iff (t := d.type) (n := d.metadata.nodata) h
    show d.policy.missingValue.isSome = false ↔
      Backend.dense = .dense ∧ d.type.hasNaN = false ∧ d.metadata.nodata = none
    rw [DenseRaster.Wf.policy_eq hw, ← hnone]
    cases (d.type.policy d.metadata.nodata).missingValue <;> simp
  | masked k => simp [canRepresentNodata, backend]
  | sparse s => simp [canRepresentNodata, backend]

/-- A well-formed raster has a missing cell exactly when some index of its grid reads as
missing. -/
theorem Wf.hasNodata_iff (h : r.Wf) : r.hasNodata = true ↔ ∃ j < r.len, r.value j = .ok none := by
  have hex := Backend.exists_getD_eq_none_iff r.toOptions
  rw [h.length_toOptions] at hex
  rw [hasNodata_eq, h.nodataCount_eq, decide_eq_true_eq, List.countP_pos_iff]
  constructor
  · rintro ⟨x, hx, hnone⟩
    rw [Option.isNone_iff_eq_none] at hnone
    subst hnone
    obtain ⟨j, hj, hget⟩ := hex.mpr hx
    exact ⟨j, hj, by rw [h.value_eq hj, hget]⟩
  · rintro ⟨j, hj, hv⟩
    rw [h.value_eq hj] at hv
    exact ⟨none, hex.mp ⟨j, hj, Except.ok.inj hv⟩, rfl⟩

/-- Inside the grid of a well-formed raster, a write succeeds unless it asks a raster that cannot
hold a missing cell to store one. -/
theorem Wf.setValue_isOk (h : r.Wf) {i : Nat} (hi : i < r.len) {x : Option Pixel}
    (hx : x = none → r.canRepresentNodata = true) : ∃ r', r.setValue i x = .ok r' := by
  cases hs : r.setValue i x with
  | ok r' => exact ⟨r', rfl⟩
  | error e =>
    obtain ⟨-, -, hnone, hcan⟩ := (h.setValue_eq_error_iff hi).mp hs
    rw [hx hnone] at hcan
    cases hcan

/-- Writing `y i` at every index `i < n` where `p i` holds, in increasing order, into a reachable
raster that can hold each missing cell written: every write succeeds, the result is reachable
with the storage, type and metadata of the raster, each written cell reads back its value as the
storage reads it, and every other cell reads as before. -/
theorem Reachable.writeWhere (h : r.Reachable) (p : Nat → Bool) (y : Nat → Option Pixel)
    (n : Nat) (hn : n ≤ r.len)
    (hy : ∀ i < n, p i = true → y i = none → r.canRepresentNodata = true) :
    ∃ r', (List.range n).foldlM (fun out i => if p i then out.setValue i (y i) else pure out) r =
        .ok r' ∧
      r'.Reachable ∧ r'.backend = r.backend ∧ r'.type = r.type ∧ r'.metadata = r.metadata ∧
      ∀ j < r.len, r'.value j = if j < n ∧ p j = true
        then .ok (r.backend.readBack r.type r.metadata.nodata (y j)) else r.value j := by
  induction n with
  | zero =>
    refine ⟨r, rfl, h, rfl, rfl, rfl, fun j _ => ?_⟩
    rw [if_neg (by omega)]
  | succ n ih =>
    -- the writes below `n`, then the one at `n` if `p n` holds
    obtain ⟨r₁, hfold, h₁, hb, ht, hm, hv⟩ := ih (by omega) fun i hi => hy i (by omega)
    have hlen : r₁.len = r.len := by simp only [len, hm]
    have hcond : ∀ j, (j = n → p n = false) →
        ((j < n + 1 ∧ p j = true) ↔ (j < n ∧ p j = true)) := by
      intro j hj
      constructor
      · rintro ⟨hlt, hpj⟩
        refine ⟨Nat.lt_of_le_of_ne (Nat.le_of_lt_succ hlt) fun he => ?_, hpj⟩
        rw [he, hj he] at hpj
        exact Bool.false_ne_true hpj
      · rintro ⟨hlt, hpj⟩
        exact ⟨Nat.lt_succ_of_lt hlt, hpj⟩
    rw [List.range_succ, List.foldlM_append, hfold, ok_bind, List.foldlM_cons]
    by_cases hp : p n = true
    · have hcan := h₁.sound.wf.canRepresentNodata_congr h.sound.wf hb ht hm
      obtain ⟨r₂, hs⟩ := h₁.sound.wf.setValue_isOk (hlen ▸ hn) fun hnone =>
        hcan ▸ hy n (by omega) hp hnone
      have hw := h₁.sound.writesCell (by omega) hs
      refine ⟨r₂, ?_, h₁.step (.setValue hs), hw.backend_eq.trans hb, hw.type_eq.trans ht,
        hw.metadata_eq.trans hm, fun j hj => ?_⟩
      · rw [if_pos hp, hs]
        rfl
      · by_cases hjn : j = n
        · subst hjn
          rw [hw.value_self, hb, ht, hm, if_pos ⟨by omega, hp⟩]
        · rw [hw.value_other j (by omega) hjn, hv j hj]
          simp only [hcond j fun he => absurd he hjn]
    · refine ⟨r₁, ?_, h₁, hb, ht, hm, fun j hj => ?_⟩
      · rw [if_neg hp]
        rfl
      · rw [hv j hj]
        simp only [hcond j fun _ => by simpa using hp]

/-- Writing the cells given by `cell` at every index below `n` is writing their values, when each
of them is given. -/
theorem writeCells_eq {n : Nat} {cell : Nat → Outcome (Option Pixel)} {y : Nat → Option Pixel}
    (hc : ∀ i < n, cell i = .ok (y i)) (r : Raster) :
    r.writeCells n cell =
      (List.range n).foldlM (fun out i => if (fun _ => true) i then out.setValue i (y i)
        else pure out) r := by
  unfold writeCells
  refine foldlM_congr fun out i hi => ?_
  rw [hc i (List.mem_range.mp hi), ok_bind]
  rfl

/-! ### The three operations -/

variable {input input₁ input₂ output other : Raster}

/-- Transforming a reachable raster into a reachable output fails with a runtime error when the
sizes differ or when the input has a missing cell that the output cannot hold; otherwise it
writes every cell of the output with the input's cell mapped by `op`. -/
theorem Reachable.transform_spec (hin : input.Reachable) (hout : output.Reachable)
    (op : Pixel → Pixel) :
    (input.size ≠ output.size ∨
        (∃ j < input.len, input.value j = .ok none) ∧ output.canRepresentNodata = false →
      ∃ msg, transform input output op = .error (.error (.runtime msg))) ∧
    (input.size = output.size →
      ((∃ j < input.len, input.value j = .ok none) → output.canRepresentNodata = true) →
      ∃ r', transform input output op = .ok r' ∧ r'.Reachable ∧ r'.backend = output.backend ∧
        r'.type = output.type ∧ r'.metadata = output.metadata ∧
        ∀ j < output.len, ∃ x, input.value j = .ok x ∧
          r'.value j = .ok (output.backend.readBack output.type output.metadata.nodata
            (x.map op))) := by
  have hwin := hin.sound.wf
  refine ⟨fun hfail => ?_, fun hsize hcan => ?_⟩
  · by_cases hsize : input.size = output.size
    · -- the check of missing cells fails
      obtain ⟨hnone, hcan⟩ := hfail.resolve_left (not_not.mpr hsize)
      have hnd : input.hasNodata = true := hwin.hasNodata_iff.mpr hnone
      constructor
      simp only [transform, checkSizesMatch, if_pos hsize, checkNodataSupport, hnd, hcan]
      rfl
    · constructor
      simp only [transform, checkSizesMatch, if_neg hsize]
      rfl
  · have hlen : input.len = output.len := congrArg GridSize.cellCount hsize
    have hcheck : checkNodataSupport output input.hasNodata = .ok () :=
      (checkNodataSupport_eq_ok_iff _ _).mpr fun hnd => hcan (hwin.hasNodata_iff.mp hnd)
    -- the input cells read at every index of the grid
    have hx : ∀ i < input.len, input.value i = .ok (input.toOptions.getD i none) :=
      fun i hi => hwin.value_eq hi
    obtain ⟨r', hfold, hr', hb, ht, hm, hv⟩ := hout.writeWhere (fun _ => true)
      (fun i => (input.toOptions.getD i none).map op) input.len (Nat.le_of_eq hlen) fun i hi _ hnone =>
        hcan ⟨i, hi, by rw [hx i hi, Option.map_eq_none_iff.mp hnone]⟩
    refine ⟨r', ?_, hr', hb, ht, hm, fun j hj => ⟨_, hx j (hlen ▸ hj), ?_⟩⟩
    · rw [transform, checkSizesMatch, if_pos hsize, hcheck]
      simp only [Outcome.ofExcept, ok_bind]
      rw [writeCells_eq fun i hi => by rw [hx i hi]; rfl]
      exact hfold
    · rw [hv j hj, if_pos ⟨hlen ▸ hj, rfl⟩]

/-- Combining two reachable rasters into a reachable output fails with a runtime error when the
sizes differ or when an input has a missing cell that the output cannot hold; otherwise it
writes every cell of the output with `op` of the inputs' cells, missing where either is. -/
theorem Reachable.transformBinary_spec (hin₁ : input₁.Reachable) (hin₂ : input₂.Reachable)
    (hout : output.Reachable) (op : Pixel → Pixel → Pixel) :
    (input₁.size ≠ input₂.size ∨ input₁.size ≠ output.size ∨
        (∃ j < input₁.len, input₁.value j = .ok none ∨ input₂.value j = .ok none) ∧
          output.canRepresentNodata = false →
      ∃ msg, transformBinary input₁ input₂ output op = .error (.error (.runtime msg))) ∧
    (input₁.size = input₂.size → input₁.size = output.size →
      ((∃ j < input₁.len, input₁.value j = .ok none ∨ input₂.value j = .ok none) →
        output.canRepresentNodata = true) →
      ∃ r', transformBinary input₁ input₂ output op = .ok r' ∧ r'.Reachable ∧
        r'.backend = output.backend ∧ r'.type = output.type ∧ r'.metadata = output.metadata ∧
        ∀ j < output.len, ∃ x y, input₁.value j = .ok x ∧ input₂.value j = .ok y ∧
          r'.value j = .ok (output.backend.readBack output.type output.metadata.nodata
            (x.bind fun a => y.map (op a)))) := by
  have hw₁ := hin₁.sound.wf
  have hw₂ := hin₂.sound.wf
  refine ⟨fun hfail => ?_, fun hsize₁₂ hsize hcan => ?_⟩
  · by_cases hsize₁₂ : input₁.size = input₂.size
    · by_cases hsize : input₁.size = output.size
      · -- the check of missing cells fails
        obtain ⟨⟨j, hj, hnone⟩, hcan⟩ :=
          (hfail.resolve_left (not_not.mpr hsize₁₂)).resolve_left (not_not.mpr hsize)
        have hlen₂ : input₁.len = input₂.len := congrArg GridSize.cellCount hsize₁₂
        have hnd : (input₁.hasNodata || input₂.hasNodata) = true := by
          rw [Bool.or_eq_true, hw₁.hasNodata_iff, hw₂.hasNodata_iff]
          rcases hnone with h₁ | h₂
          · exact .inl ⟨j, hj, h₁⟩
          · exact .inr ⟨j, hlen₂ ▸ hj, h₂⟩
        constructor
        simp only [transformBinary, checkSizesMatch, if_pos hsize₁₂, if_pos hsize,
          checkNodataSupport, hnd, hcan]
        rfl
      · constructor
        simp only [transformBinary, checkSizesMatch, if_pos hsize₁₂, if_neg hsize]
        rfl
    · constructor
      simp only [transformBinary, checkSizesMatch, if_neg hsize₁₂]
      rfl
  · have hlen₂ : input₁.len = input₂.len := congrArg GridSize.cellCount hsize₁₂
    have hlen : input₁.len = output.len := congrArg GridSize.cellCount hsize
    have hcheck : checkNodataSupport output (input₁.hasNodata || input₂.hasNodata) = .ok () := by
      refine (checkNodataSupport_eq_ok_iff _ _).mpr fun hnd => hcan ?_
      rw [Bool.or_eq_true, hw₁.hasNodata_iff, hw₂.hasNodata_iff] at hnd
      rcases hnd with ⟨j, hj, h₁⟩ | ⟨j, hj, h₂⟩
      · exact ⟨j, hj, .inl h₁⟩
      · exact ⟨j, hlen₂ ▸ hj, .inr h₂⟩
    -- the cells of both inputs read at every index of the grid
    have hx : ∀ i < input₁.len, input₁.value i = .ok (input₁.toOptions.getD i none) :=
      fun i hi => hw₁.value_eq hi
    have hy : ∀ i < input₁.len, input₂.value i = .ok (input₂.toOptions.getD i none) :=
      fun i hi => hw₂.value_eq (hlen₂ ▸ hi)
    obtain ⟨r', hfold, hr', hb, ht, hm, hv⟩ := hout.writeWhere (fun _ => true)
      (fun i => (input₁.toOptions.getD i none).bind fun a =>
        (input₂.toOptions.getD i none).map (op a)) input₁.len (Nat.le_of_eq hlen) fun i hi _ hnone => by
        refine hcan ⟨i, hi, ?_⟩
        cases hgx : input₁.toOptions.getD i none with
        | none => exact .inl (by rw [hx i hi, hgx])
        | some a =>
          rw [hgx] at hnone
          change (input₂.toOptions.getD i none).map (op a) = none at hnone
          rw [Option.map_eq_none_iff] at hnone
          exact .inr (by rw [hy i hi, hnone])
    refine ⟨r', ?_, hr', hb, ht, hm, fun j hj => ⟨_, _, hx j (hlen ▸ hj), hy j (hlen ▸ hj), ?_⟩⟩
    · rw [transformBinary, checkSizesMatch, checkSizesMatch, if_pos hsize₁₂, if_pos hsize, hcheck]
      simp only [Outcome.ofExcept, ok_bind]
      refine (writeCells_eq (fun i hi => ?_) output).trans hfold
      rw [hx i hi, hy i hi, ok_bind, ok_bind]
      cases input₁.toOptions.getD i none <;> cases input₂.toOptions.getD i none <;> rfl
    · rw [hv j hj, if_pos ⟨hlen ▸ hj, rfl⟩]

/-- Updating a reachable raster from another fails with a runtime error when the sizes differ or
when a cell that changes becomes missing in a raster that cannot hold it; otherwise it writes
exactly the cells whose new value `op` changes, and every other cell keeps its value. -/
theorem Reachable.update_spec (hr : r.Reachable) (ho : other.Reachable)
    (op : Option Pixel → Option Pixel → Option Pixel) :
    (r.size ≠ other.size ∨
        (∃ j < r.len, ∃ c o, r.value j = .ok c ∧ other.value j = .ok o ∧
          changes c (op c o) = true ∧ op c o = none) ∧ r.canRepresentNodata = false →
      ∃ msg, update r other op = .error (.error (.runtime msg))) ∧
    (r.size = other.size →
      ((∃ j < r.len, ∃ c o, r.value j = .ok c ∧ other.value j = .ok o ∧
          changes c (op c o) = true ∧ op c o = none) → r.canRepresentNodata = true) →
      ∃ r', update r other op = .ok r' ∧ r'.Reachable ∧ r'.backend = r.backend ∧
        r'.type = r.type ∧ r'.metadata = r.metadata ∧
        ∀ j < r.len, ∃ c o, r.value j = .ok c ∧ other.value j = .ok o ∧
          r'.value j = if changes c (op c o)
            then .ok (r.backend.readBack r.type r.metadata.nodata (op c o)) else .ok c) := by
  have hwr := hr.sound.wf
  have hwo := ho.sound.wf
  by_cases hsize : r.size = other.size
  swap
  · refine ⟨fun _ => ?_, fun h => absurd h hsize⟩
    constructor
    simp only [update, checkSizesMatch, if_neg hsize]
    rfl
  have hlen : r.len = other.len := congrArg GridSize.cellCount hsize
  -- both rasters read at every index of the grid
  have hcur : ∀ i < r.len, r.value i = .ok (r.toOptions.getD i none) := fun i hi => hwr.value_eq hi
  have hoth : ∀ i < r.len, other.value i = .ok (other.toOptions.getD i none) :=
    fun i hi => hwo.value_eq (hlen ▸ hi)
  -- the updates are the changing cells, in order
  have hupdates :
      (List.range r.len).filterMapM (fun i => do
        let current ← r.value i
        let next := op current (← other.value i)
        pure (if changes current next then some (i, next) else none)) =
      .ok ((List.range r.len).filterMap fun i =>
        if changes (r.toOptions.getD i none)
          (op (r.toOptions.getD i none) (other.toOptions.getD i none))
        then some (i, op (r.toOptions.getD i none) (other.toOptions.getD i none)) else none) := by
    refine filterMapM_eq_ok fun i hi => ?_
    have hi := List.mem_range.mp hi
    rw [hcur i hi, ok_bind, hoth i hi, ok_bind]
    rfl
  -- some update makes a cell missing exactly when some changing cell becomes missing
  have hmissing :
      (((List.range r.len).filterMap fun i =>
        if changes (r.toOptions.getD i none)
          (op (r.toOptions.getD i none) (other.toOptions.getD i none))
        then some (i, op (r.toOptions.getD i none) (other.toOptions.getD i none)) else none).any
          fun u => u.2.isNone) = true ↔
        ∃ j < r.len, ∃ c o, r.value j = .ok c ∧ other.value j = .ok o ∧
          changes c (op c o) = true ∧ op c o = none := by
    rw [any_filterMap_ite_isNone]
    constructor
    · rintro ⟨j, hj, hch, hnone⟩
      have hj := List.mem_range.mp hj
      exact ⟨j, hj, _, _, hcur j hj, hoth j hj, hch, hnone⟩
    · rintro ⟨j, hj, c, o, hc, ho', hch, hnone⟩
      -- the values read are the buffers' cells
      obtain rfl := Except.ok.inj ((hcur j hj).symm.trans hc)
      obtain rfl := Except.ok.inj ((hoth j hj).symm.trans ho')
      exact ⟨j, List.mem_range.mpr hj, hch, hnone⟩
  refine ⟨fun hfail => ?_, fun _ hcan => ?_⟩
  · -- the check of missing cells fails
    obtain ⟨hnone, hcan⟩ := hfail.resolve_left (not_not.mpr hsize)
    constructor
    simp only [update, checkSizesMatch, if_pos hsize, Outcome.ofExcept, ok_bind, hupdates,
      checkNodataSupport, hmissing.mpr hnone, hcan]
    rfl
  · obtain ⟨r', hfold, hr', hb, ht, hm, hv⟩ := hr.writeWhere
      (fun i => changes (r.toOptions.getD i none)
        (op (r.toOptions.getD i none) (other.toOptions.getD i none)))
      (fun i => op (r.toOptions.getD i none) (other.toOptions.getD i none)) r.len (Nat.le_refl _)
      fun i hi hch hnone => hcan ⟨i, hi, _, _, hcur i hi, hoth i hi, hch, hnone⟩
    have hcheck := (checkNodataSupport_eq_ok_iff r _).mpr fun h => hcan (hmissing.mp h)
    refine ⟨r', ?_, hr', hb, ht, hm, fun j hj => ⟨_, _, hcur j hj, hoth j hj, ?_⟩⟩
    · simp only [update, checkSizesMatch, if_pos hsize, Outcome.ofExcept, ok_bind, hupdates, hcheck]
      exact (foldlM_filterMap_ite _ _ _ _ _).trans hfold
    · rw [hv j hj]
      by_cases hch : changes (r.toOptions.getD j none)
          (op (r.toOptions.getD j none) (other.toOptions.getD j none)) = true
      · rw [if_pos ⟨hj, hch⟩, if_pos hch]
      · rw [if_neg fun h => hch h.2, if_neg hch, hcur j hj]

/-- Updating the dense raster of the one value `0.0` with a copy of `-0.0` leaves `0.0`: the two
values compare equal, so the cell is not written, although writing `-0.0` there gives another
raster. -/
theorem update_keeps_equal_zero :
    update (dense ⟨.float64, Metadata.sized ⟨1, 1⟩ none, #[.double Metadata.zero],
          PixelType.float64.policy none⟩)
        (dense ⟨.float64, Metadata.sized ⟨1, 1⟩ none, #[.double (BinaryFloat.zero true)],
          PixelType.float64.policy none⟩)
        (fun _ o => o) =
      .ok (dense ⟨.float64, Metadata.sized ⟨1, 1⟩ none, #[.double Metadata.zero],
        PixelType.float64.policy none⟩) ∧
    (dense ⟨.float64, Metadata.sized ⟨1, 1⟩ none, #[.double Metadata.zero],
        PixelType.float64.policy none⟩).setValue 0
        (some (.double (BinaryFloat.zero true))) =
      .ok (dense ⟨.float64, Metadata.sized ⟨1, 1⟩ none, #[.double (BinaryFloat.zero true)],
          PixelType.float64.policy none⟩) ∧
    (Metadata.zero : Binary64) ≠ BinaryFloat.zero true :=
  ⟨rfl, rfl, fun h => absurd (congrArg BinaryFloat.bits h) (by decide)⟩

/-- Writing a raster from others checks everything before the first write. For reachable
rasters: a raster cannot hold a missing cell exactly when it is dense, of an integral type and
without nodata value; `transform`, `transformBinary` and `update` fail with a runtime error
exactly when the sizes differ or when a cell has to become missing in a raster that cannot hold
it, and never abort; otherwise they give a reachable raster with the storage, type and metadata
of the raster written, whose every cell reads back the value written there, where `update`
writes only the cells whose value changes and keeps the others. -/
theorem writes_checked_first :
    (∀ r : Raster, r.Reachable →
      (r.canRepresentNodata = false ↔
        r.backend = .dense ∧ r.type.hasNaN = false ∧ r.metadata.nodata = none)) ∧
    (∀ (input output : Raster) (op : Pixel → Pixel), input.Reachable → output.Reachable →
      (input.size ≠ output.size ∨
          (∃ j < input.len, input.value j = .ok none) ∧ output.canRepresentNodata = false →
        ∃ msg, transform input output op = .error (.error (.runtime msg))) ∧
      (input.size = output.size →
        ((∃ j < input.len, input.value j = .ok none) → output.canRepresentNodata = true) →
        ∃ r', transform input output op = .ok r' ∧ r'.Reachable ∧ r'.backend = output.backend ∧
          r'.type = output.type ∧ r'.metadata = output.metadata ∧
          ∀ j < output.len, ∃ x, input.value j = .ok x ∧
            r'.value j = .ok (output.backend.readBack output.type output.metadata.nodata
              (x.map op)))) ∧
    (∀ (input₁ input₂ output : Raster) (op : Pixel → Pixel → Pixel), input₁.Reachable →
      input₂.Reachable → output.Reachable →
      (input₁.size ≠ input₂.size ∨ input₁.size ≠ output.size ∨
          (∃ j < input₁.len, input₁.value j = .ok none ∨ input₂.value j = .ok none) ∧
            output.canRepresentNodata = false →
        ∃ msg, transformBinary input₁ input₂ output op = .error (.error (.runtime msg))) ∧
      (input₁.size = input₂.size → input₁.size = output.size →
        ((∃ j < input₁.len, input₁.value j = .ok none ∨ input₂.value j = .ok none) →
          output.canRepresentNodata = true) →
        ∃ r', transformBinary input₁ input₂ output op = .ok r' ∧ r'.Reachable ∧
          r'.backend = output.backend ∧ r'.type = output.type ∧ r'.metadata = output.metadata ∧
          ∀ j < output.len, ∃ x y, input₁.value j = .ok x ∧ input₂.value j = .ok y ∧
            r'.value j = .ok (output.backend.readBack output.type output.metadata.nodata
              (x.bind fun a => y.map (op a))))) ∧
    (∀ (r other : Raster) (op : Option Pixel → Option Pixel → Option Pixel), r.Reachable →
      other.Reachable →
      (r.size ≠ other.size ∨
          (∃ j < r.len, ∃ c o, r.value j = .ok c ∧ other.value j = .ok o ∧
            changes c (op c o) = true ∧ op c o = none) ∧ r.canRepresentNodata = false →
        ∃ msg, update r other op = .error (.error (.runtime msg))) ∧
      (r.size = other.size →
        ((∃ j < r.len, ∃ c o, r.value j = .ok c ∧ other.value j = .ok o ∧
            changes c (op c o) = true ∧ op c o = none) → r.canRepresentNodata = true) →
        ∃ r', update r other op = .ok r' ∧ r'.Reachable ∧ r'.backend = r.backend ∧
          r'.type = r.type ∧ r'.metadata = r.metadata ∧
          ∀ j < r.len, ∃ c o, r.value j = .ok c ∧ other.value j = .ok o ∧
            r'.value j = if changes c (op c o)
              then .ok (r.backend.readBack r.type r.metadata.nodata (op c o)) else .ok c)) :=
  ⟨fun _ h => h.nodataAccepted.canRepresentNodata_eq_false_iff h.sound.wf,
    fun _ _ op hin hout => hin.transform_spec hout op,
    fun _ _ _ op h₁ h₂ ho => h₁.transformBinary_spec h₂ ho op,
    fun _ _ op hr ho => hr.update_spec ho op⟩

/-- Two dense rasters of three 32-bit integers with nodata value `5`, each with a missing cell,
written into a new dense raster without nodata value: every write that has to mark a cell missing
fails with a runtime error. Written into a new raster with nodata value `5` they succeed: a
transformation keeps the missing cell, a combination of the two is missing where either is, and an
update that copies the first raster's cells gives back its cells. -/
theorem writes_checked_first_nodata_cells :
    ∃ a b o o',
      Backend.dense.ofOptions .int32 (Metadata.sized ⟨1, 3⟩ (some (BinaryFloat.ofInt 5)))
        [some (.int 4), none, some (.int 9)] = .ok a ∧
      Backend.dense.ofOptions .int32 (Metadata.sized ⟨1, 3⟩ (some (BinaryFloat.ofInt 5)))
        [some (.int 7), some (.int 2), none] = .ok b ∧
      Backend.dense.new .int32 (Metadata.sized ⟨1, 3⟩ none) = .ok o ∧
      Backend.dense.new .int32 (Metadata.sized ⟨1, 3⟩ (some (BinaryFloat.ofInt 5))) = .ok o' ∧
      o.canRepresentNodata = false ∧
      (∃ msg, transform a o (fun _ => .int 1) = .error (.error (.runtime msg))) ∧
      (∃ r', transform a o' (fun _ => .int 1) = .ok r' ∧
        ∀ j < 3, r'.value j = .ok ([some (.int 1), none, some (.int 1)].getD j none)) ∧
      (∃ msg, transformBinary a b o (fun _ y => y) = .error (.error (.runtime msg))) ∧
      (∃ r', transformBinary a b o' (fun _ y => y) = .ok r' ∧
        ∀ j < 3, r'.value j = .ok ([some (.int 7), none, none].getD j none)) ∧
      (∃ msg, update o a (fun _ y => y) = .error (.error (.runtime msg))) ∧
      (∃ r', update o' a (fun _ y => y) = .ok r' ∧
        ∀ j < 3, r'.value j = .ok ([some (.int 4), none, some (.int 9)].getD j none)) := by
  have hm : (Metadata.sized ⟨1, 3⟩ (some (BinaryFloat.ofInt 5))).CoordDims := ⟨rfl, rfl⟩
  obtain ⟨a, ha⟩ : ∃ a, Backend.dense.ofOptions .int32
      (Metadata.sized ⟨1, 3⟩ (some (BinaryFloat.ofInt 5))) [some (.int 4), none, some (.int 9)] =
        .ok a := ⟨_, rfl⟩
  obtain ⟨b, hb⟩ : ∃ b, Backend.dense.ofOptions .int32
      (Metadata.sized ⟨1, 3⟩ (some (BinaryFloat.ofInt 5))) [some (.int 7), some (.int 2), none] =
        .ok b := ⟨_, rfl⟩
  obtain ⟨o, ho⟩ : ∃ o, Backend.dense.new .int32 (Metadata.sized ⟨1, 3⟩ none) = .ok o :=
    ⟨_, rfl⟩
  obtain ⟨o', ho'⟩ : ∃ o, Backend.dense.new .int32
      (Metadata.sized ⟨1, 3⟩ (some (BinaryFloat.ofInt 5))) = .ok o := ⟨_, rfl⟩
  have hra : a.Reachable := .built (.ofOptions hm ha)
  have hrb : b.Reachable := .built (.ofOptions hm hb)
  have hro : o.Reachable := .built (.new ⟨rfl, rfl⟩ ho)
  have hro' : o'.Reachable := .built (.new hm ho')
  obtain ⟨hcan, htr, hbin, hup⟩ := writes_checked_first
  have hcant : o.canRepresentNodata = false := (hcan o hro).2 (by cases ho; exact ⟨rfl, rfl, rfl⟩)
  -- the second cell of the first input is missing
  have hmiss : ∃ j < a.len, a.value j = .ok none := by
    cases ha
    exact ⟨1, by decide, rfl⟩
  have hlen : o'.len = 3 := by
    cases ho'
    rfl
  obtain ⟨r₁, ht₁, -, -, -, -, hv₁⟩ := (htr a o' (fun _ => .int 1) hra hro').2
    (by cases ha; cases ho'; rfl) fun _ => by cases ho'; rfl
  obtain ⟨r₂, ht₂, -, -, -, -, hv₂⟩ := (hbin a b o' (fun _ y => y) hra hrb hro').2
    (by cases ha; cases hb; rfl) (by cases ha; cases ho'; rfl) fun _ => by cases ho'; rfl
  obtain ⟨r₃, ht₃, -, -, -, -, hv₃⟩ := (hup o' a (fun _ y => y) hro' hra).2
    (by cases ha; cases ho'; rfl) fun _ => by cases ho'; rfl
  refine ⟨a, b, o, o', ha, hb, ho, ho', hcant,
    (htr a o _ hra hro).1 (.inr ⟨hmiss, hcant⟩), ⟨r₁, ht₁, ?_⟩,
    (hbin a b o _ hra hrb hro).1 (.inr (.inr ⟨hmiss.imp fun _ ⟨hj, h⟩ => ⟨hj, .inl h⟩, hcant⟩)),
    ⟨r₂, ht₂, ?_⟩, (hup o a _ hro hra).1 (.inr ⟨?_, hcant⟩), ⟨r₃, ht₃, ?_⟩⟩
  · intro j hj
    obtain ⟨x, hx, hr⟩ := hv₁ j (hlen ▸ hj)
    rw [hr]
    cases ha
    cases ho'
    rcases j with _ | _ | _ | j
    all_goals first | omega | (cases hx; rfl)
  · intro j hj
    obtain ⟨x, y, hx, hy, hr⟩ := hv₂ j (hlen ▸ hj)
    rw [hr]
    cases ha
    cases hb
    cases ho'
    rcases j with _ | _ | _ | j
    all_goals first | omega | (cases hx; cases hy; rfl)
  · cases ha
    cases ho
    exact ⟨1, by decide, _, _, rfl, rfl, rfl, rfl⟩
  · intro j hj
    obtain ⟨c, y, hc, hy, hr⟩ := hv₃ j (hlen ▸ hj)
    rw [hr]
    cases ha
    cases ho'
    rcases j with _ | _ | _ | j
    all_goals first | omega | (cases hc; cases hy; rfl)

end Raster

end Georaster
