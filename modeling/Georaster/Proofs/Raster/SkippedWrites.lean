import Georaster.Proofs.Raster.Transform
import Georaster.Proofs.Binary.Exact
/-!
# Skipping the cells that do not change

`Raster.update` recomputes every cell of a raster from its own cell and the cell of another raster,
and writes only the cells whose value changes (`changes`). `Raster.updateEvery` makes the same
check and then writes every cell, changed or not. The two can differ only at a cell whose new
value compares equal to the old one without being it, and equality of values identifies exactly
one such pair: a value other than zero is stored in one way only, so two values are equal when
they are one value or two zeros (`BinaryFloat.eq_eq_true_iff`).

* `Raster.update_eq_of_size_eq` and `Raster.updateEvery_eq_of_size_eq` bring both to one check
  followed by a loop of writes, the first writing where `changes` holds, the second everywhere;
* `Raster.Reachable.update_eq_updateEvery_but_zeros`: for reachable rasters both fail alike, and
  otherwise read the same at every cell but where a zero is replaced by the zero of the other
  sign, which the update keeps;
* `Raster.update_keeps_zero_masked`: a masked cell of `0.0` copied from `-0.0` is such a cell.
-/

namespace Georaster

/-! ### Equal values -/

namespace BinaryFloat

variable {f : FloatFormat} {x y z : BinaryFloat f}

theorem eq_trans (hxy : x.eq y = true) (hyz : y.eq z = true) : x.eq z = true := by
  rcases eq_eq_true_iff.mp hxy with ⟨-, rfl⟩ | ⟨hx, hy⟩
  · exact hyz
  -- `x` and `y` are zeros: `z` is `y` or another zero
  rcases eq_eq_true_iff.mp hyz with ⟨-, rfl⟩ | ⟨-, hz⟩
  · exact eq_eq_true_iff.mpr (.inr ⟨hx, hy⟩)
  · exact eq_eq_true_iff.mpr (.inr ⟨hx, hz⟩)

theorem isNaN_eq_false_of_eq (h : x.eq y = true) : x.isNaN = false := by
  rcases eq_eq_true_iff.mp h with ⟨hx, -⟩ | ⟨hx, -⟩
  · exact hx
  · obtain ⟨s, e, hc⟩ := isZero_iff.mp hx
    simp [isNaN, hc]

end BinaryFloat

namespace Pixel

variable {a b c : Pixel}

theorem eq_trans (hab : a.eq b = true) (hbc : b.eq c = true) : a.eq c = true := by
  cases a <;> cases b <;> cases c <;> simp only [Pixel.eq, Bool.false_eq_true] at hab hbc ⊢
  · simp_all
  · exact BinaryFloat.eq_trans hab hbc
  · exact BinaryFloat.eq_trans hab hbc

theorem isNaN_eq_false_of_eq (h : a.eq b = true) : a.isNaN = false := by
  cases a <;> cases b <;> simp only [Pixel.eq, Bool.false_eq_true] at h
  · rfl
  · exact BinaryFloat.isNaN_eq_false_of_eq h
  · exact BinaryFloat.isNaN_eq_false_of_eq h

/-- Two values that are equal without being the same value are zeros. -/
theorem isZero_of_eq_of_ne (h : a.eq b = true) (hne : a ≠ b) :
    a.isZero = true ∧ b.isZero = true := by
  cases a <;> cases b <;> simp only [Pixel.eq, Bool.false_eq_true] at h
  · exact absurd (congrArg Pixel.int (beq_iff_eq.mp h)) hne
  · rcases BinaryFloat.eq_eq_true_iff.mp h with ⟨-, rfl⟩ | hz
    · exact absurd rfl hne
    · exact hz
  · rcases BinaryFloat.eq_eq_true_iff.mp h with ⟨-, rfl⟩ | hz
    · exact absurd rfl hne
    · exact hz

end Pixel

namespace NodataPolicy

variable {p : NodataPolicy}

theorem eq_of_read_eq_some {v x : Pixel} (h : p.read v = some x) : v = x := by
  unfold read at h
  split at h
  · cases h
  · exact Option.some.inj h

/-- Two equal values are missing alike. -/
theorem isMissing_congr {x y : Pixel} (h : x.eq y = true) : p.isMissing x = p.isMissing y := by
  have h' : y.eq x = true := by rw [Pixel.eq_comm]; exact h
  cases p with
  | sentinel s =>
    cases s with
    | none => rfl
    | some s =>
      simp only [isMissing]
      rw [Bool.eq_iff_iff]
      exact ⟨fun hs => Pixel.eq_trans hs h, fun hs => Pixel.eq_trans hs h'⟩
  | nan m =>
    simp only [isMissing]
    rw [Pixel.isNaN_eq_false_of_eq h, Pixel.isNaN_eq_false_of_eq h']

end NodataPolicy

/-! ### Reading back a value written -/

namespace Raster

variable {r other : Raster} {op : Option Pixel → Option Pixel → Option Pixel}

theorem readBack_none (b : Backend) (t : PixelType) (n : Option Binary64) :
    b.readBack t n none = none := by
  cases b <;> rfl

/-- In a well-formed raster, a value equal to one that a cell reads is read back as it is when
written. -/
theorem Wf.readBack_of_value_eq (hw : r.Wf) {j : Nat} {x y : Pixel} (hv : r.value j = .ok (some x))
    (h : x.eq y = true) : r.backend.readBack r.type r.metadata.nodata (some y) = some y := by
  cases r with
  | dense d =>
    -- the buffer holds `x`, which its policy does not mark as missing, nor then `y`
    obtain ⟨v, -, hread⟩ := map_eq_ok.mp hv
    obtain rfl := NodataPolicy.eq_of_read_eq_some hread
    show (d.type.policy d.metadata.nodata).read y = some y
    rw [← DenseRaster.Wf.policy_eq hw]
    unfold NodataPolicy.read at hread ⊢
    rw [← NodataPolicy.isMissing_congr h]
    split at hread
    · cases hread
    · rw [if_neg (by assumption)]
  | masked k => rfl
  | sparse s => rfl

/-- A raster with a missing cell can hold missing cells. -/
theorem canRepresentNodata_of_value_none {j : Nat} (hv : r.value j = .ok none) :
    r.canRepresentNodata = true := by
  cases r with
  | dense d =>
    obtain ⟨v, -, hread⟩ := map_eq_ok.mp hv
    show d.policy.missingValue.isSome = true
    -- only a policy without a missing value reads every value as present
    cases hp : d.policy with
    | sentinel s =>
      cases s with
      | none => simp [hp, NodataPolicy.read, NodataPolicy.isMissing] at hread
      | some s => rfl
    | nan m => rfl
  | masked k => rfl
  | sparse s => rfl

/-- A value that does not change a cell reads back as the cell's own value, unless it is the zero
of the other sign in place of a zero, which reads back as written. -/
theorem Wf.readBack_of_changes_eq_false (hw : r.Wf) {j : Nat} {c v : Option Pixel}
    (hc : r.value j = .ok c) (hch : changes c v = false) :
    r.backend.readBack r.type r.metadata.nodata v = c ∨
      ∃ x y, c = some x ∧ v = some y ∧ r.backend.readBack r.type r.metadata.nodata v = some y ∧
        x.isZero = true ∧ y.isZero = true ∧ x ≠ y := by
  cases c with
  | none =>
    cases v with
    | none => exact .inl (readBack_none _ _ _)
    | some y => cases hch
  | some x =>
    cases v with
    | none => cases hch
    | some y =>
      have hxy : x.eq y = true := by simpa [changes] using hch
      have hback := hw.readBack_of_value_eq hc hxy
      by_cases hne : x = y
      · subst hne
        exact .inl hback
      · obtain ⟨hx, hy⟩ := Pixel.isZero_of_eq_of_ne hxy hne
        exact .inr ⟨x, y, rfl, rfl, hback, hx, hy, hne⟩

/-- A cell left missing by a write was missing, so the raster can hold missing cells. -/
theorem canRepresentNodata_of_changes_eq_false {j : Nat} {c : Option Pixel}
    (hc : r.value j = .ok c) (hch : changes c none = false) : r.canRepresentNodata = true := by
  cases c with
  | none => exact canRepresentNodata_of_value_none hc
  | some x => cases hch

/-! ### Writing every cell -/

/-- The raster with every cell recomputed by `op` from its own cell and the cell of `other` and
written, whether it changes or not, after the check that `update` makes. -/
def updateEvery (r other : Raster) (op : Option Pixel → Option Pixel → Option Pixel) :
    Outcome Raster := do
  Outcome.ofExcept (checkSizesMatch r other)
  let cells ← (List.range r.len).mapM fun i => do
    let current ← r.value i
    pure (i, current, op current (← other.value i))
  Outcome.ofExcept (checkNodataSupport r (cells.any fun u => changes u.2.1 u.2.2 && u.2.2.isNone))
  cells.foldlM (fun out u => out.setValue u.1 u.2.2) r

/-- What `op` makes of cell `i` of `r` and cell `i` of `other`. -/
def nextCell (r other : Raster) (op : Option Pixel → Option Pixel → Option Pixel) (i : Nat) :
    Option Pixel :=
  op (r.toOptions.getD i none) (other.toOptions.getD i none)

/-- Whether some cell that changes becomes missing. -/
def makesMissing (r other : Raster) (op : Option Pixel → Option Pixel → Option Pixel) : Bool :=
  (List.range r.len).any fun i =>
    changes (r.toOptions.getD i none) (nextCell r other op i) && (nextCell r other op i).isNone

/-- For well-formed rasters of one size, an update checks whether a changing cell becomes missing
and then writes the changing cells. -/
theorem update_eq_of_size_eq (hr : r.Wf) (ho : other.Wf) (hsize : r.size = other.size) :
    update r other op = (do
      Outcome.ofExcept (checkNodataSupport r (makesMissing r other op))
      (List.range r.len).foldlM (fun out i =>
        if changes (r.toOptions.getD i none) (nextCell r other op i)
        then out.setValue i (nextCell r other op i) else pure out) r) := by
  have hlen : r.len = other.len := congrArg GridSize.cellCount hsize
  have hupdates :
      (List.range r.len).filterMapM (fun i => do
        let current ← r.value i
        let next := op current (← other.value i)
        pure (if changes current next then some (i, next) else none)) =
      .ok ((List.range r.len).filterMap fun i =>
        if changes (r.toOptions.getD i none) (nextCell r other op i)
        then some (i, nextCell r other op i) else none) := by
    refine filterMapM_eq_ok fun i hi => ?_
    have hi := List.mem_range.mp hi
    rw [hr.value_eq hi, ok_bind, ho.value_eq (hlen ▸ hi), ok_bind]
    rfl
  have hmissing :
      (((List.range r.len).filterMap fun i =>
        if changes (r.toOptions.getD i none) (nextCell r other op i)
        then some (i, nextCell r other op i) else none).any fun u => u.2.isNone) =
        makesMissing r other op := by
    rw [Bool.eq_iff_iff, any_filterMap_ite_isNone, makesMissing, List.any_eq_true]
    simp [Option.isNone_iff_eq_none]
  simp only [update, checkSizesMatch, if_pos hsize, Outcome.ofExcept, ok_bind, hupdates, hmissing]
  congr 1
  funext _
  exact foldlM_filterMap_ite _ _ _ _ _

/-- For well-formed rasters of one size, writing every cell makes the check of an update and then
writes every cell. -/
theorem updateEvery_eq_of_size_eq (hr : r.Wf) (ho : other.Wf) (hsize : r.size = other.size) :
    updateEvery r other op = (do
      Outcome.ofExcept (checkNodataSupport r (makesMissing r other op))
      (List.range r.len).foldlM (fun out i => out.setValue i (nextCell r other op i)) r) := by
  have hlen : r.len = other.len := congrArg GridSize.cellCount hsize
  have hcells :
      (List.range r.len).mapM (fun i => do
        let current ← r.value i
        pure (i, current, op current (← other.value i))) =
      .ok ((List.range r.len).map fun i =>
        (i, r.toOptions.getD i none, nextCell r other op i)) := by
    refine mapM_eq_ok_map fun i hi => ?_
    have hi := List.mem_range.mp hi
    rw [hr.value_eq hi, ok_bind, ho.value_eq (hlen ▸ hi), ok_bind]
    rfl
  simp only [updateEvery, checkSizesMatch, if_pos hsize, Outcome.ofExcept, ok_bind, hcells,
    List.any_map, List.foldlM_map]
  rfl

/-- Writing every cell of a reachable raster from another, after the check of an update, fails as
the update does; otherwise both read the same at every cell but where a zero is replaced by the
zero of the other sign: the two compare equal, so the update keeps the zero it had, where writing
every cell reads the new one. -/
theorem Reachable.update_eq_updateEvery_but_zeros (hr : r.Reachable) (ho : other.Reachable)
    (op : Option Pixel → Option Pixel → Option Pixel) :
    (∀ e, update r other op = .error e ↔ updateEvery r other op = .error e) ∧
    ∀ r₁ r₂, update r other op = .ok r₁ → updateEvery r other op = .ok r₂ →
      ∀ j < r.len, r₁.value j = r₂.value j ∨
        ∃ x y o, r.value j = .ok (some x) ∧ other.value j = .ok o ∧ op (some x) o = some y ∧
          r₁.value j = .ok (some x) ∧ r₂.value j = .ok (some y) ∧
          x.isZero = true ∧ y.isZero = true ∧ x ≠ y := by
  have hwr := hr.sound.wf
  have hwo := ho.sound.wf
  by_cases hsize : r.size = other.size
  swap
  · -- both refuse the sizes with one error
    have heq : update r other op = updateEvery r other op := by
      simp only [update, updateEvery, checkSizesMatch, if_neg hsize]
      rfl
    refine ⟨fun e => by rw [heq], fun r₁ r₂ h₁ h₂ j _ => ?_⟩
    rw [heq, h₂] at h₁
    cases h₁
    exact .inl rfl
  have hlen : r.len = other.len := congrArg GridSize.cellCount hsize
  rw [update_eq_of_size_eq hwr hwo hsize, updateEvery_eq_of_size_eq hwr hwo hsize]
  cases hcheck : checkNodataSupport r (makesMissing r other op) with
  | error e =>
    -- both stop at the check
    refine ⟨fun _ => Iff.rfl, fun r₁ r₂ h₁ _ => ?_⟩
    simp [Outcome.ofExcept] at h₁
  | ok u =>
    have hcan := (checkNodataSupport_eq_ok_iff r _).mp hcheck
    -- a changing cell that becomes missing is one that the check has seen
    have hchanged : ∀ i < r.len, changes (r.toOptions.getD i none) (nextCell r other op i) = true →
        nextCell r other op i = none → r.canRepresentNodata = true := fun i hi hch hnone =>
      hcan (List.any_eq_true.mpr ⟨i, List.mem_range.mpr hi, by rw [hch, hnone]; rfl⟩)
    obtain ⟨r₁, hf₁, -, -, -, -, hv₁⟩ := hr.writeWhere
      (fun i => changes (r.toOptions.getD i none) (nextCell r other op i)) (nextCell r other op)
      r.len (Nat.le_refl _) hchanged
    obtain ⟨r₂, hf₂, -, -, -, -, hv₂⟩ := hr.writeWhere (fun _ => true) (nextCell r other op)
      r.len (Nat.le_refl _) fun i hi _ hnone => by
        cases hch : changes (r.toOptions.getD i none) (nextCell r other op i)
        · rw [hnone] at hch
          exact canRepresentNodata_of_changes_eq_false (hwr.value_eq hi) hch
        · exact hchanged i hi hch hnone
    have hall : (List.range r.len).foldlM (fun out i => out.setValue i (nextCell r other op i)) r =
        .ok r₂ := by
      rw [← hf₂]
      exact foldlM_congr fun out i _ => by rw [if_pos rfl]
    simp only [Outcome.ofExcept, ok_bind, hf₁, hall]
    refine ⟨fun e => by simp, fun r₁' r₂' h₁ h₂ j hj => ?_⟩
    cases h₁
    cases h₂
    have hv₂j := hv₂ j hj
    rw [if_pos ⟨hj, rfl⟩] at hv₂j
    rw [hv₁ j hj, hv₂j]
    cases hch : changes (r.toOptions.getD j none) (nextCell r other op j)
    case true => exact .inl (by rw [if_pos ⟨hj, rfl⟩])
    rw [if_neg fun h => Bool.false_ne_true h.2, hwr.value_eq hj]
    -- the cell does not change: both missing, or two equal values
    rcases hwr.readBack_of_changes_eq_false (hwr.value_eq hj) hch with
      hback | ⟨x, y, hc, hn, hback, hzero⟩
    · exact .inl (by rw [hback])
    · refine .inr ⟨x, y, _, by rw [hc], hwo.value_eq (hlen ▸ hj), ?_, by rw [hc],
        by rw [hback], hzero⟩
      rw [← hn, nextCell, hc]

/-- The masked raster of the one value `0.0`, without mask. -/
def zeroMasked : MaskedRaster := ⟨.float64, Metadata.ofRowsCols 1 1, #[.double Metadata.zero], #[]⟩

/-- The dense raster of the one value `-0.0`, without nodata value. -/
def negZeroDense : DenseRaster :=
  ⟨.float64, Metadata.ofRowsCols 1 1, #[.double (BinaryFloat.zero true)],
    PixelType.float64.policy none⟩

theorem update_eq_updateEvery_but_zeros_copy :
    (masked zeroMasked).Reachable ∧ (dense negZeroDense).Reachable ∧
    ((∀ e, update (masked zeroMasked) (dense negZeroDense) (fun _ o => o) = .error e ↔
        updateEvery (masked zeroMasked) (dense negZeroDense) (fun _ o => o) = .error e) ∧
      ∀ r₁ r₂, update (masked zeroMasked) (dense negZeroDense) (fun _ o => o) = .ok r₁ →
        updateEvery (masked zeroMasked) (dense negZeroDense) (fun _ o => o) = .ok r₂ →
        ∀ j < (masked zeroMasked).len, r₁.value j = r₂.value j ∨
          ∃ x y o, (masked zeroMasked).value j = .ok (some x) ∧
            (dense negZeroDense).value j = .ok o ∧
            (fun _ o => o : Option Pixel → Option Pixel → Option Pixel) (some x) o = some y ∧
            r₁.value j = .ok (some x) ∧ r₂.value j = .ok (some y) ∧
            x.isZero = true ∧ y.isZero = true ∧ x ≠ y) :=
  have hm : (masked zeroMasked).Reachable :=
    .built (.new (b := .masked) (t := .float64) (m := Metadata.ofRowsCols 1 1) ⟨rfl, rfl⟩ rfl)
  have hd : (dense negZeroDense).Reachable :=
    .built (.filledWith (b := .dense) (t := .float64) (m := Metadata.ofRowsCols 1 1)
      (v := .double (BinaryFloat.zero true)) ⟨rfl, rfl⟩ rfl)
  ⟨hm, hd, Reachable.update_eq_updateEvery_but_zeros hm hd fun _ o => o⟩

/-- Copying `-0.0` over a masked cell of `0.0`: the update keeps `0.0`, since the two compare
equal, while writing every cell gives `-0.0`, another value. -/
theorem update_keeps_zero_masked :
    (update (masked zeroMasked) (dense negZeroDense) fun _ o => o).map toOptions =
      .ok [some (.double Metadata.zero)] ∧
    (updateEvery (masked zeroMasked) (dense negZeroDense) fun _ o => o).map toOptions =
      .ok [some (.double (BinaryFloat.zero true))] ∧
    (Metadata.zero : Binary64) ≠ BinaryFloat.zero true :=
  ⟨rfl, rfl, fun h => absurd (congrArg BinaryFloat.bits h) (by decide)⟩

end Raster

end Georaster
