import Georaster.Raster.Basic
/-!
# Writing one raster from others

These operations write the cells of an existing raster from the cells of rasters of the same
size, at the same index. A missing input cell gives a missing output cell, so an output that
cannot hold missing cells is refused when an input has one. Every check is made before the
first cell is written: when an operation reports an error the output is unchanged.

* `Raster.transform` maps each data cell of one input.
* `Raster.transformBinary` combines the cells of two inputs that both hold data.
* `Raster.update` recomputes each cell of a raster, present or missing, from its own cell and
  the cell of another raster; only the cells whose value changes are written, and a missing
  cell is refused only if some cell becomes missing.
-/

namespace Georaster

/-- The value converted into type `t`, or its zero when it does not fit. -/
def PixelType.castOrZero (t : PixelType) (v : Pixel) : Pixel := (t.cast? v).getD t.zero

namespace Raster

/-- Refuses to write missing cells into a raster that cannot hold them. -/
def checkNodataSupport (output : Raster) (needed : Bool) : Except RasterError Unit :=
  if needed && !output.canRepresentNodata then
    .error (.runtime "Output raster without nodata value cannot represent the nodata cells")
  else .ok ()

/-- The check passes exactly when no missing cell is needed or the output can hold one. -/
theorem checkNodataSupport_eq_ok_iff (output : Raster) (needed : Bool) :
    checkNodataSupport output needed = .ok () ↔
      (needed = true → output.canRepresentNodata = true) := by
  unfold checkNodataSupport
  cases needed <;> cases output.canRepresentNodata <;> simp

/-- Writes the cells `0, …, n - 1` of `output` with `cell`. -/
def writeCells (output : Raster) (n : Nat) (cell : Nat → Outcome (Option Pixel)) :
    Outcome Raster :=
  (List.range n).foldlM (fun out i => do out.setValue i (← cell i)) output

/-- The output with each cell set to the input cell mapped by `op`, missing where the input's
is. -/
def transform (input output : Raster) (op : Pixel → Pixel) : Outcome Raster := do
  Outcome.ofExcept (checkSizesMatch input output)
  Outcome.ofExcept (checkNodataSupport output input.hasNodata)
  writeCells output input.len fun i => do pure ((← input.value i).map op)

/-- The output with each cell set to `op` of the cells of both inputs, missing where either
input's is. -/
def transformBinary (input₁ input₂ output : Raster) (op : Pixel → Pixel → Pixel) :
    Outcome Raster := do
  Outcome.ofExcept (checkSizesMatch input₁ input₂)
  Outcome.ofExcept (checkSizesMatch input₁ output)
  Outcome.ofExcept (checkNodataSupport output (input₁.hasNodata || input₂.hasNodata))
  writeCells output input₁.len fun i => do
    match (← input₁.value i), (← input₂.value i) with
    | some x, some y => pure (some (op x y))
    | _, _ => pure none

/-- Whether a cell changes from `old` to `new`: two values that are not equal (a NaN always
changes), or a change between missing and present. -/
def changes : Option Pixel → Option Pixel → Bool
  | some c, some v => !c.eq v
  | none, none => false
  | _, _ => true

/-- The raster with each cell recomputed by `op` from its own cell and the cell of `other`;
the cells that change are written after all are computed. -/
def update (r other : Raster) (op : Option Pixel → Option Pixel → Option Pixel) :
    Outcome Raster := do
  Outcome.ofExcept (checkSizesMatch r other)
  let updates ← (List.range r.len).filterMapM fun i => do
    let current ← r.value i
    let next := op current (← other.value i)
    pure (if changes current next then some (i, next) else none)
  Outcome.ofExcept (checkNodataSupport r (updates.any fun u => u.2.isNone))
  updates.foldlM (fun out u => out.setValue u.1 u.2) r

end Raster

end Georaster
