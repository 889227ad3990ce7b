import Georaster.Error
/-!
# Row-major buffers

The dense and masked rasters keep one value per cell in an array. Reading or writing past its
end aborts with the index and the length; resizing cuts the array or pads it with a fill value.
-/

namespace Georaster

namespace Buffer

variable {α : Type}

/-- The element at `i`, aborting past the end. -/
def get (a : Array α) (i : Nat) : Outcome α :=
  match a[i]? with
  | some v => .ok v
  | none => .error (.abort (outOfBounds a.size i))

/-- The array with `v` at `i`, aborting past the end. -/
def set (a : Array α) (i : Nat) (v : α) : Outcome (Array α) :=
  if i < a.size then .ok (a.setIfInBounds i v) else .error (.abort (outOfBounds a.size i))

/-- The first `n` elements, padded with `fill` up to `n`. -/
def resize (a : Array α) (n : Nat) (fill : α) : Array α :=
  if n ≤ a.size then a.extract 0 n else a ++ Array.replicate (n - a.size) fill

@[simp] theorem size_resize (a : Array α) (n : Nat) (fill : α) : (resize a n fill).size = n := by
  unfold resize
  split <;> simp <;> omega

/-- The element at `i` of a list, aborting past the end. -/
def nth (l : List α) (i : Nat) : Outcome α :=
  match l[i]? with
  | some v => .ok v
  | none => .error (.abort (outOfBounds l.length i))

/-- The elements from `start` up to `stop`, aborting when the bounds are reversed or `stop` is
past the end. -/
def slice (l : List α) (start stop : Nat) : Outcome (List α) :=
  if stop < start then .error (.abort s!"slice index starts at {start} but ends at {stop}")
  else if l.length < stop then
    .error (.abort s!"range end index {stop} out of range for slice of length {l.length}")
  else .ok (l.extract start stop)

end Buffer

end Georaster
