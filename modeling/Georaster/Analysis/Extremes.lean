import Georaster.Raster.Basic
/-!
# Least and greatest values

All comparisons here are the strict order `<` of pixel values, under which NaN is neither less
nor greater than anything, and the zeros of both signs are equal; which of several equal values
is reported is part of the rule:

* `Raster.minimum` keeps the first value that no later value is less than, `Raster.maximum`
  the first that no later value is greater than.
* `minmaxBy` finds both at once, taking the elements two at a time: the smaller of each pair
  is compared with the least so far, the greater with the greatest so far. A least element
  is replaced only by a strictly less one, a greatest element by any one not less than it; so
  of equal elements the first is the least and the last is the greatest.
* `Raster.minimumOf` and `Raster.maximumOf` combine several rasters of one size cell by cell:
  a cell is missing where any raster's cell is, and a later value replaces the one so far
  only when it is strictly less (greater).

Each of them fails when there is no value to choose from.
-/

namespace Georaster

/-- The least and greatest elements of a non-empty tail scan: `acc` holds the least and the
greatest so far, and the remaining elements are taken two at a time. -/
def minmaxStep {α : Type} (lt : α → α → Bool) (acc : α × α) : List α → α × α
  | [] => acc
  | [x] =>
    if lt x acc.1 then (x, acc.2)
    else if !lt x acc.2 then (acc.1, x)
    else acc
  | x :: y :: rest =>
    let acc :=
      if !lt y x then
        (if lt x acc.1 then x else acc.1, if !lt y acc.2 then y else acc.2)
      else
        (if lt y acc.1 then y else acc.1, if !lt x acc.2 then x else acc.2)
    minmaxStep lt acc rest

/-- The first least and the last greatest element under the strict order `lt`, comparing the
elements in pairs; none for an empty list. -/
def minmaxBy {α : Type} (lt : α → α → Bool) : List α → Option (α × α)
  | [] => none
  | [x] => some (x, x)
  | x :: y :: rest => some (minmaxStep lt (if !lt y x then (x, y) else (y, x)) rest)

/-- A least and a greatest element exist exactly for a non-empty list. -/
theorem minmaxBy_eq_none_iff {α : Type} (lt : α → α → Bool) (xs : List α) :
    minmaxBy lt xs = none ↔ xs = [] := by
  match xs with
  | [] => simp [minmaxBy]
  | [_] => simp [minmaxBy]
  | _ :: _ :: _ => simp [minmaxBy]

namespace Raster

/-- The error of an analysis that needs a data cell. -/
def noDataError : RasterError := .invalidArgument "No data in raster"

/-- The first least data value. -/
def minimum (r : Raster) : Except RasterError Pixel :=
  match r.dataValues with
  | [] => .error noDataError
  | v :: vs => .ok (vs.foldl (fun m x => if x.lt m then x else m) v)

/-- The least value is refused exactly for a raster without data cells. -/
theorem minimum_eq_error_iff (r : Raster) (e : RasterError) :
    r.minimum = .error e ↔ r.dataValues = [] ∧ noDataError = e := by
  unfold minimum
  cases r.dataValues <;> simp

/-- The first greatest data value. -/
def maximum (r : Raster) : Except RasterError Pixel :=
  match r.dataValues with
  | [] => .error noDataError
  | v :: vs => .ok (vs.foldl (fun m x => if m.lt x then x else m) v)

/-- The first least and the last greatest data value. -/
def minmax (r : Raster) : Except RasterError (Pixel × Pixel) :=
  match minmaxBy Pixel.lt r.dataValues with
  | some p => .ok p
  | none => .error noDataError

/-- The data cells with their values, in row-major order. -/
def dataCells (r : Raster) : List (Cell × Pixel) :=
  (r.size.cells.zip r.toOptions).filterMap fun
    | (c, some v) => some (c, v)
    | (_, none) => none

/-- The cells of the first least and the last greatest data value. -/
def minmaxCell (r : Raster) : Except RasterError (Cell × Cell) :=
  match minmaxBy (fun (a b : Cell × Pixel) => a.2.lt b.2) r.dataCells with
  | some (lo, hi) => .ok (lo.1, hi.1)
  | none => .error noDataError

/-- The raster of the first raster's storage and metadata whose cells select, from the cells of
all rasters, with `select` from left to right; a cell is missing where any raster's is. At least
two rasters of one size are needed. -/
def cellwise (select : Pixel → Pixel → Pixel) : List Raster → Except RasterError Raster
  | [] => .error (.invalidArgument "No rasters provided")
  | [_] => .error (.invalidArgument "At least two rasters need to be provided")
  | first :: rest =>
    if rest.any fun r => r.size ≠ first.size then
      .error (.invalidArgument "Not all provided rasters have the same size")
    else
      let columns := (first :: rest).map fun r => r.toOptions.toArray
      first.backend.ofCells first.type first.metadata fun i =>
        let pick := fun (acc : Option Pixel) (col : Array (Option Pixel)) =>
          (col.getD i none).map fun v => some ((acc.map (select · v)).getD v)
        (columns.foldlM pick none).join

/-- The cellwise least of several rasters; of equal values the first is kept. -/
def minimumOf (rasters : List Raster) : Except RasterError Raster :=
  cellwise (fun a b => if b.lt a then b else a) rasters

/-- The cellwise greatest of several rasters; of equal values the first is kept. -/
def maximumOf (rasters : List Raster) : Except RasterError Raster :=
  cellwise (fun a b => if a.lt b then b else a) rasters

end Raster

end Georaster
