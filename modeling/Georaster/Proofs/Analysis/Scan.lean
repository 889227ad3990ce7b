import Georaster.Analysis.Extremes
import Mathlib
/-!
# First least and last greatest elements of a scan

The extremes of a raster are found by scans under a strict order `lt`: `Raster.minimum` keeps
the least value so far and gives way only to a strictly smaller one, and `minmaxBy` takes the
elements two at a time, comparing the smaller of a pair with the least so far and the greater
with the greatest so far. When `lt` is the order of a key into a linear order, on the elements
scanned, these scans find the first element of least key (`IsFirstLeast`) and the last element
of greatest key (`IsLastGreatest`); equal keys are where the choice of element shows.

Both follow from what one more element does (`IsFirstLeast.snoc`, `IsLastGreatest.snoc`): a
least element gives way to a strictly smaller one, a greatest element to any one not smaller.
A pair taken by `minmaxStep` does what its two elements taken one after the other do
(`keep_pair_eq`), so the pairwise scan is the element-wise one (`minmaxStep_spec`).
-/

namespace Georaster

section Scan

variable {α β γ : Type} [LinearOrder β] (key : α → β)

/-- `x` is the first element of `xs` of least key: no key is below its key, and every element
before it has a greater key. -/
def IsFirstLeast (xs : List α) (x : α) : Prop :=
  ∃ pre post, xs = pre ++ x :: post ∧ (∀ y ∈ xs, key x ≤ key y) ∧ ∀ y ∈ pre, key x < key y

/-- `x` is the last element of `xs` of greatest key: no key is above its key, and every element
after it has a smaller key. -/
def IsLastGreatest (xs : List α) (x : α) : Prop :=
  ∃ pre post, xs = pre ++ x :: post ∧ (∀ y ∈ xs, key y ≤ key x) ∧ ∀ y ∈ post, key y < key x

/-- The least element so far after one more element: it gives way only to a smaller one. -/
def keepLeast (m x : α) : α := if key x < key m then x else m

/-- The greatest element so far after one more element: it gives way to any one not smaller. -/
def keepGreatest (m x : α) : α := if key x < key m then m else x

variable {key}

theorem isFirstLeast_singleton (x : α) : IsFirstLeast key [x] x :=
  ⟨[], [], rfl, by simp, by simp⟩

theorem isLastGreatest_singleton (x : α) : IsLastGreatest key [x] x :=
  ⟨[], [], rfl, by simp, by simp⟩

theorem IsFirstLeast.mem {xs : List α} {x : α} (h : IsFirstLeast key xs x) : x ∈ xs := by
  obtain ⟨pre, post, rfl, -, -⟩ := h
  simp

theorem IsLastGreatest.mem {xs : List α} {x : α} (h : IsLastGreatest key xs x) : x ∈ xs := by
  obtain ⟨pre, post, rfl, -, -⟩ := h
  simp

/-- The least key of a list is at most its greatest. -/
theorem IsFirstLeast.key_le {xs : List α} {lo hi : α} (hlo : IsFirstLeast key xs lo)
    (hhi : IsLastGreatest key xs hi) : key lo ≤ key hi := by
  obtain ⟨-, -, -, hle, -⟩ := hhi
  exact hle lo hlo.mem

theorem IsFirstLeast.snoc {xs : List α} {m : α} (h : IsFirstLeast key xs m) (x : α) :
    IsFirstLeast key (xs ++ [x]) (keepLeast key m x) := by
  obtain ⟨pre, post, rfl, hle, hlt⟩ := h
  unfold keepLeast
  split_ifs with hx
  · -- a strictly smaller element comes after all the others and is below all of them
    refine ⟨pre ++ m :: post, [], rfl, fun y hy => ?_, fun y hy => lt_of_lt_of_le hx (hle y hy)⟩
    rcases List.mem_append.mp hy with hy | hy
    · exact (lt_of_lt_of_le hx (hle y hy)).le
    · rw [List.mem_singleton.mp hy]
  · refine ⟨pre, post ++ [x], by simp, fun y hy => ?_, hlt⟩
    rcases List.mem_append.mp hy with hy | hy
    · exact hle y hy
    · rw [List.mem_singleton.mp hy]
      exact not_lt.mp hx

theorem IsLastGreatest.snoc {xs : List α} {m : α} (h : IsLastGreatest key xs m) (x : α) :
    IsLastGreatest key (xs ++ [x]) (keepGreatest key m x) := by
  obtain ⟨pre, post, rfl, hle, hlt⟩ := h
  unfold keepGreatest
  split_ifs with hx
  · -- a smaller element joins the elements after the greatest
    refine ⟨pre, post ++ [x], by simp, fun y hy => ?_, fun y hy => ?_⟩
    · rcases List.mem_append.mp hy with hy | hy
      · exact hle y hy
      · rw [List.mem_singleton.mp hy]
        exact hx.le
    · rcases List.mem_append.mp hy with hy | hy
      · exact hlt y hy
      · rw [List.mem_singleton.mp hy]
        exact hx
  · -- an element not smaller is the last greatest
    refine ⟨pre ++ m :: post, [], rfl, fun y hy => ?_, by simp⟩
    rcases List.mem_append.mp hy with hy | hy
    · exact (hle y hy).trans (not_lt.mp hx)
    · rw [List.mem_singleton.mp hy]

/-- The first least and the last greatest elements of a list that is mapped into another are the
images of those of the list. -/
theorem IsFirstLeast.of_map {f : γ → α} {l : List γ} {x : α} (h : IsFirstLeast key (l.map f) x) :
    ∃ y, IsFirstLeast (key ∘ f) l y ∧ f y = x := by
  obtain ⟨pre, post, he, hle, hlt⟩ := h
  obtain ⟨l₁, l₂, rfl, rfl, h₂⟩ := List.map_eq_append_iff.mp he
  obtain ⟨y, l₃, rfl, rfl, rfl⟩ := List.map_eq_cons_iff.mp h₂
  refine ⟨y, ⟨l₁, l₃, rfl, fun z hz => hle (f z) (List.mem_map_of_mem hz),
    fun z hz => hlt (f z) (List.mem_map_of_mem hz)⟩, rfl⟩

theorem IsLastGreatest.of_map {f : γ → α} {l : List γ} {x : α}
    (h : IsLastGreatest key (l.map f) x) : ∃ y, IsLastGreatest (key ∘ f) l y ∧ f y = x := by
  obtain ⟨pre, post, he, hle, hlt⟩ := h
  obtain ⟨l₁, l₂, rfl, rfl, h₂⟩ := List.map_eq_append_iff.mp he
  obtain ⟨y, l₃, rfl, rfl, rfl⟩ := List.map_eq_cons_iff.mp h₂
  refine ⟨y, ⟨l₁, l₃, rfl, fun z hz => hle (f z) (List.mem_map_of_mem hz),
    fun z hz => hlt (f z) (List.mem_map_of_mem hz)⟩, rfl⟩

/-! ### The steps of the pairwise scan -/

/-- The first two elements start the scan as the element-wise scan of the first one would go on
with the second. -/
theorem keep_start_eq (x y : α) :
    (if ¬key y < key x then (x, y) else (y, x)) = (keepLeast key x y, keepGreatest key x y) := by
  unfold keepLeast keepGreatest
  split_ifs <;> rfl

/-- A last single element goes to the least or the greatest as the element-wise scan sends it;
one smaller than the least is not greater than the greatest. -/
theorem keep_last_eq {lo hi : α} (hle : key lo ≤ key hi) (x : α) :
    (if key x < key lo then (x, hi) else if ¬key x < key hi then (lo, x) else (lo, hi)) =
      (keepLeast key lo x, keepGreatest key hi x) := by
  unfold keepLeast keepGreatest
  split_ifs <;> first | rfl | (exfalso; order)

/-- A pair compared first with each other, the smaller with the least and the greater with the
greatest, does what its two elements taken one after the other do. -/
theorem keep_pair_eq {lo hi : α} (hle : key lo ≤ key hi) (x y : α) :
    (if ¬key y < key x then
        (if key x < key lo then x else lo, if ¬key y < key hi then y else hi)
      else (if key y < key lo then y else lo, if ¬key x < key hi then x else hi)) =
      (keepLeast key (keepLeast key lo x) y, keepGreatest key (keepGreatest key hi x) y) := by
  unfold keepLeast keepGreatest
  split_ifs <;> first | rfl | (exfalso; order)

/-! ### Scans under an order given by a key -/

variable {lt : α → α → Bool} {P : α → Prop}

/-- Where `lt` is the order of the keys, it is the test of the keys. -/
theorem lt_eq_decide (hlt : ∀ a b, P a → P b → (lt a b = true ↔ key a < key b)) {a b : α}
    (ha : P a) (hb : P b) : lt a b = decide (key a < key b) :=
  Bool.eq_iff_iff.mpr ((hlt a b ha hb).trans decide_eq_true_iff.symm)

/-- The scan that gives way only to a strictly smaller element keeps the first least element. -/
theorem isFirstLeast_foldl (hlt : ∀ a b, P a → P b → (lt a b = true ↔ key a < key b)) :
    ∀ (xs ys : List α) (m : α), IsFirstLeast key xs m → (∀ y ∈ xs ++ ys, P y) →
      IsFirstLeast key (xs ++ ys) (ys.foldl (fun m x => if lt x m then x else m) m)
  | xs, [], m, h, _ => by simpa using h
  | xs, y :: ys, m, h, hP => by
    have hy : P y := hP y (by simp)
    have hm : P m := hP m (List.mem_append_left _ h.mem)
    have hstep : (if lt y m then y else m) = keepLeast key m y := by
      rw [lt_eq_decide hlt hy hm]
      simp [keepLeast]
    have ih := isFirstLeast_foldl hlt (xs ++ [y]) ys (keepLeast key m y) (h.snoc y)
      (by simpa using hP)
    simpa [hstep] using ih

/-- The pairwise scan keeps the first least and the last greatest element. -/
theorem minmaxStep_spec (hlt : ∀ a b, P a → P b → (lt a b = true ↔ key a < key b)) :
    ∀ (acc : α × α) (xs rest : List α), IsFirstLeast key xs acc.1 → IsLastGreatest key xs acc.2 →
      (∀ y ∈ xs ++ rest, P y) →
      IsFirstLeast key (xs ++ rest) (minmaxStep lt acc rest).1 ∧
        IsLastGreatest key (xs ++ rest) (minmaxStep lt acc rest).2
  | acc, xs, [], hlo, hhi, _ => by simpa [minmaxStep] using ⟨hlo, hhi⟩
  | (lo, hi), xs, [x], hlo, hhi, hP => by
    have hx : P x := hP x (by simp)
    have hl : P lo := hP lo (List.mem_append_left _ hlo.mem)
    have hh : P hi := hP hi (List.mem_append_left _ hhi.mem)
    have hstep : minmaxStep lt (lo, hi) [x] = (keepLeast key lo x, keepGreatest key hi x) := by
      simp only [minmaxStep, lt_eq_decide hlt hx hl, lt_eq_decide hlt hx hh, decide_eq_true_eq,
        Bool.not_eq_true', decide_eq_false_iff_not]
      exact keep_last_eq (hlo.key_le hhi) x
    rw [hstep]
    exact ⟨hlo.snoc x, hhi.snoc x⟩
  | (lo, hi), xs, x :: y :: rest, hlo, hhi, hP => by
    have hx : P x := hP x (by simp)
    have hy : P y := hP y (by simp)
    have hl : P lo := hP lo (List.mem_append_left _ hlo.mem)
    have hh : P hi := hP hi (List.mem_append_left _ hhi.mem)
    -- the pair does what its two elements do one after the other
    have hstep : minmaxStep lt (lo, hi) (x :: y :: rest) =
        minmaxStep lt (keepLeast key (keepLeast key lo x) y,
          keepGreatest key (keepGreatest key hi x) y) rest := by
      rw [minmaxStep]
      simp only [lt_eq_decide hlt hy hx, lt_eq_decide hlt hx hl, lt_eq_decide hlt hy hh,
        lt_eq_decide hlt hy hl, lt_eq_decide hlt hx hh, decide_eq_true_eq, Bool.not_eq_true',
        decide_eq_false_iff_not]
      rw [keep_pair_eq (hlo.key_le hhi) x y]
    have ih := minmaxStep_spec hlt
      (keepLeast key (keepLeast key lo x) y, keepGreatest key (keepGreatest key hi x) y)
      (xs ++ [x, y]) rest (by simpa using (hlo.snoc x).snoc y)
      (by simpa using (hhi.snoc x).snoc y) (by simpa using hP)
    rw [hstep]
    simpa using ih

/-- A non-empty list has a least and a greatest element under the pairwise scan: its first least
and its last greatest. -/
theorem minmaxBy_spec (hlt : ∀ a b, P a → P b → (lt a b = true ↔ key a < key b)) {xs : List α}
    (hP : ∀ y ∈ xs, P y) (hne : xs ≠ []) :
    ∃ lo hi, minmaxBy lt xs = some (lo, hi) ∧ IsFirstLeast key xs lo ∧ IsLastGreatest key xs hi := by
  match xs, hP, hne with
  | [x], _, _ => exact ⟨x, x, rfl, isFirstLeast_singleton x, isLastGreatest_singleton x⟩
  | x :: y :: rest, hP, _ =>
    have hx : P x := hP x (by simp)
    have hy : P y := hP y (by simp)
    have hstart : (if (!lt y x) = true then (x, y) else (y, x)) =
        (keepLeast key x y, keepGreatest key x y) := by
      simp only [lt_eq_decide hlt hy hx, Bool.not_eq_true', decide_eq_false_iff_not]
      exact keep_start_eq x y
    obtain ⟨hlo, hhi⟩ := minmaxStep_spec hlt (keepLeast key x y, keepGreatest key x y) [x, y] rest
      ((isFirstLeast_singleton x).snoc y) ((isLastGreatest_singleton x).snoc y) (by simpa using hP)
    refine ⟨_, _, ?_, by simpa using hlo, by simpa using hhi⟩
    simp only [minmaxBy, hstart]

end Scan

end Georaster
