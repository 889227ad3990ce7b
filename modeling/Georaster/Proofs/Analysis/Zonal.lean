import Georaster.Analysis.Statistics
import Georaster.Proofs.Outcome
/-!
# Zone totals

`Raster.zonalSums` adds the values of one raster per zone value of another, over the cells where
both hold data, and `Raster.zonalSumsOf` does so for listed zones only. Both keep their totals in a
list of zones and totals, each zone once and by increasing zone (`ZoneTotal.Sorted`), and look a
zone up with `List.lookup`.

* Adding a value to a zone changes the total of that zone alone, by `ZoneTotal.addOpt`: a total
  grows by the value, and a zone without a total gets one, from positive zero, only when totals
  are opened (`ZoneTotal.lookup_addTo`). Hence, over a list of pairs, the total of zone `k` is the
  running `addOpt` of the values of that zone, in order (`ZoneTotal.lookup_addPairs`).
* Opened from nothing, a zone has a total exactly when it has a value, and the total is the sum
  of its values from positive zero; started from zero totals of the listed zones and not opened,
  a listed zone has that same sum, positive zero when it has no value, and other zones have none
  (`ZoneTotal.foldl_addOpt_none_true`, `ZoneTotal.lookup_zeros`).

`Raster.zonalSums_spec` reads this off the cells of the two rasters: a zone has a total exactly
when some cell holds data in both with that zone value, the total is the sum of the values in
those cells in row-major order from positive zero, the totals of listed zones agree with it bit
for bit, and both computations refuse rasters of different sizes, and only those.
-/

namespace Georaster

namespace ZoneTotal

/-- The zones of a list of totals strictly increase, so each zone has at most one total. -/
def Sorted (totals : List ZoneTotal) : Prop := (totals.map Prod.fst).Pairwise (· < ·)

/-- The total of a zone after a value is added to it: a total grows by the value, and a zone
without a total gets one, from positive zero, only when `create` holds. -/
def addOpt (create : Bool) : Option Binary64 → Binary64 → Option Binary64
  | some s, x => some (s + x)
  | none, x => if create then some (BinaryFloat.zero false + x) else none

variable {totals : List ZoneTotal} {zone k : Int} {x : Binary64} {create : Bool}

theorem sorted_nil : Sorted [] := List.Pairwise.nil

theorem lookup_cons_self {s : Binary64} : ((k, s) :: totals).lookup k = some s := by
  simp

theorem lookup_cons_of_ne {j : Int} {s : Binary64} (h : k ≠ j) :
    ((j, s) :: totals).lookup k = totals.lookup k := by
  rw [List.lookup_cons, beq_false_of_ne h]

/-- A zone below every zone of the list has no total. -/
theorem lookup_eq_none_of_lt (h : ∀ j ∈ totals.map Prod.fst, k < j) :
    totals.lookup k = none := by
  induction totals with
  | nil => rfl
  | cons t rest ih =>
    obtain ⟨j, s⟩ := t
    have hj : k < j := h j List.mem_cons_self
    rw [lookup_cons_of_ne (Int.ne_of_lt hj)]
    exact ih fun i hi => h i (List.mem_cons_of_mem _ hi)

/-- Adding to a zone keeps the other zones and may add that one. -/
theorem mem_addTo {j : Int} (h : j ∈ (addTo zone x create totals).map Prod.fst) :
    j = zone ∨ j ∈ totals.map Prod.fst := by
  induction totals with
  | nil =>
    cases create <;> simp_all [addTo]
  | cons t rest ih =>
    obtain ⟨i, s⟩ := t
    unfold addTo at h
    by_cases hlt : zone < i
    · cases create <;> simp_all
    · by_cases heq : zone = i
      · simp_all
      · simp only [hlt, heq, if_false, List.map_cons, List.mem_cons] at h
        rcases h with rfl | h
        · exact .inr List.mem_cons_self
        · rcases ih h with h | h
          · exact .inl h
          · exact .inr (List.mem_cons_of_mem _ h)

/-- Adding to a zone keeps the zones sorted. -/
theorem Sorted.addTo (h : Sorted totals) : Sorted (ZoneTotal.addTo zone x create totals) := by
  induction totals with
  | nil => cases create <;> simp [ZoneTotal.addTo, Sorted]
  | cons t rest ih =>
    obtain ⟨i, s⟩ := t
    have hrest : Sorted rest := (List.pairwise_cons.mp h).2
    have hi : ∀ j ∈ rest.map Prod.fst, i < j := (List.pairwise_cons.mp h).1
    unfold ZoneTotal.addTo
    by_cases hlt : zone < i
    · -- a new first zone, below every other
      cases create
      · simpa [hlt] using h
      · simp only [hlt, if_true, Sorted, List.map_cons, List.pairwise_cons, List.mem_cons]
        refine ⟨fun j hj => ?_, hi, hrest⟩
        rcases hj with rfl | hj
        · exact hlt
        · exact Int.lt_trans hlt (hi j hj)
    · by_cases heq : zone = i
      · simpa [heq, Sorted] using h
      · -- the zone lies further on: the first total stays first
        simp only [hlt, heq, if_false, Sorted, List.map_cons, List.pairwise_cons]
        refine ⟨fun j hj => ?_, ih hrest⟩
        rcases mem_addTo hj with rfl | hj
        · omega
        · exact hi j hj

/-- Adding a value to a zone changes the total of that zone alone, as `addOpt` says. -/
theorem lookup_addTo (h : Sorted totals) :
    (addTo zone x create totals).lookup k =
      if k = zone then addOpt create (totals.lookup k) x else totals.lookup k := by
  induction totals with
  | nil =>
    by_cases hk : k = zone
    · cases create <;> simp [addTo, addOpt, hk]
    · cases create <;> simp [addTo, hk, lookup_cons_of_ne]
  | cons t rest ih =>
    obtain ⟨i, s⟩ := t
    have hrest : Sorted rest := (List.pairwise_cons.mp h).2
    have hi : ∀ j ∈ rest.map Prod.fst, i < j := (List.pairwise_cons.mp h).1
    unfold addTo
    by_cases hlt : zone < i
    · -- the zone has no total yet: it is opened in front, or left without one
      have hnone : ((i, s) :: rest).lookup zone = none :=
        lookup_eq_none_of_lt fun j hj => by
          rcases List.mem_cons.mp hj with rfl | hj
          · exact hlt
          · exact Int.lt_trans hlt (hi j hj)
      by_cases hk : k = zone
      · subst hk
        cases create <;> simp [hlt, addOpt, hnone]
      · cases create <;> simp [hlt, hk, lookup_cons_of_ne]
    · by_cases heq : zone = i
      · -- the zone's total grows by the value
        subst heq
        by_cases hk : k = zone
        · simp [hk, addOpt]
        · simp [hk, lookup_cons_of_ne]
      · simp only [hlt, heq, if_false]
        by_cases hki : k = i
        · subst hki
          have hk : k ≠ zone := fun hk => heq hk.symm
          rw [lookup_cons_self, if_neg hk, lookup_cons_self]
        · rw [lookup_cons_of_ne hki, ih hrest, lookup_cons_of_ne hki]

/-- The values of the pairs whose zone is `k`, as doubles, in order. -/
def valuesOf (k : Int) (pairs : List (Pixel × Pixel)) : List Binary64 :=
  pairs.filterMap fun (v, z) => if z.zone = some k then some v.toDouble else none

/-- Over a list of pairs, the total of zone `k` is the running `addOpt` of that zone's values from
its total at the start, and the zones stay sorted. -/
theorem lookup_addPairs :
    ∀ (pairs : List (Pixel × Pixel)) {totals : List ZoneTotal}, Sorted totals →
      Sorted (Raster.addPairs create totals pairs) ∧
        (Raster.addPairs create totals pairs).lookup k =
          (valuesOf k pairs).foldl (addOpt create) (totals.lookup k)
  | [], totals, h => ⟨h, rfl⟩
  | (v, z) :: pairs, totals, h => by
    have hvals : valuesOf k ((v, z) :: pairs) =
        if z.zone = some k then v.toDouble :: valuesOf k pairs else valuesOf k pairs := by
      by_cases hz : z.zone = some k <;> simp [valuesOf, hz]
    simp only [Raster.addPairs, List.foldl_cons] at *
    cases hz : z.zone with
    | none =>
      -- a value outside every zone is skipped
      have := lookup_addPairs pairs h
      simp only [Raster.addPairs] at this
      rw [hvals, hz, if_neg (by simp)]
      exact this
    | some j =>
      -- the pair's zone takes its value; the rest is the run from the totals after it
      have := lookup_addPairs pairs (@Sorted.addTo _ j v.toDouble create h)
      simp only [Raster.addPairs] at this
      refine ⟨this.1, ?_⟩
      rw [this.2, hvals, hz, lookup_addTo h]
      by_cases hk : k = j
      · subst hk
        rw [if_pos rfl, if_pos rfl]
        rfl
      · rw [if_neg hk, if_neg (by simpa [eq_comm] using hk)]

/-- From a total, adding values keeps a total: the running sum. -/
theorem foldl_addOpt_some (create : Bool) :
    ∀ (xs : List Binary64) (s : Binary64),
      xs.foldl (addOpt create) (some s) = some (xs.foldl (· + ·) s)
  | [], _ => rfl
  | x :: xs, s => foldl_addOpt_some create xs (s + x)

/-- Without opening totals, a zone without a total never gets one. -/
theorem foldl_addOpt_none_false : ∀ xs : List Binary64, xs.foldl (addOpt false) none = none
  | [] => rfl
  | _ :: xs => foldl_addOpt_none_false xs

/-- Opening totals, a zone gets a total exactly when it has a value: the sum of its values from
positive zero. -/
theorem foldl_addOpt_none_true (xs : List Binary64) :
    xs.foldl (addOpt true) none =
      if xs = [] then none else some (xs.foldl (· + ·) (BinaryFloat.zero false)) := by
  cases xs with
  | nil => rfl
  | cons x xs =>
    rw [List.foldl_cons, if_neg (List.cons_ne_nil x xs), List.foldl_cons]
    exact foldl_addOpt_some true xs _

/-- Removing the repeats of a sorted list of zones leaves them strictly increasing. -/
theorem pairwise_lt_eraseDups :
    ∀ {l : List Int}, l.Pairwise (· ≤ ·) → l.eraseDups.Pairwise (· < ·)
  | [], _ => by simp
  | a :: as, h => by
    rw [List.eraseDups_cons]
    have hf : (as.filter fun b => !b == a).Pairwise (· ≤ ·) :=
      (List.pairwise_cons.mp h).2.sublist List.filter_sublist
    refine List.Pairwise.cons (fun b hb => ?_) (pairwise_lt_eraseDups hf)
    rw [List.mem_eraseDups, List.mem_filter] at hb
    have hab : a ≤ b := (List.pairwise_cons.mp h).1 b hb.1
    have hne : b ≠ a := by simpa using hb.2
    omega
termination_by l => l.length
decreasing_by
  have := List.length_filter_le (fun b => !b == a) as
  simp only [List.length_cons]
  omega

/-- The zero totals of the listed zones: each listed zone once, by increasing zone, at positive
zero, and no other zone. -/
theorem lookup_zeros (ks : List Int) :
    Sorted (zeros ks) ∧
      ∀ k, (zeros ks).lookup k = if k ∈ ks then some (BinaryFloat.zero false) else none := by
  have hsorted : ((ks.mergeSort fun a b => decide (a ≤ b)).eraseDups).Pairwise (· < ·) := by
    refine pairwise_lt_eraseDups ((List.pairwise_mergeSort (fun a b c hab hbc => ?_)
      (fun a b => ?_) ks).imp fun h => of_decide_eq_true h)
    · exact decide_eq_true (Int.le_trans (of_decide_eq_true hab) (of_decide_eq_true hbc))
    · rcases Int.le_total a b with h | h <;> simp [h]
  have hlookup : ∀ (l : List Int) (k : Int),
      (l.map fun z => (z, (BinaryFloat.zero false : Binary64))).lookup k =
        if k ∈ l then some (BinaryFloat.zero false) else none := by
    intro l k
    induction l with
    | nil => rfl
    | cons z l ih =>
      by_cases hk : k = z
      · simp [hk]
      · simp [hk, lookup_cons_of_ne hk, ih]
  refine ⟨?_, fun k => ?_⟩
  · simpa [Sorted, zeros, List.map_map, Function.comp_def] using hsorted
  · rw [zeros, hlookup]
    simp only [List.mem_eraseDups, List.mem_mergeSort]

end ZoneTotal

/-- A value is in zone `k` exactly when it is the integer `k`. -/
theorem Pixel.zone_eq_some_iff {z : Pixel} {k : Int} : z.zone = some k ↔ z = .int k := by
  cases z <;> simp [Pixel.zone]

namespace Raster

/-- The values of `values`, as doubles, at the cells where both rasters hold data and `zones` holds
zone `k`, in row-major order. -/
def zoneValues (values zones : Raster) (k : Int) : List Binary64 :=
  (values.toOptions.zip zones.toOptions).filterMap fun
    | (some v, some z) => if z.zone = some k then some v.toDouble else none
    | _ => none

/-- The total of zone `k`: the values of its cells added in row-major order from positive zero. -/
def zoneSum (values zones : Raster) (k : Int) : Binary64 :=
  (zoneValues values zones k).foldl (· + ·) (BinaryFloat.zero false)

/-- `totals` are the zone totals of `values` over `zones`: each zone once, by increasing zone; a
zone has a total exactly when some cell holds data in both rasters with that zone value; and the
total is the zone's sum. -/
structure ZonalTotals (values zones : Raster) (totals : List ZoneTotal) : Prop where
  sorted : ZoneTotal.Sorted totals
  isSome_lookup : ∀ k, (totals.lookup k).isSome ↔
    ∃ (i : Nat) (v : Pixel),
      values.toOptions[i]? = some (some v) ∧ zones.toOptions[i]? = some (some (Pixel.int k))
  lookup_eq_some : ∀ k s, totals.lookup k = some s → s = zoneSum values zones k

/-- `listedTotals` are the totals of the listed zones: each listed zone once, by increasing zone,
with its total in `totals` or else positive zero, and no other zone. -/
structure ListedTotals (listed : List Int) (totals listedTotals : List ZoneTotal) : Prop where
  sorted : ZoneTotal.Sorted listedTotals
  lookup_eq : ∀ k, listedTotals.lookup k =
    if k ∈ listed then some ((totals.lookup k).getD (BinaryFloat.zero false)) else none

variable {values zones : Raster}

/-- The values of each zone among the pairs of data values are the zone's values in the grid. -/
theorem valuesOf_dataValuePairs (h : values.size = zones.size) :
    ∃ pairs, values.dataValuePairs zones = .ok pairs ∧
      ∀ k, ZoneTotal.valuesOf k pairs = zoneValues values zones k := by
  simp only [dataValuePairs, checkSizesMatch, if_pos h]
  refine ⟨_, rfl, fun k => ?_⟩
  rw [ZoneTotal.valuesOf, zoneValues, List.filterMap_filterMap]
  refine List.filterMap_congr fun p _ => ?_
  obtain ⟨a, b⟩ := p
  cases a <;> cases b <;> rfl

/-- A zone has values exactly when some cell holds data in both rasters with that zone value. -/
theorem zoneValues_ne_nil_iff (k : Int) :
    zoneValues values zones k ≠ [] ↔
      ∃ (i : Nat) (v : Pixel),
        values.toOptions[i]? = some (some v) ∧ zones.toOptions[i]? = some (some (Pixel.int k)) := by
  rw [Ne, zoneValues, List.filterMap_eq_nil_iff]
  constructor
  · intro h
    simp only [not_forall] at h
    obtain ⟨⟨a, b⟩, hmem, hne⟩ := h
    obtain ⟨i, hi⟩ := List.mem_iff_getElem?.mp hmem
    rw [List.getElem?_zip_eq_some] at hi
    cases a with
    | none => exact absurd rfl hne
    | some v =>
      cases b with
      | none => exact absurd rfl hne
      | some z =>
        by_cases hz : z.zone = some k
        · obtain rfl := Pixel.zone_eq_some_iff.mp hz
          exact ⟨i, v, hi.1, hi.2⟩
        · exact absurd (if_neg hz) hne
  · rintro ⟨i, v, hv, hz⟩ hall
    have hmem : (some v, some (Pixel.int k)) ∈ values.toOptions.zip zones.toOptions :=
      List.mem_iff_getElem?.mpr ⟨i, List.getElem?_zip_eq_some.mpr ⟨hv, hz⟩⟩
    have := hall _ hmem
    simp at this

/-- Rasters of one size have their zone totals, and the totals of any listed zones agree with
them. -/
theorem zonalTotals_of_size_eq (h : values.size = zones.size) (listed : List Int) :
    ∃ totals listedTotals, values.zonalSums zones = .ok totals ∧
      ZonalTotals values zones totals ∧ values.zonalSumsOf zones listed = .ok listedTotals ∧
      ListedTotals listed totals listedTotals := by
  obtain ⟨pairs, hpairs, hvals⟩ := valuesOf_dataValuePairs h
  have hcheck : values.checkDimensions zones = .ok () := if_pos h
  obtain ⟨hzsorted, hzlookup⟩ := ZoneTotal.lookup_zeros listed
  -- opened from nothing: a zone's total is the sum of its values, when it has any
  have hopen : ∀ k, (addPairs true [] pairs).lookup k =
      if zoneValues values zones k = [] then none else some (zoneSum values zones k) := fun k => by
    rw [(ZoneTotal.lookup_addPairs (k := k) pairs ZoneTotal.sorted_nil).2, hvals,
      List.lookup_nil, ZoneTotal.foldl_addOpt_none_true]
    rfl
  refine ⟨addPairs true [] pairs, addPairs false (ZoneTotal.zeros listed) pairs, ?_,
    ⟨?_, ?_, ?_⟩, ?_, ⟨?_, ?_⟩⟩
  · simp only [zonalSums, hcheck, hpairs, ok_bind]
    rfl
  · exact (ZoneTotal.lookup_addPairs (k := 0) pairs ZoneTotal.sorted_nil).1
  · intro k
    rw [hopen, ← zoneValues_ne_nil_iff]
    by_cases hk : zoneValues values zones k = [] <;> simp [hk]
  · intro k s hs
    rw [hopen] at hs
    by_cases hk : zoneValues values zones k = []
    · simp [hk] at hs
    · simpa [hk, eq_comm] using hs
  · simp only [zonalSumsOf, hcheck, hpairs, ok_bind]
    rfl
  · exact (ZoneTotal.lookup_addPairs (k := 0) pairs hzsorted).1
  · -- not opened: a listed zone keeps the sum of its values from positive zero
    intro k
    rw [(ZoneTotal.lookup_addPairs (k := k) pairs hzsorted).2, hzlookup, hopen, hvals]
    by_cases hl : k ∈ listed
    · rw [if_pos hl, if_pos hl, ZoneTotal.foldl_addOpt_some]
      by_cases hk : zoneValues values zones k = []
      · simp [hk]
      · simp [hk, zoneSum]
    · rw [if_neg hl, if_neg hl, ZoneTotal.foldl_addOpt_none_false]

/-- Zone totals refuse rasters of different sizes, naming both sizes, and only those. -/
theorem zonalSums_eq_error_iff (listed : List Int) (e : RasterError) :
    (values.zonalSums zones = .error e ↔ values.size ≠ zones.size ∧
      e = .sizeMismatch (values.metadata.rows.toNat, values.metadata.cols.toNat)
        (zones.metadata.rows.toNat, zones.metadata.cols.toNat)) ∧
    (values.zonalSumsOf zones listed = .error e ↔ values.size ≠ zones.size ∧
      e = .sizeMismatch (values.metadata.rows.toNat, values.metadata.cols.toNat)
        (zones.metadata.rows.toNat, zones.metadata.cols.toNat)) := by
  by_cases h : values.size = zones.size
  · obtain ⟨totals, listedTotals, hs, -, hl, -⟩ := zonalTotals_of_size_eq h listed
    simp [hs, hl, h]
  · have hcheck : values.checkDimensions zones = .error (.sizeMismatch
        (values.metadata.rows.toNat, values.metadata.cols.toNat)
        (zones.metadata.rows.toNat, zones.metadata.cols.toNat)) := if_neg h
    simp only [zonalSums, zonalSumsOf, hcheck, error_bind]
    simp [h, eq_comm]

/-- The zone totals of a raster over a zone raster of the same size: a zone has a total exactly
when some cell holds data in both with that zone value, and the total is the sum of the values in
those cells, as doubles, in row-major order from positive zero. The totals of listed zones are
exactly the distinct listed zones, each with its zone total bit for bit, or positive zero where it
has none. Both refuse rasters of different sizes, with their sizes, and only those. -/
theorem zonalSums_spec (values zones : Raster) (listed : List Int) :
    (values.size = zones.size → ∃ totals listedTotals, values.zonalSums zones = .ok totals ∧
      ZonalTotals values zones totals ∧ values.zonalSumsOf zones listed = .ok listedTotals ∧
      ListedTotals listed totals listedTotals) ∧
    ∀ e, (values.zonalSums zones = .error e ↔ values.size ≠ zones.size ∧
      e = .sizeMismatch (values.metadata.rows.toNat, values.metadata.cols.toNat)
        (zones.metadata.rows.toNat, zones.metadata.cols.toNat)) ∧
    (values.zonalSumsOf zones listed = .error e ↔ values.size ≠ zones.size ∧
      e = .sizeMismatch (values.metadata.rows.toNat, values.metadata.cols.toNat)
        (zones.metadata.rows.toNat, zones.metadata.cols.toNat)) :=
  ⟨fun h => zonalTotals_of_size_eq h listed, zonalSums_eq_error_iff listed⟩

/-- Two data cells of zone `1`, with zones `1` and `4` listed. -/
theorem zonalSums_spec_one_zone :
    (dense ⟨.int32, Metadata.ofRowsCols 1 2, #[.int 1, .int 2], PixelType.int32.policy none⟩).size =
        (dense ⟨.uint8, Metadata.ofRowsCols 1 2, #[.int 1, .int 1],
          PixelType.uint8.policy none⟩).size ∧
      ∃ totals listedTotals,
        (dense ⟨.int32, Metadata.ofRowsCols 1 2, #[.int 1, .int 2],
            PixelType.int32.policy none⟩).zonalSums
          (dense ⟨.uint8, Metadata.ofRowsCols 1 2, #[.int 1, .int 1],
            PixelType.uint8.policy none⟩) = .ok totals ∧
        ZonalTotals
          (dense ⟨.int32, Metadata.ofRowsCols 1 2, #[.int 1, .int 2], PixelType.int32.policy none⟩)
          (dense ⟨.uint8, Metadata.ofRowsCols 1 2, #[.int 1, .int 1], PixelType.uint8.policy none⟩)
          totals ∧
        (dense ⟨.int32, Metadata.ofRowsCols 1 2, #[.int 1, .int 2],
            PixelType.int32.policy none⟩).zonalSumsOf
          (dense ⟨.uint8, Metadata.ofRowsCols 1 2, #[.int 1, .int 1],
            PixelType.uint8.policy none⟩) [1, 4] = .ok listedTotals ∧
        ListedTotals [1, 4] totals listedTotals :=
  ⟨rfl, (zonalSums_spec _ _ [1, 4]).1 rfl⟩

end Raster

end Georaster
