import Georaster.Proofs.Raster.Invariant
import Georaster.Proofs.Binary.Exact
/-!
# Collapsing missing cells into the buffer and marking them again

`collapseData` writes into the buffer, at every missing cell, the value that marks it, and
`initNodataValues` makes missing every cell whose stored value marks nodata. The two use
different tests: a dense raster collapses the cells its policy reads as missing (NaN, for a
floating-point type) and marks again the cells equal to the nodata value; a masked raster
collapses the flagged cells and flags again the values that are NaN or equal to the nodata
value. Both agree with `Raster.marksNodata` once the nodata value itself marks nodata
(`Raster.marksNodata_of_nodataValue`), which holds because the nodata value of an integral type
is an integer, never NaN.

Main statement (`Raster.Reachable.initNodataValues_collapseData`): for every reachable dense or
masked raster with a nodata value, collapsing stores the nodata value at every missing cell, and
collapsing then marking again makes missing exactly the data cells whose value marks nodata,
keeping every other cell; so when no data cell holds such a value the round trip changes no cell.
-/

namespace Georaster

/-- Every value but NaN equals itself. -/
theorem Pixel.eq_self {v : Pixel} (h : v.isNaN = false) : v.eq v = true := by
  cases v with
  | int n => simp [Pixel.eq]
  | single x => exact BinaryFloat.eq_self h
  | double x => exact BinaryFloat.eq_self h

/-- Only the integer itself equals an integer. -/
theorem Pixel.eq_of_int_eq {n : Int} {v : Pixel} (h : (Pixel.int n).eq v = true) : v = .int n := by
  cases v with
  | int k =>
    simp only [Pixel.eq, beq_iff_eq] at h
    rw [h]
  | single x => simp [Pixel.eq] at h
  | double x => simp [Pixel.eq] at h

/-- The nodata value of a type is NaN only for a floating-point type. -/
theorem PixelType.hasNaN_of_nodataValue {t : PixelType} {n : Option Binary64} {s : Pixel}
    (hs : t.nodataValue n = some s) (hnan : s.isNaN = true) : t.hasNaN = true := by
  cases hN : t.hasNaN with
  | true => rfl
  | false =>
    -- an integral type converts the nodata value to an integer
    have hnone : t.nan? = none := Option.not_isSome_iff_eq_none.mp (by simp [PixelType.isSome_nan?, hN])
    obtain ⟨x, -, hx⟩ := Option.bind_eq_some_iff.mp hs
    obtain ⟨k, rfl⟩ := PixelType.eq_int_of_castFloat? hnone hx
    simp [Pixel.isNaN] at hnan

/-- The nodata value of a raster marks nodata, when it is NaN only in a floating-point type. -/
theorem Raster.marksNodata_of_nodataValue {r : Raster} {s : Pixel} (hs : r.nodataValue = some s)
    (hnan : s.isNaN = true → r.type.hasNaN = true) : r.marksNodata s = true := by
  unfold Raster.marksNodata
  cases h : s.isNaN with
  | true => simp [hnan h]
  | false => simp [hs, Pixel.eq_self h]

/-- A raster with a buffer takes its nodata value from its type and its metadata. -/
theorem Raster.nodataValue_of_buffer {r : Raster} (hb : r.buffer?.isSome) :
    r.nodataValue = r.type.nodataValue r.metadata.nodata := by
  cases r with
  | dense d => rfl
  | masked k => rfl
  | sparse t => simp [Raster.buffer?] at hb

/-- Rasters with a buffer, of one pixel type and one nodata value, mark the same values. -/
theorem Raster.marksNodata_of_keepsNodata {r r' : Raster} (hb : r.buffer?.isSome)
    (hb' : r'.buffer?.isSome) (h : KeepsNodata r r') : r'.marksNodata = r.marksNodata :=
  marksNodata_congr h.1 (by rw [nodataValue_of_buffer hb, nodataValue_of_buffer hb', h.1, h.2])

namespace DenseRaster

theorem marksNodata_collapseData (d : DenseRaster) :
    (Raster.dense d.collapseData).marksNodata = (Raster.dense d).marksNodata :=
  Raster.marksNodata_of_keepsNodata rfl rfl (Raster.keepsNodata_collapseData_dense d)

/-- The nodata value of a dense raster marks nodata. -/
theorem marksNodata_nodataValue {d : DenseRaster} {s : Pixel} (hs : d.nodataValue = some s) :
    (Raster.dense d).marksNodata s = true :=
  Raster.marksNodata_of_nodataValue hs (PixelType.hasNaN_of_nodataValue hs)

/-- Collapsing a floating-point buffer stores the nodata value in the NaN cells; an integral buffer
stores it in its missing cells already. Either way every missing cell holds the nodata value. -/
theorem getElem?_collapseData {d : DenseRaster} (hp : d.policy = d.type.policy d.metadata.nodata)
    {s : Pixel} (hs : d.nodataValue = some s) {i : Nat} (hi : d.toOptions[i]? = some none) :
    d.collapseData.data[i]? = some s := by
  obtain ⟨v, hv, hread⟩ : ∃ v, d.data[i]? = some v ∧ d.policy.read v = none := by
    simpa [toOptions] using hi
  have hmiss : d.policy.isMissing v = true := by
    unfold NodataPolicy.read at hread
    split at hread
    · assumption
    · cases hread
  unfold collapseData
  cases hN : d.type.hasNaN with
  | false =>
    -- the policy compares with the nodata value, an integer of the type
    have hnone : d.type.nan? = none :=
      Option.not_isSome_iff_eq_none.mp (by simp [PixelType.isSome_nan?, hN])
    obtain ⟨x, -, hx⟩ := Option.bind_eq_some_iff.mp hs
    obtain ⟨k, rfl⟩ := PixelType.eq_int_of_castFloat? hnone hx
    rw [isMissing_policy hp, hN] at hmiss
    simp only [Raster.marksNodata, Raster.type, Raster.nodataValue, hN, hs, Bool.false_and,
      Bool.false_or, Option.any_some] at hmiss
    simp [hv, Pixel.eq_of_int_eq hmiss]
  | true =>
    simp [hs, hv, hmiss]

/-- Collapsing and marking again makes missing exactly the data cells whose value marks nodata. -/
theorem toOptions_initNodataValues_collapseData (d : DenseRaster)
    (hp : d.policy = d.type.policy d.metadata.nodata) :
    d.collapseData.initNodataValues.toOptions =
      d.toOptions.map (·.bind fun v => if (Raster.dense d).marksNodata v then none else some v) := by
  have hp' : d.collapseData.policy = d.collapseData.type.policy d.collapseData.metadata.nodata := by
    unfold collapseData
    split
    · exact hp
    · split <;> exact hp
  rw [toOptions_initNodataValues _ hp', marksNodata_collapseData, toOptions, List.map_map]
  unfold collapseData
  cases hN : d.type.hasNaN with
  | false =>
    -- an integral buffer is kept, and it reads the values that mark nodata as missing
    simp only [Bool.not_false, if_true]
    refine List.map_congr_left fun v _ => ?_
    rw [Function.comp_apply, NodataPolicy.read, isMissing_policy hp, hN]
    by_cases hv : (Raster.dense d).marksNodata v <;> simp [hv]
  | true =>
    obtain ⟨nan, -, hpol⟩ := policy_of_hasNaN hp hN
    have hmarks : ∀ v, v.isNaN = true → (Raster.dense d).marksNodata v = true := fun v h => by
      simp [Raster.marksNodata, Raster.type, hN, h]
    simp only [Bool.not_true, Bool.false_eq_true, if_false]
    cases hs : d.nodataValue with
    | none =>
      refine List.map_congr_left fun v _ => ?_
      cases h : v.isNaN <;> simp [hpol, NodataPolicy.read, NodataPolicy.isMissing, h, hmarks]
    | some s =>
      -- the NaN cells now hold the nodata value, which marks nodata
      simp only [Array.toList_map, List.map_map]
      refine List.map_congr_left fun v _ => ?_
      cases h : v.isNaN <;>
        simp [hpol, NodataPolicy.read, NodataPolicy.isMissing, h, marksNodata_nodataValue hs]

end DenseRaster

namespace MaskedRaster

variable {k : MaskedRaster}

theorem marksNodata_collapseData (k : MaskedRaster) :
    (Raster.masked k.collapseData).marksNodata = (Raster.masked k).marksNodata :=
  Raster.marksNodata_of_keepsNodata rfl rfl (Raster.keepsNodata_collapseData_masked k)

/-- The nodata value of a masked raster marks nodata. -/
theorem marksNodata_nodataValue {s : Pixel} (hs : k.nodataValue = some s) :
    (Raster.masked k).marksNodata s = true :=
  Raster.marksNodata_of_nodataValue hs (PixelType.hasNaN_of_nodataValue hs)

/-- An allocated mask pairs each stored value with its flag. -/
theorem toOptions_eq_zip (hm : k.mask.size = k.data.size) :
    k.toOptions = (k.data.zip k.mask).toList.map fun (v, m) => if m then none else some v := by
  apply List.ext_getElem (by simp [hm])
  intro i hi _
  rw [length_toOptions] at hi
  have hmi : i < k.mask.size := hm ▸ hi
  simp [toOptions, cellAt, Array.getD_eq_getD_getElem?, hi, hmi]

theorem collapseData_of_mask_eq_empty (hm : k.mask = #[]) : k.collapseData = k := by
  simp [collapseData, hm]

/-- Collapsing stores the nodata value in the flagged cells. -/
theorem collapseData_eq {s : Pixel} (hm : k.mask ≠ #[]) (hs : k.nodataValue = some s) :
    k.collapseData = { k with data := (k.data.zip k.mask).map fun (v, m) => if m then s else v } := by
  have hne : k.mask.isEmpty = false := by simpa using hm
  simp [collapseData, hne, hs]

/-- Every missing cell holds the nodata value once collapsed. -/
theorem getElem?_collapseData (hw : k.Wf) {s : Pixel} (hs : k.nodataValue = some s) {i : Nat}
    (hi : k.toOptions[i]? = some none) : k.collapseData.data[i]? = some s := by
  have hlt : i < k.data.size := by
    simpa using (List.getElem?_eq_some_iff.mp hi).1
  have hcell : k.cellAt i = none := by simpa [toOptions, hlt] using hi
  have hflag : k.mask.getD i false = true := by
    unfold cellAt at hcell
    split at hcell
    · assumption
    · simp [hlt] at hcell
  have hm : k.mask ≠ #[] := fun h => by simp [h] at hflag
  have hsize : k.mask.size = k.data.size := hw.size_mask.resolve_left hm
  have hmi : i < k.mask.size := hsize ▸ hlt
  have hzi : i < (k.data.zip k.mask).size := by simp [Array.size_zip, hsize, hlt]
  simp only [Array.getD_eq_getD_getElem?, Array.getElem?_eq_getElem hmi, Option.getD_some] at hflag
  rw [collapseData_eq hm hs, Array.getElem?_map, Array.getElem?_eq_getElem hzi]
  simp [Array.getElem_zip, hflag]

/-- With a nodata value in the metadata, collapsing and marking again makes missing exactly the
data cells whose value marks nodata. -/
theorem toOptions_initNodataValues_collapseData (hw : k.Wf) (hn : k.metadata.nodata ≠ none)
    {s : Pixel} (hs : k.nodataValue = some s) :
    k.collapseData.initNodataValues.toOptions =
      k.toOptions.map (·.bind fun v => if (Raster.masked k).marksNodata v then none else some v) := by
  have hn' : k.collapseData.metadata.nodata ≠ none :=
    (Raster.keepsNodata_collapseData_masked k).2 ▸ hn
  rw [toOptions_initNodataValues hn', marksNodata_collapseData]
  by_cases hm : k.mask = #[]
  · -- without a mask, nothing is collapsed and every cell reads its value
    rw [collapseData_of_mask_eq_empty hm, toOptions_of_mask_eq_empty hm, List.map_map]
    rfl
  · -- a flagged cell now holds the nodata value, which marks nodata
    have hsize : k.mask.size = k.data.size := hw.size_mask.resolve_left hm
    rw [collapseData_eq hm hs, toOptions_eq_zip hsize, List.map_map]
    simp only [Array.toList_map, List.map_map]
    refine List.map_congr_left fun ⟨v, f⟩ _ => ?_
    cases f <;> simp [marksNodata_nodataValue hs]

end MaskedRaster

namespace Raster

/-- For every reachable dense or masked raster with a nodata value, collapsing stores the nodata
value at every missing cell, and collapsing then marking again makes missing exactly the data
cells whose value marks nodata (NaN, or equal to the nodata value), keeping every other cell; so
if no data cell holds a value that marks nodata, the round trip changes no cell. -/
theorem Reachable.initNodataValues_collapseData {r c : Raster} (hr : r.Reachable)
    (hn : r.metadata.nodata ≠ none) (hc : r.collapseData? = some c) :
    ∃ s b q, r.nodataValue = some s ∧ c.buffer? = some b ∧
      (∀ i : Nat, r.toOptions[i]? = some none → b[i]? = some s) ∧
      c.initNodataValues? = some q ∧
      q.toOptions = r.toOptions.map (·.bind fun v => if r.marksNodata v then none else some v) ∧
      ((∀ v, some v ∈ r.toOptions → r.marksNodata v = false) → q.toOptions = r.toOptions) := by
  have hb : r.buffer?.isSome := by
    cases r with
    | sparse t => cases hc
    | _ => rfl
  -- an accepted nodata value of the metadata is a value of the type
  obtain ⟨s, hs⟩ : ∃ s, r.nodataValue = some s := by
    rw [nodataValue_of_buffer hb]
    exact Option.isSome_iff_exists.mp ((PixelType.isSome_nodataValue hr.nodataAccepted).trans
      (Option.isSome_iff_ne_none.mpr hn))
  have hunchanged : ∀ q : Raster,
      q.toOptions = r.toOptions.map (·.bind fun v => if r.marksNodata v then none else some v) →
      (∀ v, some v ∈ r.toOptions → r.marksNodata v = false) → q.toOptions = r.toOptions := by
    intro q hq hkeep
    rw [hq]
    conv_rhs => rw [← List.map_id r.toOptions]
    refine List.map_congr_left fun x hx => ?_
    cases x with
    | none => rfl
    | some v => simp [hkeep v hx]
  cases r with
  | dense d =>
    cases hc
    have hp : d.policy = d.type.policy d.metadata.nodata := hr.sound.dense_policy
    have hround := DenseRaster.toOptions_initNodataValues_collapseData d hp
    exact ⟨s, _, _, hs, rfl, fun i hi => DenseRaster.getElem?_collapseData hp hs hi, rfl, hround,
      hunchanged (dense _) hround⟩
  | masked k =>
    cases hc
    have hw : k.Wf := hr.sound.wf
    have hround := MaskedRaster.toOptions_initNodataValues_collapseData hw hn hs
    exact ⟨s, _, _, hs, rfl, fun i hi => MaskedRaster.getElem?_collapseData hw hs hi, rfl, hround,
      hunchanged (masked _) hround⟩
  | sparse t => cases hc

/-- A masked raster of doubles with nodata value zero, whose first cell holds zero and whose second
is flagged: the theorem applies to it. -/
theorem initNodataValues_collapseData_masked_zero :
    ∃ k, MaskedRaster.ofData .float64 (Metadata.sized ⟨1, 2⟩ (some Metadata.zero))
        #[.double Metadata.zero, .double Metadata.half] #[false, true] = .ok k ∧
      ∃ s b q, (masked k).nodataValue = some s ∧ (masked k.collapseData).buffer? = some b ∧
        (∀ i : Nat, (masked k).toOptions[i]? = some none → b[i]? = some s) ∧
        (masked k.collapseData).initNodataValues? = some q ∧
        q.toOptions = (masked k).toOptions.map
          (·.bind fun v => if (masked k).marksNodata v then none else some v) ∧
        ((∀ v, some v ∈ (masked k).toOptions → (masked k).marksNodata v = false) →
          q.toOptions = (masked k).toOptions) := by
  have hk : MaskedRaster.ofData .float64 (Metadata.sized ⟨1, 2⟩ (some Metadata.zero))
      #[.double Metadata.zero, .double Metadata.half] #[false, true] =
      .ok ⟨.float64, Metadata.sized ⟨1, 2⟩ (some Metadata.zero),
        #[.double Metadata.zero, .double Metadata.half], #[false, true]⟩ := rfl
  exact ⟨_, hk, Reachable.initNodataValues_collapseData (.built (.ofDataWithMask ⟨rfl, rfl⟩ hk))
    (Option.some_ne_none _) rfl⟩

end Raster

end Georaster
