import Georaster.Proofs.Raster.Fill
import Georaster.Proofs.Binary.Exact
/-!
# The strict order of pixel values

`Pixel.lt` compares two integers as integers and two floating-point values by their places: an
infinity, or a finite `n * 2 ^ e`, which are compared at the smaller of the two exponents. This
module gives each value a key on the extended rational line (`Pixel.key`: the infinities at its
ends, a finite value at `n * 2 ^ e`) and shows that on values of one pixel type, none of them
NaN, `lt` is the order of the keys (`Pixel.lt_iff_key_lt`). So `lt` is a strict weak order there:
two values are equivalent, neither less than the other, exactly when their keys are equal, as for
the two zeros.

Values of different kinds are never less than one another, and NaN is less than nothing, so the
hypotheses cannot be dropped.
-/

namespace Georaster

namespace BinaryFloat

/-- The value of a place on the extended rational line. -/
def Place.key : Place → WithBot (WithTop ℚ)
  | .negInf => ⊥
  | .posInf => ((⊤ : WithTop ℚ) : WithBot (WithTop ℚ))
  | .finite n e => ((((n : ℚ) * 2 ^ e : ℚ) : WithTop ℚ) : WithBot (WithTop ℚ))

/-- Scaling both sides by `2 ^ low` compares `a * 2 ^ e` and `b * 2 ^ k` at the exponent `low`
below both. -/
theorem scaled_lt_iff {a b e k low : Int} (he : low ≤ e) (hk : low ≤ k) :
    a * 2 ^ (e - low).toNat < b * 2 ^ (k - low).toNat ↔ (a : ℚ) * 2 ^ e < (b : ℚ) * 2 ^ k := by
  have hshift : ∀ {x : Int}, low ≤ x → (2 : ℚ) ^ x = 2 ^ (x - low).toNat * 2 ^ low := fun hx => by
    rw [← zpow_natCast, Int.toNat_of_nonneg (sub_nonneg.mpr hx), ← zpow_add₀ two_ne_zero,
      sub_add_cancel]
  have hpos : (0 : ℚ) < 2 ^ low := zpow_pos two_pos low
  rw [hshift he, hshift hk, ← mul_assoc, ← mul_assoc, mul_lt_mul_iff_of_pos_right hpos]
  norm_cast

/-- Places compare as their values. -/
theorem Place.compare_eq_lt_iff (p q : Place) : p.compare q = .lt ↔ p.key < q.key := by
  have hbot : ∀ x : WithTop ℚ, (⊥ : WithBot (WithTop ℚ)) < x := WithBot.bot_lt_coe
  have htop : ∀ x : ℚ, ((x : WithTop ℚ) : WithBot (WithTop ℚ)) < ((⊤ : WithTop ℚ) : WithBot _) :=
    fun x => WithBot.coe_lt_coe.mpr (WithTop.coe_lt_top x)
  cases p with
  | negInf =>
    cases q with
    | negInf => exact iff_of_false (by simp [Place.compare]) (lt_irrefl _)
    | finite b k => exact iff_of_true rfl (hbot _)
    | posInf => exact iff_of_true rfl (hbot _)
  | posInf =>
    cases q with
    | negInf => exact iff_of_false (by simp [Place.compare]) (not_lt_of_gt (hbot _))
    | finite b k => exact iff_of_false (by simp [Place.compare]) (not_lt_of_gt (htop _))
    | posInf => exact iff_of_false (by simp [Place.compare]) (lt_irrefl _)
  | finite a e =>
    cases q with
    | negInf => exact iff_of_false (by simp [Place.compare]) (not_lt_of_gt (hbot _))
    | posInf => exact iff_of_true rfl (htop _)
    | finite b k =>
      simp only [Place.compare, Place.key, Int.compare_eq_lt, WithBot.coe_lt_coe,
        WithTop.coe_lt_coe]
      exact scaled_lt_iff (min_le_left e k) (min_le_right e k)

variable {f : FloatFormat}

/-- The key of a value: that of its place, and the bottom for NaN. -/
def key (x : BinaryFloat f) : WithBot (WithTop ℚ) := (x.place.map Place.key).getD ⊥

/-- Two values other than NaN compare as their keys. -/
theorem lt_iff_key_lt {x y : BinaryFloat f} (hx : x.isNaN = false) (hy : y.isNaN = false) :
    x.lt y = true ↔ x.key < y.key := by
  obtain ⟨p, hp⟩ := Option.ne_none_iff_exists'.mp fun h =>
    Bool.false_ne_true (hx.symm.trans (place_eq_none_iff.mp h))
  obtain ⟨q, hq⟩ := Option.ne_none_iff_exists'.mp fun h =>
    Bool.false_ne_true (hy.symm.trans (place_eq_none_iff.mp h))
  have hcmp : x.compare? y = some (p.compare q) := by simp [compare?, hp, hq]
  rw [lt, hcmp, key, key, hp, hq]
  simp only [Option.map_some, Option.getD_some, beq_iff_eq, Option.some.injEq]
  exact Place.compare_eq_lt_iff p q

end BinaryFloat

namespace Pixel

/-- The key of a value on the extended rational line. -/
def key : Pixel → WithBot (WithTop ℚ)
  | int n => (((n : ℚ) : WithTop ℚ) : WithBot (WithTop ℚ))
  | single x => x.key
  | double x => x.key

/-- On values of one pixel type, none of them NaN, `lt` is the order of the keys. -/
theorem lt_iff_key_lt {t : PixelType} {a b : Pixel} (ha : t.holds a = true) (hb : t.holds b = true)
    (hna : a.isNaN = false) (hnb : b.isNaN = false) : a.lt b = true ↔ a.key < b.key := by
  cases a with
  | int m =>
    cases b with
    | int n =>
      simp only [lt, key, decide_eq_true_eq, WithBot.coe_lt_coe, WithTop.coe_lt_coe]
      norm_cast
    | single y => simp_all [PixelType.holds, PixelType.isIntegral, PixelType.hasNaN]
    | double y => simp_all [PixelType.holds, PixelType.isIntegral, PixelType.hasNaN]
  | single x =>
    cases b with
    | single y => exact BinaryFloat.lt_iff_key_lt hna hnb
    | int n => simp_all [PixelType.holds, PixelType.isIntegral, PixelType.hasNaN]
    | double y => simp_all [PixelType.holds]
  | double x =>
    cases b with
    | double y => exact BinaryFloat.lt_iff_key_lt hna hnb
    | int n => simp_all [PixelType.holds, PixelType.isIntegral, PixelType.hasNaN]
    | single y => simp_all [PixelType.holds]

end Pixel

end Georaster
