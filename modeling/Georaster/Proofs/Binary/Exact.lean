import Georaster.Binary.Arith
import Mathlib
/-!
# Exact values of binary floating-point formats

A format stores a finite value as a sign, a significand `m` and an exponent `e` standing for
`± m * 2 ^ e`: a subnormal significand below `2 ^ fractionBits` at the least exponent, or a normal
one with its leading bit at `fractionBits`, at an exponent below that of the infinities
(`FloatFormat.Fits`). `FloatFormat.pack` writes such a triple as its bit pattern, and reading the
pattern gives the triple back (`decode_pack`, `pack_decode`).

Rounding takes place only when the value is not stored as it is: a value equal to a stored one
rounds to its pattern (`roundScaled_of_fits`). From this:

* conversion of a value into a format that stores it gives that value, so a single-precision value
  comes back from double precision (`BinaryFloat.convert_convert`, `Fits.widen_single`), and NaN
  stays NaN (`convert_of_isNaN`);
* an integer converts and truncates back to itself exactly when the format holds it, that is
  when its bits below the `fractionBits + 1` leading ones are zero (`FloatFormat.holdsInt`,
  `truncate?_ofInt_eq_some_iff`); every integer of magnitude at most `2 ^ (fractionBits + 1)` is
  held (`holdsInt_of_natAbs_le`);
* a value other than zero has one stored form (`Fits.unique`), so two values compare equal exactly
  when they are one value, not NaN, or two zeros, of either sign (`eq_eq_true_iff`), and two
  integers that the format holds are equal exactly when their values compare equal
  (`ofInt_eq_ofInt_iff`).
-/

namespace Georaster

namespace FloatFormat

variable (f : FloatFormat)

/-- A significand and an exponent that the format stores as they are: a subnormal significand at
the least exponent, or a normal one, with its leading bit, at an exponent below that of the
infinities. -/
def Fits (m : Nat) (e : Int) : Prop :=
  (m < f.hidden ∧ e = f.minExp ∧ 0 < f.topExponent) ∨
    (f.hidden ≤ m ∧ m < 2 * f.hidden ∧ f.minExp ≤ e ∧ e - f.minExp + 1 < f.topExponent)

/-- The bit pattern of `± m * 2 ^ e`, for a significand and exponent that the format stores as
they are: the sign, the biased exponent (zero for a subnormal) and the fraction. -/
def pack (neg : Bool) (m : Nat) (e : Int) : Nat :=
  f.zeroBits neg + (if m < f.hidden then 0 else (e - f.minExp + 1).toNat) * f.hidden +
    m % f.hidden

variable {f}

/-! The constants of a format are powers of two. -/

theorem hidden_eq_pow : f.hidden = 2 ^ f.fractionBits := Nat.pow_eq

theorem topExponent_eq_pow : f.topExponent = 2 ^ f.exponentBits - 1 := by
  rw [topExponent, Nat.pow_eq]

theorem signWeight_eq_pow : f.signWeight = 2 ^ (f.fractionBits + f.exponentBits) := Nat.pow_eq

theorem hidden_pos : 0 < f.hidden := Nat.two_pow_pos _

theorem signWeight_eq : f.signWeight = f.hidden * 2 ^ f.exponentBits := by
  rw [signWeight_eq_pow, hidden_eq_pow, Nat.pow_add]

theorem topExponent_lt : f.topExponent < 2 ^ f.exponentBits := by
  have := Nat.two_pow_pos f.exponentBits
  rw [topExponent_eq_pow]
  omega

/-- A pattern of a sign, a biased exponent below `2 ^ exponentBits` and a fraction is read field
by field. -/
theorem decode_fields (neg : Bool) {b r : Nat} (hb : b < 2 ^ f.exponentBits) (hr : r < f.hidden) :
    f.decode (f.zeroBits neg + b * f.hidden + r) =
      if b = f.topExponent then (if r = 0 then .infinite neg else .nan)
      else if b = 0 then .finite neg r f.minExp
      else .finite neg (f.hidden + r) (f.minExp + b - 1) := by
  have hH := hidden_pos (f := f)
  have hS := signWeight_eq (f := f)
  have hK := Nat.two_pow_pos f.exponentBits
  -- the sign takes the whole of a multiple of `2 ^ exponentBits` above the biased exponent
  have hz : f.zeroBits neg = (if neg then 2 ^ f.exponentBits else 0) * f.hidden := by
    cases neg <;> simp [zeroBits, hS, Nat.mul_comm]
  have hlow : b * f.hidden + r < f.signWeight := by
    rw [hS]
    calc b * f.hidden + r < (b + 1) * f.hidden := by rw [Nat.succ_mul]; omega
      _ ≤ 2 ^ f.exponentBits * f.hidden := Nat.mul_le_mul_right _ (by omega)
      _ = f.hidden * 2 ^ f.exponentBits := Nat.mul_comm _ _
  have hfrac : (f.zeroBits neg + b * f.hidden + r) % f.hidden = r := by
    rw [hz, ← Nat.add_mul, Nat.add_comm, Nat.add_mul_mod_self_right, Nat.mod_eq_of_lt hr]
  have hbiased : (f.zeroBits neg + b * f.hidden + r) / f.hidden % 2 ^ f.exponentBits = b := by
    rw [hz, ← Nat.add_mul, Nat.add_comm, Nat.add_mul_div_right _ _ hH, Nat.div_eq_of_lt hr,
      Nat.zero_add]
    cases neg
    · simp [Nat.mod_eq_of_lt hb]
    · simp [Nat.mod_eq_of_lt hb]
  have hsign : decide ((f.zeroBits neg + b * f.hidden + r) / f.signWeight % 2 = 1) = neg := by
    rw [Nat.add_assoc]
    cases neg
    · simp [zeroBits, Nat.div_eq_of_lt hlow]
    · rw [zeroBits, if_pos rfl, Nat.add_comm, Nat.add_div_right _ (by omega),
        Nat.div_eq_of_lt hlow]
      rfl
  simp only [decode, Nat.pow_eq, hfrac, hbiased, hsign]

/-- A significand and exponent that the format stores as they are read back from their pattern. -/
theorem decode_pack (neg : Bool) {m : Nat} {e : Int} (h : f.Fits m e) :
    f.decode (f.pack neg m e) = .finite neg m e := by
  have hT := topExponent_lt (f := f)
  rcases h with ⟨hm, rfl, hT0⟩ | ⟨hm, hm2, he, hT'⟩
  · -- a subnormal: biased exponent zero, the significand is the fraction
    rw [pack, if_pos hm, Nat.mod_eq_of_lt hm, decode_fields neg (Nat.two_pow_pos _) hm,
      if_neg (Nat.ne_of_lt hT0), if_pos rfl]
  · -- a normal value: the biased exponent is at least one
    have hfrac : m % f.hidden = m - f.hidden := by
      rw [Nat.mod_eq_sub_mod hm, Nat.mod_eq_of_lt (by omega)]
    have hb : (e - f.minExp + 1).toNat < 2 ^ f.exponentBits := by omega
    rw [pack, if_neg (by omega), decode_fields neg hb (Nat.mod_lt _ hidden_pos),
      if_neg (by omega), if_neg (by omega), hfrac, Nat.add_sub_cancel' hm]
    congr 1
    omega

/-- A pattern of the format's width is its sign, its biased exponent and its fraction. -/
theorem eq_fields {b : Nat} (hb : b < 2 ^ f.width) :
    b = f.zeroBits (decide (b / f.signWeight % 2 = 1)) +
      b / f.hidden % 2 ^ f.exponentBits * f.hidden + b % f.hidden := by
  have hS := signWeight_eq (f := f)
  have hSpos : 0 < f.signWeight := by
    rw [hS]
    exact Nat.mul_pos hidden_pos (Nat.two_pow_pos _)
  have hwidth : 2 ^ f.width = 2 * f.signWeight := by
    rw [width, Nat.pow_succ, signWeight_eq_pow, Nat.mul_comm]
  -- the sign bit is the quotient by its weight
  have hsign : b / f.signWeight < 2 := by
    apply (Nat.div_lt_iff_lt_mul hSpos).mpr
    omega
  have hzero :
      f.zeroBits (decide (b / f.signWeight % 2 = 1)) = b / f.signWeight * f.signWeight := by
    have hs01 : b / f.signWeight = 0 ∨ b / f.signWeight = 1 := by
      generalize b / f.signWeight = s at hsign
      omega
    rcases hs01 with h0 | h1
    · simp [zeroBits, h0]
    · simp [zeroBits, h1]
  have hlow : b % f.signWeight = b % f.hidden + f.hidden * (b / f.hidden % 2 ^ f.exponentBits) := by
    rw [hS, Nat.mod_mul]
  rw [hzero]
  calc b = f.signWeight * (b / f.signWeight) + b % f.signWeight := (Nat.div_add_mod b _).symm
    _ = _ := by rw [hlow]; ring

/-- Every finite pattern is the pattern of the significand and exponent it is read as, and these
are stored as they are. -/
theorem pack_decode {b : Nat} (hb : b < 2 ^ f.width) {neg : Bool} {m : Nat} {e : Int}
    (h : f.decode b = .finite neg m e) : f.Fits m e ∧ f.pack neg m e = b := by
  have hbi : b / f.hidden % 2 ^ f.exponentBits < 2 ^ f.exponentBits :=
    Nat.mod_lt _ (Nat.two_pow_pos _)
  have hfr : b % f.hidden < f.hidden := Nat.mod_lt _ hidden_pos
  have hTeq : f.topExponent + 1 = 2 ^ f.exponentBits := by
    have := Nat.two_pow_pos f.exponentBits
    rw [topExponent_eq_pow]
    omega
  rw [eq_fields hb, decode_fields _ hbi hfr] at h
  rw [eq_fields hb]
  generalize decide (b / f.signWeight % 2 = 1) = s at h ⊢
  generalize b / f.hidden % 2 ^ f.exponentBits = bi at h hbi ⊢
  generalize b % f.hidden = fr at h hfr ⊢
  by_cases htop : bi = f.topExponent
  · -- the top exponent reads as an infinity or NaN
    rw [if_pos htop] at h
    split at h <;> cases h
  rw [if_neg htop] at h
  by_cases hsub : bi = 0
  · -- a subnormal
    rw [if_pos hsub] at h
    cases h
    refine ⟨.inl ⟨hfr, rfl, by omega⟩, ?_⟩
    rw [pack, if_pos hfr, Nat.mod_eq_of_lt hfr, hsub, Nat.zero_mul]
  · -- a normal value
    rw [if_neg hsub] at h
    cases h
    refine ⟨.inr ⟨by omega, by omega, by omega, by omega⟩, ?_⟩
    rw [pack, if_neg (by omega), Nat.add_mod_left, Nat.mod_eq_of_lt hfr]
    congr 3
    omega

/-- The exponent of a stored nonzero significand is that of its leading bit moved to the top place
of the significand, but never below the least exponent. -/
theorem Fits.exp_eq {m : Nat} {e : Int} (h : f.Fits m e) (hm : m ≠ 0) :
    e = max ((m.log2 : Int) + e - f.fractionBits) f.minExp := by
  rcases h with ⟨hlt, rfl, -⟩ | ⟨hge, hlt, he, -⟩
  · have hl : m.log2 < f.fractionBits := (Nat.log2_lt hm).mpr hlt
    omega
  · have hl : m.log2 = f.fractionBits :=
      (Nat.log2_eq_iff hm).mpr ⟨hge, by rw [Nat.pow_succ, Nat.mul_comm]; exact hlt⟩
    omega

end FloatFormat

/-! ### Scaled integers and their binary logarithm -/

theorem Nat.log2_mul_two_pow {m : Nat} (hm : m ≠ 0) (a : Nat) : (m * 2 ^ a).log2 = m.log2 + a := by
  have hlo := Nat.log2_self_le hm
  have hhi := Nat.lt_log2_self (n := m)
  rw [Nat.log2_eq_iff (Nat.mul_ne_zero hm (Nat.two_pow_pos a).ne')]
  constructor
  · rw [Nat.pow_add]
    exact Nat.mul_le_mul_right _ hlo
  · rw [Nat.add_right_comm, Nat.pow_add]
    exact Nat.mul_lt_mul_of_pos_right hhi (Nat.two_pow_pos a)

/-- The binary logarithm of `m * 2 ^ a / 2 ^ b` is that of `m` moved by `a - b`: the comparison that
settles `log2Ratio` never moves it down. -/
theorem log2Ratio_scaled {m : Nat} (hm : m ≠ 0) (a b : Nat) :
    log2Ratio (m * 2 ^ a) (2 ^ b) = (m.log2 : Int) + a - b := by
  have hlo := Nat.log2_self_le hm
  unfold log2Ratio ltScaledPow2
  dsimp only [Nat.pow_eq]
  rw [Nat.log2_mul_two_pow hm, Nat.log2_two_pow]
  push_cast
  split
  · rename_i hq0
    -- `m * 2 ^ a` is at least `2 ^ b * 2 ^ (log2 m + a - b)`
    have hge : 2 ^ b * 2 ^ ((m.log2 : Int) + a - b).toNat ≤ m * 2 ^ a := by
      have he : 2 ^ b * 2 ^ ((m.log2 : Int) + a - b).toNat = 2 ^ m.log2 * 2 ^ a := by
        rw [← Nat.pow_add, ← Nat.pow_add]
        congr 1
        omega
      rw [he]
      exact Nat.mul_le_mul_right _ hlo
    rw [if_neg (by simpa using hge)]
  · rename_i hq0
    -- `m * 2 ^ a * 2 ^ (b - log2 m - a)` is at least `2 ^ b`
    have hge : 2 ^ b ≤ m * 2 ^ a * 2 ^ (-((m.log2 : Int) + a - b)).toNat := by
      have he : 2 ^ b = 2 ^ m.log2 * 2 ^ a * 2 ^ (-((m.log2 : Int) + a - b)).toNat := by
        rw [← Nat.pow_add, ← Nat.pow_add]
        congr 1
        omega
      rw [he]
      exact Nat.mul_le_mul_right _ (Nat.mul_le_mul_right _ hlo)
    rw [if_neg (by simpa using hge)]

/-- Rounding an integer quotient that is exact gives the quotient. -/
theorem roundHalfEven_mul_self (q : Nat) {d : Nat} (hd : 0 < d) : roundHalfEven (q * d) d = q := by
  simp [roundHalfEven, Nat.mul_div_cancel _ hd, Nat.mul_mod_left]
  omega

/-- `m * 2 ^ e = M * 2 ^ E`, stated with the negative parts of the exponents moved to the other
side in two ways. -/
theorem scaled_cross {m M : Nat} {e E : Int} (hv : m * 2 ^ (e - E).toNat = M * 2 ^ (E - e).toNat) :
    m * 2 ^ e.toNat * 2 ^ (-E).toNat = M * (2 ^ (-e).toNat * 2 ^ E.toNat) := by
  apply Nat.eq_of_mul_eq_mul_right (Nat.two_pow_pos (E - e).toNat)
  calc m * 2 ^ e.toNat * 2 ^ (-E).toNat * 2 ^ (E - e).toNat
      = m * 2 ^ (e - E).toNat * 2 ^ ((-e).toNat + E.toNat) := by
        rw [Nat.mul_assoc, Nat.mul_assoc, Nat.mul_assoc, ← Nat.pow_add, ← Nat.pow_add,
          ← Nat.pow_add]
        congr 2
        omega
    _ = M * 2 ^ (E - e).toNat * 2 ^ ((-e).toNat + E.toNat) := by rw [hv]
    _ = M * (2 ^ (-e).toNat * 2 ^ E.toNat) * 2 ^ (E - e).toNat := by rw [Nat.pow_add]; ring

namespace FloatFormat

variable {f : FloatFormat}

/-- A value has one stored form: two stored significands and exponents of one nonzero value are the
same. -/
theorem Fits.unique {m n : Nat} {e k : Int} (hm : f.Fits m e) (hn : f.Fits n k) (hm0 : m ≠ 0)
    (hv : m * 2 ^ (e - min e k).toNat = n * 2 ^ (k - min e k).toNat) : m = n ∧ e = k := by
  have hn0 : n ≠ 0 := by
    rintro rfl
    rw [Nat.zero_mul] at hv
    exact hm0 ((Nat.mul_eq_zero.mp hv).resolve_right (Nat.two_pow_pos _).ne')
  -- both leading bits stand at one place, which fixes the exponent
  have hlog : (m.log2 : Int) + e = n.log2 + k := by
    have h := congrArg Nat.log2 hv
    rw [Nat.log2_mul_two_pow hm0, Nat.log2_mul_two_pow hn0] at h
    omega
  have hek : e = k := by
    rw [hm.exp_eq hm0, hn.exp_eq hn0, hlog]
  subst hek
  simpa using hv

/-- A value `m * 2 ^ e` equal to `M * 2 ^ E`, for a significand and exponent that the format
stores as they are, rounds to their pattern: no rounding takes place. -/
theorem roundScaled_of_fits (neg : Bool) {m M : Nat} {e E : Int} (hM : f.Fits M E)
    (hv : m * 2 ^ (e - E).toNat = M * 2 ^ (E - e).toNat) :
    f.roundScaled neg m e = f.pack neg M E := by
  have hH := hidden_pos (f := f)
  by_cases hM0 : M = 0
  · -- zero
    have hm0 : m = 0 := by
      rw [hM0, Nat.zero_mul] at hv
      exact (Nat.mul_eq_zero.mp hv).resolve_right (Nat.two_pow_pos _).ne'
    subst hm0 hM0
    simp [roundScaled, roundRatio, scaledRatio, pack, hH, Nat.pow_eq]
  have hm0 : m ≠ 0 := by
    rintro rfl
    rw [Nat.zero_mul] at hv
    exact hM0 ((Nat.mul_eq_zero.mp hv.symm).resolve_right (Nat.two_pow_pos _).ne')
  -- the leading bits of the two sides stand at the same place
  have hlog : (m.log2 : Int) + e = M.log2 + E := by
    have h := congrArg Nat.log2 hv
    rw [Nat.log2_mul_two_pow hm0, Nat.log2_mul_two_pow hM0] at h
    omega
  -- the last significand place is that of `E`
  have hu : max ((m.log2 : Int) + e.toNat - (-e).toNat) f.minNormalExp - f.fractionBits = E := by
    have hE := hM.exp_eq hM0
    simp only [minNormalExp]
    omega
  have hbits : ¬f.topExponent ≤ (if M < f.hidden then 0 else (E - f.minExp + 1).toNat) := by
    rcases hM with ⟨hlt, -, hT⟩ | ⟨hge, -, hE, hT⟩
    · rw [if_pos hlt]
      omega
    · rw [if_neg (by omega)]
      omega
  have hM2 : M ≠ 2 * f.hidden := by
    rcases hM with ⟨hlt, -⟩ | ⟨-, hlt, -⟩ <;> omega
  unfold roundScaled scaledRatio roundRatio
  dsimp only [Nat.pow_eq]
  rw [if_neg (Nat.mul_ne_zero hm0 (Nat.two_pow_pos _).ne'), log2Ratio_scaled hm0, hu,
    scaled_cross hv, roundHalfEven_mul_self _ (Nat.mul_pos (Nat.two_pow_pos _) (Nat.two_pow_pos _)),
    if_neg hM2]
  dsimp only
  rw [if_neg hbits]
  rfl

/-- A sign, a biased exponent below `2 ^ exponentBits` and a fraction make a pattern of the
format's width. -/
theorem fields_lt (neg : Bool) {b r : Nat} (hb : b < 2 ^ f.exponentBits) (hr : r < f.hidden) :
    f.zeroBits neg + b * f.hidden + r < 2 ^ f.width := by
  have hS := signWeight_eq (f := f)
  have hwidth : 2 ^ f.width = 2 * f.signWeight := by
    rw [width, Nat.pow_succ, signWeight_eq_pow, Nat.mul_comm]
  -- the exponent and the fraction stay below the sign bit
  have hlow : b * f.hidden + r < f.signWeight := by
    rw [hS]
    calc b * f.hidden + r < (b + 1) * f.hidden := by rw [Nat.succ_mul]; omega
      _ ≤ 2 ^ f.exponentBits * f.hidden := Nat.mul_le_mul_right _ hb
      _ = f.hidden * 2 ^ f.exponentBits := Nat.mul_comm _ _
  have hz : f.zeroBits neg ≤ f.signWeight := by
    cases neg <;> simp [zeroBits]
  rw [Nat.add_assoc, hwidth]
  omega

/-- The pattern of a significand and exponent that the format stores as they are is a pattern of
the format's width. -/
theorem pack_lt (neg : Bool) {m : Nat} {e : Int} (h : f.Fits m e) :
    f.pack neg m e < 2 ^ f.width := by
  have hT := topExponent_lt (f := f)
  apply fields_lt neg _ (Nat.mod_lt _ hidden_pos)
  split
  · exact Nat.two_pow_pos _
  · rcases h with ⟨hm, -⟩ | ⟨-, -, -, he⟩ <;> omega

theorem infBits_lt (neg : Bool) : f.infBits neg < 2 ^ f.width := by
  have h := fields_lt (f := f) neg topExponent_lt hidden_pos
  rwa [Nat.add_zero] at h

/-- The pattern of an infinity reads as that infinity. -/
theorem decode_infBits (neg : Bool) : f.decode (f.infBits neg) = .infinite neg := by
  have h := decode_fields (f := f) neg topExponent_lt hidden_pos
  rw [Nat.add_zero, if_pos rfl, if_pos rfl] at h
  exact h

/-- A pattern that reads as an infinity is the pattern of that infinity. -/
theorem infBits_of_decode {b : Nat} (hb : b < 2 ^ f.width) {neg : Bool}
    (h : f.decode b = .infinite neg) : b = f.infBits neg := by
  have hbi : b / f.hidden % 2 ^ f.exponentBits < 2 ^ f.exponentBits :=
    Nat.mod_lt _ (Nat.two_pow_pos _)
  have hfr : b % f.hidden < f.hidden := Nat.mod_lt _ hidden_pos
  rw [eq_fields hb, decode_fields _ hbi hfr] at h
  rw [eq_fields hb, infBits]
  generalize decide (b / f.signWeight % 2 = 1) = s at h ⊢
  generalize b / f.hidden % 2 ^ f.exponentBits = bi at h hbi ⊢
  generalize b % f.hidden = fr at h hfr ⊢
  -- only the top exponent with a zero fraction reads as an infinity
  by_cases htop : bi = f.topExponent
  · rw [if_pos htop] at h
    by_cases hfr0 : fr = 0
    · rw [if_pos hfr0] at h
      cases h
      rw [htop, hfr0, Nat.add_zero]
    · rw [if_neg hfr0] at h
      cases h
  · rw [if_neg htop] at h
    split at h <;> cases h

end FloatFormat

/-! ### Values of a format -/

namespace BinaryFloat

variable {f g : FloatFormat}

theorem ofBits_toNat (x : BinaryFloat f) : (ofBits x.bits.toNat : BinaryFloat f) = x := by
  cases x
  simp [ofBits]

theorem classify_ofBits_pack (neg : Bool) {m : Nat} {e : Int} (h : f.Fits m e) :
    (ofBits (f.pack neg m e) : BinaryFloat f).classify = .finite neg m e := by
  simp only [classify, ofBits, BitVec.toNat_ofNat, Nat.mod_eq_of_lt (FloatFormat.pack_lt neg h)]
  exact FloatFormat.decode_pack neg h

/-- A finite value is the pattern of the significand and exponent it reads as, which the format
stores as they are. -/
theorem eq_ofBits_pack {x : BinaryFloat f} {neg : Bool} {m : Nat} {e : Int}
    (h : x.classify = .finite neg m e) : f.Fits m e ∧ x = ofBits (f.pack neg m e) := by
  obtain ⟨hfits, hpack⟩ := FloatFormat.pack_decode x.bits.isLt h
  exact ⟨hfits, by rw [hpack, ofBits_toNat]⟩

theorem classify_inf (neg : Bool) : (inf neg : BinaryFloat f).classify = .infinite neg := by
  simp only [classify, inf, ofBits, BitVec.toNat_ofNat,
    Nat.mod_eq_of_lt (FloatFormat.infBits_lt neg)]
  exact FloatFormat.decode_infBits neg

theorem eq_inf {x : BinaryFloat f} {neg : Bool} (h : x.classify = .infinite neg) : x = inf neg := by
  rw [← ofBits_toNat x, FloatFormat.infBits_of_decode x.bits.isLt h]
  rfl

/-- Converting a finite value into a format that stores its value, with a significand and an
exponent moved against each other, gives the pattern of those: no rounding takes place. -/
theorem convert_of_fits {x : BinaryFloat f} {neg : Bool} {m : Nat} {e : Int}
    (h : x.classify = .finite neg m e) {M : Nat} {E : Int} (hM : g.Fits M E)
    (hv : m * 2 ^ (e - E).toNat = M * 2 ^ (E - e).toNat) :
    (x.convert : BinaryFloat g) = ofBits (g.pack neg M E) := by
  unfold convert
  rw [h]
  exact congrArg ofBits (FloatFormat.roundScaled_of_fits neg hM hv)

/-- Converting a value that is not NaN into its own format gives it back. -/
theorem convert_self {x : BinaryFloat f} (hx : x.isNaN = false) :
    (x.convert : BinaryFloat f) = x := by
  cases hc : x.classify with
  | nan => simp [isNaN, hc] at hx
  | infinite neg =>
    unfold convert
    rw [hc, eq_inf hc]
  | finite neg m e =>
    obtain ⟨hfits, hx'⟩ := eq_ofBits_pack hc
    rw [convert_of_fits hc hfits rfl, ← hx']

/-- The integer part of a finite value, read off its significand and exponent. -/
theorem truncate?_of_classify {x : BinaryFloat f} {neg : Bool} {m : Nat} {e : Int}
    (h : x.classify = .finite neg m e) :
    x.truncate? = some (signed neg (m * 2 ^ e.toNat / 2 ^ (-e).toNat)) := by
  simp only [truncate?, h, scaledRatio, Nat.pow_eq, signed]

/-- An integer in a format is its magnitude at exponent zero, rounded. -/
theorem ofInt_eq_ofScaled (n : Int) :
    (ofInt n : BinaryFloat f) = ofScaled (decide (n < 0)) n.natAbs 0 := by
  simp [ofInt, ofScaled, ofRatio, FloatFormat.roundScaled, scaledRatio, Nat.pow_eq]

end BinaryFloat

theorem roundHalfEven_bounds (n d : Nat) :
    n / d ≤ roundHalfEven n d ∧ roundHalfEven n d ≤ n / d + 1 := by
  unfold roundHalfEven
  dsimp only
  split <;> omega

theorem signed_natAbs (n : Int) : BinaryFloat.signed (decide (n < 0)) n.natAbs = n := by
  unfold BinaryFloat.signed
  split <;> rename_i h <;> simp at h <;> omega

/-! ### Integers in a format -/

namespace FloatFormat

/-- Whether the format holds the integer `n` exactly: the bits of its magnitude below its
`fractionBits + 1` leading ones are zero, as they are for every magnitude below
`2 ^ (fractionBits + 1)`. -/
def holdsInt (f : FloatFormat) (n : Int) : Bool :=
  decide (2 ^ (n.natAbs.log2 - f.fractionBits) ∣ n.natAbs)

variable {f : FloatFormat}

/-- A magnitude whose leading bit is at `L`, moved by powers of two to the leading place
`fractionBits`, is a normal significand. -/
theorem normal_of_scaled {k M a b L : Nat} (hk0 : k ≠ 0) (hL : k.log2 = L)
    (h : M * 2 ^ a = k * 2 ^ b) (hab : L + b = f.fractionBits + a) :
    f.hidden ≤ M ∧ M < 2 * f.hidden := by
  have hlo := Nat.log2_self_le hk0
  have hhi := Nat.lt_log2_self (n := k)
  rw [hL] at hlo hhi
  constructor
  · apply Nat.le_of_mul_le_mul_right _ (Nat.two_pow_pos a)
    calc f.hidden * 2 ^ a = 2 ^ L * 2 ^ b := by
          rw [hidden_eq_pow, ← Nat.pow_add, ← Nat.pow_add, hab]
      _ ≤ k * 2 ^ b := Nat.mul_le_mul_right _ hlo
      _ = M * 2 ^ a := h.symm
  · apply Nat.lt_of_mul_lt_mul_right (a := 2 ^ a)
    calc M * 2 ^ a = k * 2 ^ b := h
      _ < 2 ^ (L + 1) * 2 ^ b := Nat.mul_lt_mul_of_pos_right hhi (Nat.two_pow_pos b)
      _ = 2 * f.hidden * 2 ^ a := by
        rw [hidden_eq_pow, ← Nat.pow_succ', ← Nat.pow_add, ← Nat.pow_add]
        congr 1
        omega

/-- A magnitude whose leading bit lies past `fractionBits`, divided by the place of its last
significand bit, is a normal significand. -/
theorem normal_of_div {k : Nat} (hk0 : k ≠ 0) (hp : f.fractionBits ≤ k.log2) :
    f.hidden ≤ k / 2 ^ (k.log2 - f.fractionBits) ∧
      k / 2 ^ (k.log2 - f.fractionBits) < 2 * f.hidden := by
  have hplace : 2 ^ k.log2 = f.hidden * 2 ^ (k.log2 - f.fractionBits) := by
    rw [hidden_eq_pow, ← Nat.pow_add]
    congr 1
    omega
  constructor
  · exact (Nat.le_div_iff_mul_le (Nat.two_pow_pos _)).mpr (hplace ▸ Nat.log2_self_le hk0)
  · apply (Nat.div_lt_iff_lt_mul (Nat.two_pow_pos _)).mpr
    calc k < 2 ^ (k.log2 + 1) := Nat.lt_log2_self
      _ = 2 * f.hidden * 2 ^ (k.log2 - f.fractionBits) := by
        rw [Nat.pow_succ, hplace]
        ring

/-- An integer the format holds has a significand and an exponent that the format stores as they
are, when its leading bit lies in the format's range. -/
theorem exists_fits_of_holdsInt {n : Int} (hn : f.holdsInt n = true) (hb : 1 ≤ f.bias)
    (hr : n.natAbs.log2 + f.bias < f.topExponent) :
    ∃ M E, f.Fits M E ∧ n.natAbs * 2 ^ (0 - E).toNat = M * 2 ^ (E - 0).toNat := by
  by_cases hn0 : n.natAbs = 0
  · exact ⟨0, f.minExp, .inl ⟨hidden_pos, rfl, by omega⟩, by simp [hn0]⟩
  -- the significand is the magnitude moved to the leading place `fractionBits`
  have hdiv : 2 ^ (n.natAbs.log2 - f.fractionBits) ∣
      n.natAbs * 2 ^ (f.fractionBits - n.natAbs.log2) :=
    Dvd.dvd.mul_right (of_decide_eq_true hn) _
  have heq := Nat.div_mul_cancel hdiv
  refine ⟨n.natAbs * 2 ^ (f.fractionBits - n.natAbs.log2) / 2 ^ (n.natAbs.log2 - f.fractionBits),
    (n.natAbs.log2 : Int) - f.fractionBits, .inr ⟨?_, ?_, ?_, ?_⟩, ?_⟩
  · exact (normal_of_scaled hn0 rfl heq (by omega)).1
  · exact (normal_of_scaled hn0 rfl heq (by omega)).2
  · rw [minExp]
    omega
  · rw [minExp]
    omega
  · have h₁ : (0 - ((n.natAbs.log2 : Int) - f.fractionBits)).toNat =
        f.fractionBits - n.natAbs.log2 := by omega
    have h₂ : ((n.natAbs.log2 : Int) - f.fractionBits - 0).toNat =
        n.natAbs.log2 - f.fractionBits := by omega
    rw [h₁, h₂, heq]

end FloatFormat

namespace BinaryFloat

variable {f : FloatFormat}

/-- An integer that the format holds, with its leading bit in the format's range, truncates back
to itself. -/
theorem truncate?_ofInt_of_holdsInt {n : Int} (hn : f.holdsInt n = true) (hb : 1 ≤ f.bias)
    (hr : n.natAbs.log2 + f.bias < f.topExponent) :
    (ofInt n : BinaryFloat f).truncate? = some n := by
  obtain ⟨M, E, hM, hv⟩ := FloatFormat.exists_fits_of_holdsInt hn hb hr
  have hofInt : (ofInt n : BinaryFloat f) = ofBits (f.pack (decide (n < 0)) M E) := by
    rw [ofInt_eq_ofScaled, ofScaled, FloatFormat.roundScaled_of_fits _ hM hv]
  rw [truncate?_of_classify (hofInt ▸ classify_ofBits_pack _ hM)]
  rw [Int.zero_sub, Int.sub_zero] at hv
  rw [← hv, Nat.mul_div_cancel _ (Nat.two_pow_pos _), signed_natAbs]

/-- An integer whose leading bit lies past the format's significand rounds at the place
`2 ^ (log2 |n| - fractionBits)`: its pattern is that of a significand and a nonnegative exponent
whose value is the magnitude rounded to a multiple of that place. -/
theorem ofInt_of_fractionBits_lt {n : Int} (hp : f.fractionBits < n.natAbs.log2) (hb : 1 ≤ f.bias)
    (hr : n.natAbs.log2 + 1 + f.bias < f.topExponent) :
    ∃ M E, f.Fits M E ∧ 0 ≤ E ∧
      M * 2 ^ E.toNat = roundHalfEven n.natAbs (2 ^ (n.natAbs.log2 - f.fractionBits)) *
        2 ^ (n.natAbs.log2 - f.fractionBits) ∧
      (ofInt n : BinaryFloat f) = ofBits (f.pack (decide (n < 0)) M E) := by
  have hn0 : n.natAbs ≠ 0 := by
    intro h0
    rw [h0] at hp
    simp at hp
  rw [ofInt_eq_ofScaled, ofScaled]
  unfold FloatFormat.roundScaled scaledRatio FloatFormat.roundRatio
  dsimp only [Nat.pow_eq]
  simp only [Int.toNat_zero, Int.neg_zero]
  rw [if_neg (Nat.mul_ne_zero hn0 (Nat.two_pow_pos _).ne'), log2Ratio_scaled hn0]
  -- the exponent of the last significand place is `log2 |n| - fractionBits`, above zero
  have hu : max ((n.natAbs.log2 : Int) + ((0 : Nat) : Int) - ((0 : Nat) : Int)) f.minNormalExp -
      f.fractionBits = ((n.natAbs.log2 - f.fractionBits : Nat) : Int) := by
    simp only [FloatFormat.minNormalExp, FloatFormat.minExp]
    omega
  have hneg : (-((n.natAbs.log2 - f.fractionBits : Nat) : Int)).toNat = 0 := by omega
  rw [hu, hneg, Int.toNat_natCast]
  simp only [Nat.pow_zero, Nat.mul_one, Nat.one_mul]
  obtain ⟨hlo, hhi⟩ := FloatFormat.normal_of_div hn0 hp.le
  obtain ⟨hr₁, hr₂⟩ := roundHalfEven_bounds n.natAbs (2 ^ (n.natAbs.log2 - f.fractionBits))
  have hT : (n.natAbs.log2 - f.fractionBits : Nat) - f.minExp + 1 + 1 < f.topExponent := by
    rw [FloatFormat.minExp]
    omega
  by_cases hc : roundHalfEven n.natAbs (2 ^ (n.natAbs.log2 - f.fractionBits)) = 2 * f.hidden
  · -- the significand rounds up to the next power of two: one place higher
    rw [if_pos hc]
    dsimp only
    refine ⟨f.hidden, ((n.natAbs.log2 - f.fractionBits : Nat) : Int) + 1,
      .inr ⟨Nat.le_refl _, by have := FloatFormat.hidden_pos (f := f); omega, by
        rw [FloatFormat.minExp]; omega, by omega⟩, by omega, ?_, ?_⟩
    · rw [hc, show (((n.natAbs.log2 - f.fractionBits : Nat) : Int) + 1).toNat =
        (n.natAbs.log2 - f.fractionBits) + 1 by omega, Nat.pow_succ]
      ring
    · have htop : ¬f.topExponent ≤
          (((n.natAbs.log2 - f.fractionBits : Nat) : Int) + 1 - f.minExp + 1).toNat := by omega
      rw [if_neg (Nat.lt_irrefl _), if_neg htop, FloatFormat.pack, if_neg (Nat.lt_irrefl _)]
  · rw [if_neg hc]
    dsimp only
    refine ⟨roundHalfEven n.natAbs (2 ^ (n.natAbs.log2 - f.fractionBits)),
      ((n.natAbs.log2 - f.fractionBits : Nat) : Int),
      .inr ⟨by omega, by omega, by rw [FloatFormat.minExp]; omega, by omega⟩, by omega,
      by rw [Int.toNat_natCast], ?_⟩
    have hnot : ¬roundHalfEven n.natAbs (2 ^ (n.natAbs.log2 - f.fractionBits)) < f.hidden := by
      omega
    have htop : ¬f.topExponent ≤
        (((n.natAbs.log2 - f.fractionBits : Nat) : Int) - f.minExp + 1).toNat := by omega
    rw [if_neg hnot, if_neg htop, FloatFormat.pack, if_neg hnot]

theorem natAbs_signed (neg : Bool) (k : Nat) : (signed neg k).natAbs = k := by
  cases neg <;> simp [signed]

/-- An integer, with its leading bit in the format's range, converts and truncates back to itself
exactly when the format holds it. -/
theorem truncate?_ofInt_eq_some_iff {n : Int} (hb : 1 ≤ f.bias)
    (hr : n.natAbs.log2 + 1 + f.bias < f.topExponent) :
    (ofInt n : BinaryFloat f).truncate? = some n ↔ f.holdsInt n = true := by
  refine ⟨fun h => ?_, fun h => truncate?_ofInt_of_holdsInt h hb (by omega)⟩
  by_contra hn
  -- only a magnitude whose leading bit lies past the significand can be missed
  have hp : f.fractionBits < n.natAbs.log2 := by
    by_contra hle
    apply hn
    simp [FloatFormat.holdsInt, Nat.sub_eq_zero_of_le (Nat.le_of_not_lt hle)]
  obtain ⟨M, E, hM, hE, hv, hofInt⟩ := ofInt_of_fractionBits_lt hp hb hr
  rw [hofInt, truncate?_of_classify (classify_ofBits_pack _ hM),
    show (-E).toNat = 0 by omega, Nat.pow_zero, Nat.div_one, hv] at h
  -- then the magnitude is the rounded one, a multiple of the place
  have habs := congrArg Int.natAbs (Option.some.inj h)
  rw [natAbs_signed] at habs
  apply hn
  simp only [FloatFormat.holdsInt, decide_eq_true_eq]
  exact ⟨_, habs ▸ Nat.mul_comm _ _⟩

end BinaryFloat

/-! ### Equality of values -/

namespace BinaryFloat

variable {f : FloatFormat}

theorem Place.compare_self (p : Place) : p.compare p = .eq := by
  cases p <;> simp [Place.compare]

theorem place_eq_none_iff {x : BinaryFloat f} : x.place = none ↔ x.isNaN = true := by
  unfold place isNaN
  cases x.classify <;> simp

/-- A value that is not NaN equals itself. -/
theorem eq_self {x : BinaryFloat f} (hx : x.isNaN = false) : x.eq x = true := by
  cases hp : x.place with
  | none =>
    rw [place_eq_none_iff] at hp
    simp [hp] at hx
  | some p => simp [eq, compare?, hp, Place.compare_self]

theorem isZero_iff {x : BinaryFloat f} : x.isZero = true ↔ ∃ s e, x.classify = .finite s 0 e := by
  unfold isZero
  cases x.classify <;> simp

/-- Two signed multiples of powers of two, the first nonzero, agree exactly when their signs and
their magnitudes do. -/
theorem signed_mul_pow_eq_iff {s t : Bool} {m n u v : Nat} (hm : m ≠ 0) :
    signed s m * 2 ^ u = signed t n * 2 ^ v ↔ s = t ∧ m * 2 ^ u = n * 2 ^ v := by
  have hmu : 0 < (m : Int) * 2 ^ u := by
    exact_mod_cast Nat.mul_pos (Nat.pos_of_ne_zero hm) (Nat.two_pow_pos u)
  have hnv : 0 ≤ (n : Int) * 2 ^ v := by exact_mod_cast Nat.zero_le (n * 2 ^ v)
  cases s <;> cases t <;> simp only [signed, Bool.false_eq_true, if_false, if_true, Int.neg_mul,
    Int.neg_inj, true_and, reduceCtorEq, false_and, iff_false]
  · exact_mod_cast Iff.rfl
  · omega
  · omega
  · exact_mod_cast Iff.rfl

/-- Two finite values of the format with equal nonzero values are the same value. -/
theorem eq_of_scaled_eq {x y : BinaryFloat f} {s t : Bool} {m n : Nat} {e k : Int}
    (hx : x.classify = .finite s m e) (hy : y.classify = .finite t n k) (hm : m ≠ 0)
    (hv : signed s m * 2 ^ (e - min e k).toNat = signed t n * 2 ^ (k - min e k).toNat) : x = y := by
  obtain ⟨hst, hv⟩ := (signed_mul_pow_eq_iff hm).mp hv
  obtain ⟨hfx, rfl⟩ := eq_ofBits_pack hx
  obtain ⟨hfy, rfl⟩ := eq_ofBits_pack hy
  obtain ⟨rfl, rfl⟩ := hfx.unique hfy hm (by exact_mod_cast hv)
  rw [hst]

/-- Two values are equal as numbers exactly when they are one value, not NaN, or two zeros: a value
other than zero is stored in one way only, a zero in one way for each sign. -/
theorem eq_eq_true_iff {x y : BinaryFloat f} :
    x.eq y = true ↔ (x.isNaN = false ∧ x = y) ∨ (x.isZero = true ∧ y.isZero = true) := by
  constructor
  · intro h
    cases hx : x.classify with
    | nan => simp [eq, compare?, place, hx] at h
    | infinite s =>
      cases hy : y.classify with
      | nan => simp [eq, compare?, place, hx, hy] at h
      | infinite t =>
        -- infinities are equal exactly when their signs are
        have hst : s = t := by
          cases s <;> cases t <;> simp_all [eq, compare?, place, Place.compare]
        exact .inl ⟨by simp [isNaN, hx], by rw [eq_inf hx, eq_inf hy, hst]⟩
      | finite t n k => cases s <;> simp [eq, compare?, place, hx, hy, Place.compare] at h
    | finite s m e =>
      cases hy : y.classify with
      | nan => simp [eq, compare?, place, hx, hy] at h
      | infinite t => cases t <;> simp [eq, compare?, place, hx, hy, Place.compare] at h
      | finite t n k =>
        simp only [eq, compare?, place, hx, hy, Place.compare, beq_iff_eq, Option.some.injEq,
          Int.compare_eq_eq] at h
        by_cases hm : m = 0
        · -- a zero equals only a zero
          subst hm
          have hn : n = 0 := by
            have h0 : signed t n * 2 ^ (k - min e k).toNat = 0 := by simpa [signed] using h.symm
            have h1 := congrArg Int.natAbs h0
            simp only [Int.natAbs_mul, natAbs_signed, Int.natAbs_pow] at h1
            simpa using h1
          exact .inr ⟨by simp [isZero, hx], by simp [isZero, hy, hn]⟩
        · exact .inl ⟨by simp [isNaN, hx], eq_of_scaled_eq hx hy hm h⟩
  · rintro (⟨hx, rfl⟩ | ⟨hx, hy⟩)
    · exact eq_self hx
    · obtain ⟨s, e, hxc⟩ := isZero_iff.mp hx
      obtain ⟨t, k, hyc⟩ := isZero_iff.mp hy
      simp [eq, compare?, place, hxc, hyc, Place.compare, signed]

theorem isNaN_eq_false_of_truncate? {x : BinaryFloat f} {n : Int} (h : x.truncate? = some n) :
    x.isNaN = false := by
  unfold truncate? at h
  unfold isNaN
  split at h <;> simp_all

theorem truncate?_of_isZero {x : BinaryFloat f} (h : x.isZero = true) : x.truncate? = some 0 := by
  obtain ⟨s, e, hc⟩ := isZero_iff.mp h
  rw [truncate?_of_classify hc]
  simp [signed]

/-- Two integers that the format holds, with their leading bits in its range, convert to values
equal as numbers exactly when they are equal. -/
theorem ofInt_eq_ofInt_iff {a b : Int} (ha : f.holdsInt a = true) (hb : f.holdsInt b = true)
    (hbias : 1 ≤ f.bias) (hra : a.natAbs.log2 + f.bias < f.topExponent)
    (hrb : b.natAbs.log2 + f.bias < f.topExponent) :
    (ofInt a : BinaryFloat f).eq (ofInt b) = true ↔ a = b := by
  have hta := truncate?_ofInt_of_holdsInt ha hbias hra
  have htb := truncate?_ofInt_of_holdsInt hb hbias hrb
  constructor
  · intro h
    rcases eq_eq_true_iff.mp h with ⟨-, hab⟩ | ⟨hza, hzb⟩
    · -- one value truncates to one integer
      have h' := congrArg truncate? hab
      rw [hta, htb] at h'
      exact Option.some.inj h'
    · -- two zeros are the integer zero
      rw [truncate?_of_isZero hza] at hta
      rw [truncate?_of_isZero hzb] at htb
      rw [← Option.some.inj hta, ← Option.some.inj htb]
  · rintro rfl
    exact eq_self (isNaN_eq_false_of_truncate? hta)

end BinaryFloat

namespace FloatFormat

variable {f : FloatFormat}

/-- Every integer of magnitude at most `2 ^ (fractionBits + 1)` is held by the format. -/
theorem holdsInt_of_natAbs_le {n : Int} (h : n.natAbs ≤ 2 ^ (f.fractionBits + 1)) :
    f.holdsInt n = true := by
  simp only [holdsInt, decide_eq_true_eq]
  by_cases hle : n.natAbs.log2 ≤ f.fractionBits
  · rw [Nat.sub_eq_zero_of_le hle, Nat.pow_zero]
    exact Nat.one_dvd _
  -- past the significand only the power `2 ^ (fractionBits + 1)` itself is left
  have hn0 : n.natAbs ≠ 0 := by
    intro h0
    rw [h0] at hle
    simp at hle
  have hlog : n.natAbs.log2 = f.fractionBits + 1 := by
    have hlt : n.natAbs.log2 < f.fractionBits + 2 :=
      (Nat.log2_lt hn0).mpr (Nat.lt_of_le_of_lt h (Nat.pow_lt_pow_right (by decide) (by omega)))
    omega
  have heq : n.natAbs = 2 ^ (f.fractionBits + 1) :=
    Nat.le_antisymm h (hlog ▸ Nat.log2_self_le hn0)
  rw [hlog, heq, Nat.add_sub_cancel_left]
  exact Nat.pow_dvd_pow 2 (by omega)

/-- The NaN pattern reads as NaN in a format with a fraction. -/
theorem decode_nanBits (h : 0 < f.fractionBits) : f.decode f.nanBits = .nan := by
  have hH : f.hidden / 2 < f.hidden := Nat.div_lt_self hidden_pos (by decide)
  have hne : f.hidden / 2 ≠ 0 := by
    have : 2 ≤ f.hidden := by
      rw [hidden]
      exact Nat.le_self_pow (by omega) 2
    omega
  have hd := decode_fields (f := f) false topExponent_lt hH
  rw [if_pos rfl, if_neg hne] at hd
  simpa [nanBits, zeroBits] using hd

theorem nanBits_lt : f.nanBits < 2 ^ f.width := by
  have hH : f.hidden / 2 < f.hidden := Nat.div_lt_self hidden_pos (by decide)
  have hlt := fields_lt (f := f) false topExponent_lt hH
  simpa [nanBits, zeroBits] using hlt

/-- Every value stored in single precision is stored in double precision, its significand moved
to the top place. -/
theorem Fits.widen_single {m : Nat} {e : Int} (h : single.Fits m e) :
    ∃ M E, double.Fits M E ∧ m * 2 ^ (e - E).toNat = M * 2 ^ (E - e).toNat := by
  have hs : single.hidden = 2 ^ 23 := rfl
  have hsm : single.minExp = -149 := rfl
  have hsT : single.topExponent = 255 := rfl
  have hdp : double.fractionBits = 52 := rfl
  have hdm : double.minExp = -1074 := rfl
  have hdT : double.topExponent = 2047 := rfl
  by_cases hm : m = 0
  · subst hm
    exact ⟨0, double.minExp, .inl ⟨hidden_pos, rfl, by rw [hdT]; decide⟩, by simp⟩
  -- a single-precision significand has at most 24 bits, its exponent lies in `[-149, 105)`
  have hL : m.log2 ≤ 23 := by
    have hlt : m < 2 ^ 24 := by
      rcases h with ⟨hlt, -⟩ | ⟨-, hlt, -⟩ <;> omega
    have := (Nat.log2_lt hm).mpr hlt
    omega
  have he : -149 ≤ e ∧ e < 105 := by
    rcases h with ⟨-, rfl, -⟩ | ⟨-, -, he, hT⟩ <;> omega
  have hnormal := normal_of_scaled (f := double) (M := m * 2 ^ (52 - m.log2)) (a := 0)
    (b := 52 - m.log2) hm rfl (by rw [Nat.pow_zero, Nat.mul_one]) (by omega)
  refine ⟨m * 2 ^ (52 - m.log2), e - (52 - m.log2 : Nat),
    .inr ⟨hnormal.1, hnormal.2, by omega, by omega⟩, ?_⟩
  rw [show (e - (e - ((52 - m.log2 : Nat) : Int))).toNat = 52 - m.log2 by omega,
    show (e - ((52 - m.log2 : Nat) : Int) - e).toNat = 0 by omega, Nat.pow_zero, Nat.mul_one]

end FloatFormat

namespace BinaryFloat

variable {f g : FloatFormat}

theorem classify_nan (h : 0 < f.fractionBits) : (nan : BinaryFloat f).classify = .nan := by
  simp only [classify, nan, ofBits, BitVec.toNat_ofNat, Nat.mod_eq_of_lt FloatFormat.nanBits_lt]
  exact FloatFormat.decode_nanBits h

theorem isNaN_nan (h : 0 < f.fractionBits) : (nan : BinaryFloat f).isNaN = true := by
  simp [isNaN, classify_nan h]

/-- A NaN converts to the NaN of the other format. -/
theorem convert_of_isNaN {x : BinaryFloat f} (hx : x.isNaN = true) :
    (x.convert : BinaryFloat g) = nan := by
  unfold isNaN at hx
  unfold convert
  split at hx <;> simp_all

/-- A value that is not NaN comes back from a format that stores every value of its own. -/
theorem convert_convert {x : BinaryFloat f} (hx : x.isNaN = false)
    (hw : ∀ {m : Nat} {e : Int}, f.Fits m e →
      ∃ M E, g.Fits M E ∧ m * 2 ^ (e - E).toNat = M * 2 ^ (E - e).toNat) :
    ((x.convert : BinaryFloat g).convert : BinaryFloat f) = x := by
  cases hc : x.classify with
  | nan => simp [isNaN, hc] at hx
  | infinite s =>
    have h₁ : (x.convert : BinaryFloat g) = inf s := by
      unfold convert
      rw [hc]
    rw [h₁, eq_inf hc]
    unfold convert
    rw [classify_inf]
  | finite s m e =>
    obtain ⟨hfits, hxe⟩ := eq_ofBits_pack hc
    obtain ⟨M, E, hM, hv⟩ := hw hfits
    rw [convert_of_fits hc hM hv, convert_of_fits (classify_ofBits_pack s hM) hfits hv.symm, ← hxe]

end BinaryFloat

end Georaster
