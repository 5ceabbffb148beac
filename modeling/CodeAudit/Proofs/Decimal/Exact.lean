import CodeAudit.Decimal.Shortest
import Mathlib.Algebra.Order.Field.Power
import Mathlib.Data.Rat.Floor
import Mathlib.Tactic.FieldSimp
import Mathlib.Tactic.Positivity
import Mathlib.Tactic.Ring

/-!
# The bits of a double

`Parts.ofFloat` reads a double off its bits with division and remainder; arithmetic unpacks the same bits into sign,
significand and exponent. Both views lead to one number, `bitsOf`: the parts of a finite double are what arithmetic
works on (`unpack_of_ofFloat`), packing a significand and an exponent of the right size gives a double with these parts
(`ofFloat_pack`), and a double is known by its parts (`ofFloat_inj`).
-/

namespace CodeAudit.Decimal

open Float.Model Float.Model.UnpackedFloat Bool Format Nat Parts Float

variable {x y : Float} {negative : Bool} {m : Nat} {q : Int} (b : BitVec 64)

/-! ## The three fields of the bits -/

lemma toNat_unpackMantissa : (@unpackMantissa binary64 b).toNat = b.toNat % 2 ^ 52 := by
  simp [unpackMantissa, BitVec.extractLsb, BitVec.extractLsb'_toNat]

lemma toNat_unpackExponent : (@unpackExponent binary64 b).toNat = b.toNat / 2 ^ 52 % 2 ^ 11 := by
  simp [unpackExponent, BitVec.extractLsb, BitVec.extractLsb'_toNat, shiftRight_eq_div_pow]

lemma toNat_unpackSign : (@unpackSign binary64 b).toNat = b.toNat / 2 ^ 63 := by
  have hlt := b.isLt
  have hone : b.toNat / 2 ^ 63 % 2 = b.toNat / 2 ^ 63 := by omega
  unfold unpackSign
  simpa [BitVec.extractLsb, BitVec.extractLsb'_toNat, shiftRight_eq_div_pow] using hone

lemma toNat_packComponents (s : Sign) (e : BitVec 11) (m : BitVec 52) :
    (packComponents binary64 s e m).toNat = (s.toBitVec.toNat * 2 ^ 11 + e.toNat) * 2 ^ 52 + m.toNat := by
  unfold packComponents
  rw [BitVec.toNat_append, BitVec.toNat_append, ← shiftLeft_add_eq_or_of_lt m.isLt,
    ← shiftLeft_add_eq_or_of_lt e.isLt, shiftLeft_eq, shiftLeft_eq]

def signOf (negative : Bool) : Sign := if negative then .negative else .positive

lemma toNat_toBitVec_signOf (negative : Bool) : (signOf negative).toBitVec.toNat = negative.toNat := by
  cases negative <;> rfl

/-! ## Finite doubles -/

/-- A significand and an exponent as a double has them: fifty-three bits, and fewer only at the least exponent. -/
structure IsCanonical (m : Nat) (q : Int) : Prop where
  lt : m < 2 ^ 53
  low : -1074 ≤ q
  high : q ≤ 971
  full : 2 ^ 52 ≤ m ∨ q = -1074

def bitsOf (negative : Bool) (m : Nat) (q : Int) : Nat :=
  (negative.toNat * 2 ^ 11 + (if m < 2 ^ 52 then 0 else (q + 1075).toNat)) * 2 ^ 52 + m % 2 ^ 52

lemma ofFloat_eq_finite (h : ofFloat x = .finite negative m q) :
    IsCanonical m q ∧ x.toBits.toNat = bitsOf negative m q := by
  have hbits := x.toBits.toNat_lt
  unfold ofFloat at h
  dsimp only at h
  unfold bitsOf
  generalize x.toBits.toNat = bits at h hbits
  have hnegative : (bits / 2 ^ 63 == 1).toNat = bits / 2 ^ 63 := by
    rcases (by omega : bits / 2 ^ 63 = 0 ∨ bits / 2 ^ 63 = 1) with hsign | hsign <;> rw [hsign] <;> rfl
  split at h
  · split at h <;> cases h
  · next hfinite =>
    rw [beq_iff_eq] at hfinite
    split at h
    · next hzero =>
      rw [beq_iff_eq] at hzero
      cases h
      rw [hnegative, if_pos (by omega)]
      exact ⟨⟨by omega, by omega, by omega, by omega⟩, by omega⟩
    · next hnormal =>
      rw [beq_iff_eq] at hnormal
      cases h
      rw [hnegative, if_neg (by omega)]
      exact ⟨⟨by omega, by omega, by omega, by omega⟩, by omega⟩

lemma ofFloat_of_bits (h : IsCanonical m q)
    (hbits : x.toBits.toNat = bitsOf negative m q) : ofFloat x = .finite negative m q := by
  obtain ⟨hlt, hlow, hhigh, hfull⟩ := h
  have hnegative : (x.toBits.toNat / 2 ^ 63 == 1) = negative := by
    rw [hbits, bitsOf, Bool.eq_iff_iff, beq_iff_eq]
    cases negative with
    | true =>
      rw [toNat_true, eq_self_iff_true, iff_true]
      split <;> omega
    | false =>
      rw [toNat_false]
      simp only [false_eq_true, iff_false]
      split <;> omega
  have hfraction : x.toBits.toNat % 2 ^ 52 = m % 2 ^ 52 := by
    rw [hbits, bitsOf]
    omega
  unfold ofFloat
  dsimp only
  rw [hnegative, hfraction]
  by_cases hsmall : m < 2 ^ 52
  · have hbiased : x.toBits.toNat / 2 ^ 52 % 2 ^ 11 = 0 := by
      rw [hbits, bitsOf, if_pos hsmall]
      omega
    have hq : q = -1074 := by omega
    rw [hbiased, if_neg (by decide), if_pos (by decide), hq, mod_eq_of_lt hsmall]
  · have hbiased : x.toBits.toNat / 2 ^ 52 % 2 ^ 11 = (q + 1075).toNat := by
      rw [hbits, bitsOf, if_neg hsmall]
      omega
    have hm : 2 ^ 52 + m % 2 ^ 52 = m := by omega
    have hq : (((q + 1075).toNat : Nat) : Int) - 1075 = q := by omega
    rw [hbiased, if_neg (by rw [beq_iff_eq]; omega), if_neg (by rw [beq_iff_eq]; omega), hm, hq]

lemma ofFloat_pack (h : IsCanonical m q) (hpos : 0 < m) :
    ofFloat (.ofModel (.pack (.finite (signOf negative) m q hpos))) = .finite negative m q := by
  refine ofFloat_of_bits h ?_
  obtain ⟨hlt, hlow, hhigh, hfull⟩ := h
  change (pack binary64 (.finite (signOf negative) m q hpos)).toNat = _
  have hbias : (q + (binary64.exponentBias : Int) + ((52 : Nat) : Int)).toNat = (q + 1075).toNat := by
    rw [show binary64.exponentBias = 1023 from rfl]
    omega
  have hnormal : m.log2 + 1 = binary64.mantissaBits ↔ 2 ^ 52 ≤ m := by
    rw [show binary64.mantissaBits = 52 + 1 from rfl, add_right_cancel_iff, log2_eq_iff (by omega)]
    omega
  unfold UnpackedFloat.pack bitsOf
  dsimp only
  rw [hbias, if_neg (by omega)]
  split
  · next hfullBits =>
    rw [toNat_packComponents, toNat_toBitVec_signOf, BitVec.toNat_ofNat, BitVec.toNat_ofNat, if_neg (by omega),
      mod_eq_of_lt (by omega)]
  · next hsmall =>
    rw [toNat_packComponents, toNat_toBitVec_signOf, BitVec.toNat_ofNat, BitVec.toNat_ofNat, if_pos (by omega),
      zero_mod]

lemma unpack_of_ofFloat (h : ofFloat x = .finite negative m q) (hpos : 0 < m) :
    x.toModel.unpack = .finite (signOf negative) m q hpos := by
  obtain ⟨⟨hlt, hlow, hhigh, hfull⟩, hbits⟩ := ofFloat_eq_finite h
  generalize hvec : x.toModel.toBits.toBitVec = vec
  have hbits' : vec.toNat = bitsOf negative m q := by
    rw [← hbits, ← hvec]
    rfl
  have hmantissa : (@unpackMantissa binary64 vec).toNat = m % 2 ^ 52 := by
    rw [toNat_unpackMantissa, hbits', bitsOf]
    omega
  have hexponent : (@unpackExponent binary64 vec).toNat = if m < 2 ^ 52 then 0 else (q + 1075).toNat := by
    rw [toNat_unpackExponent, hbits', bitsOf]
    split <;> omega
  have hsign : Sign.ofBitVec (@unpackSign binary64 vec) = signOf negative := by
    have hbit : @unpackSign binary64 vec = (signOf negative).toBitVec := by
      apply BitVec.eq_of_toNat_eq
      rw [toNat_unpackSign, toNat_toBitVec_signOf, hbits', bitsOf]
      split <;> omega
    rw [hbit]
    cases negative <;> rfl
  have hbias : ((binary64.exponentBias : Int) + ((52 : Nat) : Int)) = 1075 := rfl
  have hinfinite : @unpackExponent binary64 vec ≠ -1#11 := by
    intro heq
    rw [heq, show (-1#11 : BitVec 11).toNat = 2047 from rfl] at hexponent
    split at hexponent <;> omega
  unfold Model.unpack UnpackedFloat.unpack
  dsimp only
  rw [hvec, hsign, hbias, if_neg hinfinite]
  by_cases hsmall : m < 2 ^ 52
  · rw [if_pos hsmall] at hexponent
    have hnonzero : @unpackMantissa binary64 vec ≠ 0#52 := by
      intro heq
      rw [heq, show (0#52 : BitVec 52).toNat = 0 from rfl] at hmantissa
      omega
    rw [if_pos (BitVec.eq_of_toNat_eq hexponent), dif_neg hnonzero, UnpackedFloat.finite.injEq]
    exact ⟨rfl, by omega, by omega⟩
  · rw [if_neg hsmall] at hexponent
    have hnormal : @unpackExponent binary64 vec ≠ 0#11 := by
      intro heq
      rw [heq, show (0#11 : BitVec 11).toNat = 0 from rfl] at hexponent
      omega
    have hwhole : (1#1 ++ @unpackMantissa binary64 vec).toNat = 2 ^ 52 + m % 2 ^ 52 := by
      rw [BitVec.toNat_append, ← shiftLeft_add_eq_or_of_lt (BitVec.isLt _), hmantissa]
      rfl
    rw [if_neg hnormal, UnpackedFloat.finite.injEq, hwhole]
    exact ⟨rfl, by omega, by omega⟩

/-! ## A double is known by its parts -/

lemma toBits_inj (h : x.toBits.toNat = y.toBits.toNat) : x = y := by
  have hbits : x.toBits = y.toBits := UInt64.toNat_inj.mp h
  rcases x with ⟨⟨b, hb⟩⟩
  rcases y with ⟨⟨c, hc⟩⟩
  have hsame : b = c := hbits
  subst hsame
  rfl

lemma toBits_of_infinite (h : ofFloat x = .infinite negative) :
    x.toBits.toNat = (negative.toNat * 2 ^ 11 + 2047) * 2 ^ 52 := by
  have hbits := x.toBits.toNat_lt
  unfold ofFloat at h
  dsimp only at h
  generalize x.toBits.toNat = bits at h hbits
  split at h
  · next hbiased =>
    rw [beq_iff_eq] at hbiased
    split at h
    · next hfraction =>
      rw [beq_iff_eq] at hfraction
      cases h
      rcases (by omega : bits / 2 ^ 63 = 0 ∨ bits / 2 ^ 63 = 1) with hsign | hsign
      · rw [hsign, show (0 == 1 : Bool).toNat = 0 from rfl]
        omega
      · rw [hsign, show (1 == 1 : Bool).toNat = 1 from rfl]
        omega
    · cases h
  · split at h <;> cases h

lemma toBits_of_notANumber (h : ofFloat x = .notANumber) : x.toBits.toNat = (packedNaN binary64).toNat := by
  have hbits : x.toModel.toBits.toBitVec.toNat = x.toBits.toNat := rfl
  unfold ofFloat at h
  dsimp only at h
  split at h
  · next hbiased =>
    split at h
    · cases h
    · next hfraction =>
      rw [beq_iff_eq, ← hbits] at hbiased hfraction
      rw [← hbits, x.toModel.valid.eq_packedNaN]
      · apply BitVec.eq_of_toNat_eq
        rw [toNat_unpackExponent, hbiased]
        rfl
      · intro hzero
        refine hfraction ?_
        rw [← toNat_unpackMantissa, hzero]
        rfl
  · split at h <;> cases h

/-- **A double is known by its parts.** -/
lemma ofFloat_inj (h : ofFloat x = ofFloat y) : x = y := by
  refine toBits_inj ?_
  cases hy : ofFloat y with
  | notANumber => rw [toBits_of_notANumber hy, toBits_of_notANumber (h.trans hy)]
  | infinite negative => rw [toBits_of_infinite hy, toBits_of_infinite (h.trans hy)]
  | finite negative m q => rw [(ofFloat_eq_finite hy).2, (ofFloat_eq_finite (h.trans hy)).2]

/-!
## Exact results are not rounded

Arithmetic rounds a significand of any length to fifty-three bits. Where the exact number is that of a double, the bits
that are dropped are zeros, and rounding gives this double (`roundWithAccuracy_exact`).
-/

open ExtendedMantissa UnpackedFloat

variable {m n : Nat} {q e : Int} {acc : Accuracy} {s : Sign}

/-! ## Fractions -/

def Ratio.value (r : Ratio) : ℚ := r.num / r.den

lemma Ratio.den_ofBinary_pos (m : Nat) (q : Int) : 0 < (ofBinary m q).den := by
  unfold ofBinary
  split
  · exact one_pos
  · exact Nat.pow_pos (by decide)

lemma Ratio.value_ofBinary (m : Nat) (q : Int) : (ofBinary m q).value = m * 2 ^ q := by
  unfold ofBinary value
  split
  · next hq =>
    obtain ⟨n, rfl⟩ := Int.eq_ofNat_of_zero_le hq
    simp
  · next hq =>
    obtain ⟨n, hn⟩ := Int.eq_ofNat_of_zero_le (show 0 ≤ -q by omega)
    have hq' : q = -(n : Int) := by omega
    subst hq'
    simp [div_eq_mul_inv]

/-! ## Powers of two -/

lemma two_zpow_add (q : Int) (k : Nat) : (2 : ℚ) ^ (q + k) = 2 ^ k * 2 ^ q := by
  rw [zpow_add₀ two_ne_zero, zpow_natCast, mul_comm]

lemma lt_of_two_zpow_le {v : ℚ} {a b : Int} (hlow : 2 ^ a ≤ v) (hhigh : v < 2 ^ b) : a < b :=
  (zpow_lt_zpow_iff_right₀ one_lt_two).mp (hlow.trans_lt hhigh)

/-- A number is within the powers of two that its number of bits gives. -/
lemma zpow_totalExponent_bounds (hn : 0 < n) (e : Int) :
    (2 : ℚ) ^ (totalExponent n e - 1) ≤ n * 2 ^ e ∧ (n : ℚ) * 2 ^ e < 2 ^ totalExponent n e := by
  have hplace : (0 : ℚ) < 2 ^ e := by positivity
  have hself : (2 : ℚ) ^ n.log2 ≤ n := by exact_mod_cast log2_self_le hn.ne'
  have hnext : (n : ℚ) < 2 ^ (n.log2 + 1) := by exact_mod_cast lt_log2_self
  have hbelow : totalExponent n e - 1 = e + n.log2 := by
    rw [totalExponent]
    omega
  have habove : totalExponent n e = e + (n.log2 + 1 : Nat) := by
    rw [totalExponent]
    omega
  rw [hbelow, habove, two_zpow_add, two_zpow_add]
  exact ⟨mul_le_mul_of_nonneg_right hself hplace.le, mul_lt_mul_of_pos_right hnext hplace⟩

/-- A number in smaller units has a significand with zeros at its end. -/
lemma eq_mul_two_pow (hvalue : (n : ℚ) * 2 ^ e = m * 2 ^ q) (hle : e ≤ q) : n = m * 2 ^ (q - e).toNat := by
  have hplace : (0 : ℚ) < 2 ^ e := by positivity
  have hunits : (2 : ℚ) ^ q = 2 ^ (q - e).toNat * 2 ^ e := by
    rw [← two_zpow_add, Int.toNat_of_nonneg (by omega), add_sub_cancel]
  rw [hunits, ← mul_assoc] at hvalue
  exact_mod_cast mul_right_cancel₀ hplace.ne' hvalue

/-! ## Rounding -/

lemma targetExponent_eq (t : Int) : binary64.targetExponent t = max (t - 53) (-1074) := rfl

lemma shiftToTargetExponent_eq (hle : e ≤ binary64.targetExponent (totalExponent n e)) :
    shiftToTargetExponent binary64 n e acc =
      (ofMantissaAndAccuracy n acc >>> (binary64.targetExponent (totalExponent n e) - e).toNat,
        binary64.targetExponent (totalExponent n e)) := by
  unfold shiftToTargetExponent shiftToExponent
  dsimp only
  rw [Int.toNat_of_nonneg (by omega), add_sub_cancel]

/-- The significand of a number has as many bits at the exponent of the double as the double's own. -/
lemma targetExponent_of_value (hm : IsCanonical m q) (hpos : 0 < m) (hn : 0 < n)
    (hvalue : (n : ℚ) * 2 ^ e = m * 2 ^ q) : binary64.targetExponent (totalExponent n e) = q := by
  obtain ⟨hlow, hhigh⟩ := zpow_totalExponent_bounds hn e
  obtain ⟨hlow', hhigh'⟩ := zpow_totalExponent_bounds hpos q
  rw [hvalue] at hlow hhigh
  have hless := lt_of_two_zpow_le hlow hhigh'
  have hless' := lt_of_two_zpow_le hlow' hhigh
  have hlog : m.log2 < 53 := (log2_lt hpos.ne').mpr hm.lt
  have hleast := hm.low
  have htotal : totalExponent m q = m.log2 + 1 + q := rfl
  rw [targetExponent_eq]
  rcases hm.full with hfull | hsmall
  · have hlog' := (le_log2 hpos.ne').mpr hfull
    omega
  · omega

lemma shiftRight_exact (m k : Nat) :
    ofMantissaAndAccuracy (m * 2 ^ k) .exact >>> k = ofMantissaAndAccuracy m .exact := by
  induction k generalizing m with
  | zero =>
    rw [pow_zero, mul_one]
    rfl
  | succ k ih =>
    have hstep : ∀ em : ExtendedMantissa, em >>> (k + 1) = (em >>> k).shiftRightOne := fun _ => rfl
    rw [hstep, pow_succ', ← mul_assoc, ih]
    simp [ofMantissaAndAccuracy, shiftRightOne]

/-- **A number that a double has is rounded to this double.** -/
lemma roundWithAccuracy_exact (hm : IsCanonical m q) (hpos : 0 < m) (hle : e ≤ q)
    (hvalue : (n : ℚ) * 2 ^ e = m * 2 ^ q) : roundWithAccuracy binary64 s n e .exact = .finite s m q hpos := by
  have hn := eq_mul_two_pow hvalue hle
  have hnpos : 0 < n := hn ▸ Nat.mul_pos hpos (Nat.two_pow_pos _)
  have hfirst := targetExponent_of_value hm hpos hnpos hvalue
  have hagain := targetExponent_of_value hm hpos hpos rfl
  have hrounded : (ofMantissaAndAccuracy m .exact).roundedMantissa = m := rfl
  unfold roundWithAccuracy
  rw [shiftToTargetExponent_eq (hfirst.symm ▸ hle), hfirst]
  dsimp only
  rw [hn, shiftRight_exact, hrounded, shiftToTargetExponent_eq hagain.symm.le, hagain]
  dsimp only
  have hlast : (ofMantissaAndAccuracy m .exact >>> (q - q).toNat).mantissa = m := by
    rw [Int.sub_self]
    rfl
  rw [dif_neg (by omega), UnpackedFloat.finite.injEq]
  exact ⟨rfl, hlast, rfl⟩

/-! ## Products and quotients -/

section Arithmetic

variable {s₁ s₂ : Sign} {m₁ m₂ : Nat} {e₁ e₂ : Int} {h₁ : 0 < m₁} {h₂ : 0 < m₂}

lemma mul_finite (hm : IsCanonical m q) (hpos : 0 < m) (hbits : 2 ^ 52 ≤ m₁)
    (hvalue : ((m₁ : ℚ) * 2 ^ e₁) * (m₂ * 2 ^ e₂) = m * 2 ^ q) :
    mul binary64 (.finite s₁ m₁ e₁ h₁) (.finite s₂ m₂ e₂ h₂) = .finite (s₁ * s₂) m q hpos := by
  have hproduct : ((m₁ * m₂ : Nat) : ℚ) * 2 ^ (e₁ + e₂) = m * 2 ^ q := by
    rw [← hvalue, zpow_add₀ two_ne_zero, cast_mul, mul_mul_mul_comm]
  -- The product has at least the bits of a double, so its units are not larger than those of the double.
  have hfull : 2 ^ 52 ≤ m₁ * m₂ := hbits.trans (Nat.le_mul_of_pos_right m₁ h₂)
  have hlog := (le_log2 (by omega)).mpr hfull
  have htarget := targetExponent_of_value hm hpos (by omega) hproduct
  rw [targetExponent_eq, totalExponent] at htarget
  exact roundWithAccuracy_exact hm hpos (by omega) hproduct

lemma div_finite (hm : IsCanonical m q) (hpos : 0 < m)
    (hvalue : ((m₁ : ℚ) * 2 ^ e₁) / (m₂ * 2 ^ e₂) = m * 2 ^ q) :
    div binary64 (.finite s₁ m₁ e₁ h₁) (.finite s₂ m₂ e₂ h₂) = .finite (s₁ / s₂) m q hpos := by
  have hden : (m₂ : ℚ) ≠ 0 := cast_ne_zero.mpr h₂.ne'
  have hnum : (m₁ : ℚ) * 2 ^ e₁ = m * 2 ^ q * (m₂ * 2 ^ e₂) := (div_eq_iff (by positivity)).mp hvalue
  -- The quotient is taken in units that are not larger than those of the double.
  have hunits : binary64.targetExponent (totalExponent m₁ e₁ - totalExponent m₂ e₂) ≤ q := by
    have hlog : m.log2 < 53 := (log2_lt hpos.ne').mpr hm.lt
    have htotal : totalExponent m q = m.log2 + 1 + q := rfl
    have hupper : (m₁ : ℚ) * 2 ^ e₁ < 2 ^ (totalExponent m q + totalExponent m₂ e₂) := by
      rw [hnum, zpow_add₀ two_ne_zero]
      exact mul_lt_mul'' (zpow_totalExponent_bounds hpos q).2 (zpow_totalExponent_bounds h₂ e₂).2 (by positivity)
        (by positivity)
    have hless := lt_of_two_zpow_le (zpow_totalExponent_bounds h₁ e₁).1 hupper
    have hleast := hm.low
    rw [targetExponent_eq]
    omega
  unfold UnpackedFloat.div divCore
  dsimp only
  generalize he : min (e₁ - e₂) (binary64.targetExponent (totalExponent m₁ e₁ - totalExponent m₂ e₂)) = e
  have hle : e ≤ q := by omega
  have hshifted : m₁ <<< (e₁ - e₂ - e).toNat = m * 2 ^ (q - e).toNat * m₂ := by
    have hshift : (2 : ℚ) ^ (e₁ - e₂ - e).toNat = 2 ^ (e₁ - e₂ - e) := by
      rw [← zpow_natCast, Int.toNat_of_nonneg (by omega)]
    have hback : (2 : ℚ) ^ (q - e).toNat = 2 ^ (q - e) := by
      rw [← zpow_natCast, Int.toNat_of_nonneg (by omega)]
    have hcast : ((m₁ * 2 ^ (e₁ - e₂ - e).toNat : Nat) : ℚ) = (m * 2 ^ (q - e).toNat * m₂ : Nat) := by
      push_cast
      rw [hshift, hback, zpow_sub₀ two_ne_zero, zpow_sub₀ two_ne_zero, zpow_sub₀ two_ne_zero]
      field_simp
      rw [hnum]
      ring
    rw [shiftLeft_eq]
    exact_mod_cast hcast
  rw [hshifted, Nat.mul_div_cancel _ h₂, Nat.mul_mod_left]
  refine roundWithAccuracy_exact hm hpos hle ?_
  rw [cast_mul, cast_pow, cast_ofNat, mul_assoc, ← two_zpow_add, Int.toNat_of_nonneg (by omega), add_sub_cancel]

end Arithmetic

/-!
## Reading the decimal of a double gives the double

If `d · 10^e` is the value of a double, reading it gives this double (`ofScientific_eq`). Few digits and a small
exponent are read by one product or quotient of two exact doubles, all else by one of whole numbers. The exponents cut
off beforehand are out of reach.
-/

open Ratio

variable {e d m : Nat} {x : Float} {q : Int}

/-! ## Doubles from their parts -/

/-- A positive double, with its significand and exponent. -/
structure IsPositive (x : Float) (m : Nat) (q : Int) : Prop where
  pos : 0 < m
  parts : Parts.ofFloat x = .finite false m q

lemma isPositive_pack (h : IsCanonical m q) (hpos : 0 < m) :
    IsPositive (.ofModel (.pack (.finite .positive m q hpos))) m q :=
  ⟨hpos, @ofFloat_pack false m q h hpos⟩

section Parts

variable {x : Float} {m : Nat} {q : Int} (h : IsPositive x m q) {a b : Float} {m₁ m₂ : Nat} {e₁ e₂ : Int}

include h

lemma IsPositive.isCanonical : IsCanonical m q := (ofFloat_eq_finite h.parts).1

lemma IsPositive.unpack : x.toModel.unpack = .finite .positive m q h.pos := unpack_of_ofFloat h.parts h.pos

lemma IsPositive.ofModel_pack : Float.ofModel (.pack (.finite .positive m q h.pos)) = x :=
  ofFloat_inj ((isPositive_pack h.isCanonical h.pos).parts.trans h.parts.symm)

lemma IsPositive.div_eq (ha : IsPositive a m₁ e₁) (hb : IsPositive b m₂ e₂)
    (hvalue : ((m₁ : ℚ) * 2 ^ e₁) / (m₂ * 2 ^ e₂) = m * 2 ^ q) : a / b = x := by
  have hunpacked : a / b = Float.ofModel (.pack (div binary64 a.toModel.unpack b.toModel.unpack)) :=
    rfl
  rw [hunpacked, ha.unpack, hb.unpack, div_finite h.isCanonical h.pos hvalue]
  exact h.ofModel_pack

lemma IsPositive.mul_eq (ha : IsPositive a m₁ e₁) (hb : IsPositive b m₂ e₂)
    (hbits : 2 ^ 52 ≤ m₁) (hvalue : ((m₁ : ℚ) * 2 ^ e₁) * (m₂ * 2 ^ e₂) = m * 2 ^ q) : a * b = x := by
  have hunpacked : a * b = Float.ofModel (.pack (mul binary64 a.toModel.unpack b.toModel.unpack)) :=
    rfl
  rw [hunpacked, ha.unpack, hb.unpack, mul_finite h.isCanonical h.pos hbits hvalue]
  exact h.ofModel_pack

end Parts

/-! ## Doubles that are whole numbers -/

section Whole

variable {n : Nat} (hpos : 0 < n) (hlt : n < 2 ^ 53)

include hpos hlt

lemma isCanonical_shiftLeft :
    2 ^ 52 ≤ n <<< (52 - n.log2) ∧ IsCanonical (n <<< (52 - n.log2)) ((n.log2 : Int) - 52) := by
  have hlog : n.log2 < 53 := (log2_lt hpos.ne').mpr hlt
  have hlong : 2 ^ 52 ≤ n <<< (52 - n.log2) := by
    rw [shiftLeft_eq]
    calc 2 ^ 52 = 2 ^ (n.log2 + (52 - n.log2)) := by rw [Nat.add_sub_cancel' (by omega)]
      _ = 2 ^ n.log2 * 2 ^ (52 - n.log2) := pow_add ..
      _ ≤ n * 2 ^ (52 - n.log2) := mul_le_mul_right _ (log2_self_le hpos.ne')
  have hshort : n <<< (52 - n.log2) < 2 ^ 53 := by
    rw [shiftLeft_eq]
    calc n * 2 ^ (52 - n.log2) < 2 ^ (n.log2 + 1) * 2 ^ (52 - n.log2) :=
          Nat.mul_lt_mul_of_pos_right Nat.lt_log2_self (Nat.pow_pos (by decide))
      _ = 2 ^ (n.log2 + 1 + (52 - n.log2)) := (pow_add ..).symm
      _ = 2 ^ 53 := by rw [show n.log2 + 1 + (52 - n.log2) = 53 by omega]
  exact ⟨hlong, hshort, by omega, by omega, .inl hlong⟩

lemma shiftLeft_value : ((n <<< (52 - n.log2) : Nat) : ℚ) * 2 ^ ((n.log2 : Int) - 52) = n := by
  have hlog : n.log2 < 53 := (log2_lt hpos.ne').mpr hlt
  have hzero : ((52 - n.log2 : Nat) : Int) + ((n.log2 : Int) - 52) = 0 := by omega
  rw [shiftLeft_eq, cast_mul, cast_pow, cast_ofNat, mul_assoc, ← zpow_natCast,
    ← zpow_add₀ two_ne_zero, hzero, zpow_zero, mul_one]

lemma ofNat_eq (hlong : 0 < n <<< (52 - n.log2)) : ofNat binary64 n =
    .finite .positive (n <<< (52 - n.log2)) ((n.log2 : Int) - 52) hlong := by
  have hlog : n.log2 < 53 := (log2_lt hpos.ne').mpr hlt
  have hcompare : compare (n : Int) 0 = .gt := by
    rw [compare_gt_iff_gt]
    omega
  have htarget : binary64.targetExponent (totalExponent n 0) = (n.log2 : Int) - 52 := by
    rw [targetExponent_eq, totalExponent]
    omega
  have hshift : (0 - ((n.log2 : Int) - 52)).toNat = 52 - n.log2 := by omega
  have hexponent : (0 : Int) - ((52 - n.log2 : Nat) : Int) = (n.log2 : Int) - 52 := by omega
  obtain ⟨hbits, hcanonical⟩ := isCanonical_shiftLeft hpos hlt
  unfold UnpackedFloat.ofNat UnpackedFloat.ofInt UnpackedFloat.normalize
  rw [hcompare]
  dsimp only
  unfold UnpackedFloat.round decreaseExponent
  dsimp only
  rw [Int.toNat_natCast, htarget, hshift, hexponent]
  exact roundWithAccuracy_exact hcanonical hlong le_rfl rfl

lemma isPositive_toFloat : IsPositive n.toUInt64.toFloat (n <<< (52 - n.log2)) ((n.log2 : Int) - 52) := by
  obtain ⟨hbits, hcanonical⟩ := isCanonical_shiftLeft hpos hlt
  have hlong : 0 < n <<< (52 - n.log2) := by omega
  have hsmall : n.toUInt64.toNat = n := by
    rw [Nat.toUInt64, UInt64.toNat_ofNat']
    omega
  have hmodel : n.toUInt64.toFloat = .ofModel (.pack (ofNat binary64 n.toUInt64.toNat)) := rfl
  rw [hmodel, hsmall, ofNat_eq hpos hlt hlong]
  exact isPositive_pack hcanonical hlong

end Whole

def isTenPow (e : Nat) (x : Float) : Bool :=
  match Parts.ofFloat x with
  | .finite false m q => (ofBinary m q).num == 10 ^ e * (ofBinary m q).den
  | _ => false

lemma isTenPow_table : ∀ e, (h : e < exactlyRepresentablePowersOfTen.size) →
    isTenPow e (exactlyRepresentablePowersOfTen[e]) := by
  decide +kernel

lemma isPositive_of_isTenPow (h : isTenPow e x) : ∃ m q, IsPositive x m q ∧ (m : ℚ) * 2 ^ q = 10 ^ e := by
  unfold isTenPow at h
  split at h
  · next m q hparts =>
    rw [beq_iff_eq] at h
    have hden : ((ofBinary m q).den : ℚ) ≠ 0 := cast_ne_zero.mpr (den_ofBinary_pos m q).ne'
    have hvalue : (m : ℚ) * 2 ^ q = 10 ^ e := by
      rw [← value_ofBinary, value, h, cast_mul, mul_div_assoc, div_self hden, mul_one]
      push_cast
      rfl
    refine ⟨m, q, ⟨pos_of_ne_zero ?_, hparts⟩, hvalue⟩
    rintro rfl
    have hten : (0 : ℚ) < 10 ^ e := by positivity
    rw [← hvalue, cast_zero, zero_mul] at hten
    exact lt_irrefl 0 hten
  · cases h

/-! ## Decimals -/

lemma isPositive_table (h : e < exactlyRepresentablePowersOfTen.size) :
    ∃ m q, IsPositive exactlyRepresentablePowersOfTen[e] m q ∧ (m : ℚ) * 2 ^ q = 10 ^ e :=
  isPositive_of_isTenPow (isTenPow_table e h)

lemma two_pow_le_ten_pow (k : Nat) : (2 : ℚ) ^ (3 * k) ≤ 10 ^ k := by
  rw [pow_mul]
  exact pow_le_pow_left₀ (by norm_num) (by norm_num) k

section Decimals

variable {x : Float} {m : Nat} {q : Int} (h : IsPositive x m q)

include h

lemma IsPositive.range : (2 : ℚ) ^ (-1074 : Int) ≤ m * 2 ^ q ∧ (m : ℚ) * 2 ^ q < 2 ^ (1024 : Int) := by
  obtain ⟨hlt, hleast, hmost, -⟩ := h.isCanonical
  have hone : (1 : ℚ) ≤ m := by exact_mod_cast h.pos
  have hlong : (m : ℚ) < 2 ^ 53 := by exact_mod_cast hlt
  constructor
  · calc (2 : ℚ) ^ (-1074 : Int) ≤ 2 ^ q := zpow_le_zpow_right₀ one_le_two hleast
      _ ≤ m * 2 ^ q := le_mul_of_one_le_left (by positivity) hone
  · calc (m : ℚ) * 2 ^ q < 2 ^ 53 * 2 ^ q := mul_lt_mul_of_pos_right hlong (by positivity)
      _ = 2 ^ (q + (53 : Nat)) := (two_zpow_add q 53).symm
      _ ≤ 2 ^ (1024 : Int) := zpow_le_zpow_right₀ one_le_two (by omega)

/-- A negative exponent of a decimal that a double has is not cut off. -/
lemma IsPositive.le_exponent (hvalue : (d : ℚ) / 10 ^ e = m * 2 ^ q) : e ≤ d.log2 / 3 + 400 := by
  have hlog : (d : ℚ) < 2 ^ (d.log2 + 1) := by exact_mod_cast lt_log2_self
  have hten : (0 : ℚ) < 10 ^ e := by positivity
  have hless : (2 : ℚ) ^ (-1074 + ((3 * e : Nat) : Int)) < 2 ^ ((d.log2 + 1 : Nat) : Int) := by
    rw [two_zpow_add, zpow_natCast]
    calc (2 : ℚ) ^ (3 * e) * 2 ^ (-1074 : Int) ≤ 10 ^ e * (d / 10 ^ e) := by
          refine mul_le_mul (two_pow_le_ten_pow e) (hvalue.symm ▸ h.range.1) (by positivity) hten.le
      _ = d := mul_div_cancel₀ _ hten.ne'
      _ < 2 ^ (d.log2 + 1) := hlog
  have hlt := (zpow_lt_zpow_iff_right₀ one_lt_two).mp hless
  omega

variable (hd : 0 < d)

include hd

lemma IsPositive.exponent_le (hvalue : (d : ℚ) * 10 ^ e = m * 2 ^ q) : e ≤ 400 := by
  have hone : (1 : ℚ) ≤ d := by exact_mod_cast hd
  have hless : (2 : ℚ) ^ ((3 * e : Nat) : Int) < 2 ^ (1024 : Int) := by
    rw [zpow_natCast]
    calc (2 : ℚ) ^ (3 * e) ≤ 10 ^ e := two_pow_le_ten_pow e
      _ ≤ d * 10 ^ e := le_mul_of_one_le_left (by positivity) hone
      _ = m * 2 ^ q := hvalue
      _ < 2 ^ (1024 : Int) := h.range.2
  have hlt := (zpow_lt_zpow_iff_right₀ one_lt_two).mp hless
  omega

lemma ofScientific_false (hvalue : (d : ℚ) * 10 ^ e = m * 2 ^ q) : Float.ofScientific d false e = x := by
  have he := h.exponent_le hd hvalue
  unfold Float.ofScientific
  split
  · next hsmall =>
    obtain ⟨hbits, -⟩ := isCanonical_shiftLeft hd hsmall.1
    obtain ⟨m₂, e₂, hten, hpower⟩ := isPositive_table (lt_succ_of_le hsmall.2)
    refine h.mul_eq (isPositive_toFloat hd hsmall.1) hten hbits ?_
    rw [shiftLeft_value hd hsmall.1, hpower]
    exact hvalue
  · have hmodel : UnpackedFloat.ofScientific binary64 d (e : Int) = .finite .positive m q h.pos := by
      have hpower : (2 : Int) ^ binary64.exponentBits = 2048 := rfl
      have hbits : binary64.mantissaBits = 53 := rfl
      unfold UnpackedFloat.ofScientific
      rw [dif_neg hd.ne', hpower, if_neg (by omega), if_neg (by omega), if_pos (by omega)]
      refine mul_finite h.isCanonical h.pos ?_ ?_
      · rw [hbits, shiftLeft_eq]
        omega
      · have hshift : ((d <<< 53 : Nat) : ℚ) * 2 ^ (-(53 : Nat) : Int) = d := by
          rw [shiftLeft_eq, cast_mul, zpow_neg, zpow_natCast, cast_pow, cast_ofNat,
            mul_inv_cancel_right₀ (by positivity)]
        rw [hbits, hshift, Int.toNat_natCast, cast_pow, cast_ofNat, zpow_zero, mul_one]
        exact hvalue
    exact (congrArg (fun u => Float.ofModel (.pack u)) hmodel).trans h.ofModel_pack

lemma ofScientific_true (he : 0 < e) (hvalue : (d : ℚ) / 10 ^ e = m * 2 ^ q) : Float.ofScientific d true e = x := by
  have hle := h.le_exponent hvalue
  unfold Float.ofScientific
  split
  · next hsmall =>
    obtain ⟨m₂, e₂, hten, hpower⟩ := isPositive_table (lt_succ_of_le hsmall.2)
    refine h.div_eq (isPositive_toFloat hd hsmall.1) hten ?_
    rw [shiftLeft_value hd hsmall.1, hpower]
    exact hvalue
  · have hmodel : UnpackedFloat.ofScientific binary64 d (Int.negOfNat e) = .finite .positive m q h.pos := by
      have hpower : (2 : Int) ^ binary64.exponentBits = 2048 := rfl
      have hnegative : Int.negOfNat e = -(e : Int) := Int.negOfNat_eq
      unfold UnpackedFloat.ofScientific
      rw [hnegative, dif_neg hd.ne', hpower, if_neg (by omega), if_neg (by omega), if_neg (by omega)]
      refine div_finite h.isCanonical h.pos ?_
      rw [neg_neg, Int.toNat_natCast, cast_pow, cast_ofNat, zpow_zero, mul_one, mul_one]
      exact hvalue
    exact (congrArg (fun u => Float.ofModel (.pack u)) hmodel).trans h.ofModel_pack

end Decimals

/-- **The decimal of a double is read as this double.** -/
lemma ofScientific_eq (h : IsPositive x m q) {e : Int} (hvalue : (d : ℚ) * 10 ^ e = m * 2 ^ q) :
    ofScientific d e = x := by
  have hd : 0 < d := by
    refine pos_of_ne_zero fun hzero => ?_
    have hleast := h.range.1
    rw [← hvalue, hzero, cast_zero, zero_mul] at hleast
    exact absurd hleast (not_le.mpr (by positivity))
  unfold ofScientific
  dsimp only
  rw [if_neg (by simp [hd.ne'])]
  rcases lt_or_ge e 0 with hnegative | hnonneg
  · obtain ⟨k, rfl⟩ : ∃ k : Nat, e = -(k : Int) := ⟨e.natAbs, by omega⟩
    rw [zpow_neg, zpow_natCast, ← div_eq_mul_inv] at hvalue
    have hle := h.le_exponent hvalue
    rw [if_pos hnegative, neg_neg, if_neg (by omega), Int.toNat_natCast]
    exact ofScientific_true h hd (by omega) hvalue
  · obtain ⟨k, rfl⟩ := Int.eq_ofNat_of_zero_le hnonneg
    rw [zpow_natCast] at hvalue
    have hle := h.exponent_le hd hvalue
    rw [if_neg (by omega), if_neg (by omega), Int.toNat_natCast]
    exact ofScientific_false h hd hvalue

/-- A double of the same size with the sign of another one is that one. -/
lemma signed_eq (hz : IsPositive z m q)
    (hx : Parts.ofFloat x = .finite negative m q) : (if negative then -z else z) = x := by
  cases negative with
  | false => exact ofFloat_inj (hz.parts.trans hx.symm)
  | true =>
    have hneg : -z = Float.ofModel (.pack z.toModel.unpack.neg) := rfl
    rw [if_pos rfl, hneg, hz.unpack]
    exact ofFloat_inj ((@ofFloat_pack true m q hz.isCanonical hz.pos).trans hx.symm)

/-!
## The shortest decimal reads back

All the digits of a double are read as the double, so the search for the fewest always ends. What it gives has as many
digits as it says: no leading zero, and none missing.
-/

variable {d e : Digits} {m count : Nat} {q : Int} {x : Float}

/-- As many digits as it says, and no leading zero. -/
structure Digits.IsProper (d : Digits) : Prop where
  count_pos : 0 < d.count
  low : 10 ^ (d.count - 1) ≤ d.digits
  high : d.digits < 10 ^ d.count

/-! ## All the digits -/

lemma isProper_exactDigits (hm : 0 < m) (q : Int) : (exactDigits m q).IsProper := by
  unfold exactDigits
  dsimp only
  generalize hdigits : (if q < 0 then m * 5 ^ (-q).toNat else m * 2 ^ q.toNat) = digits
  have hpos : 0 < digits := by
    rw [← hdigits]
    split <;> positivity
  have hcount := @length_toDigits_pos 10 digits
  refine ⟨hcount, ?_, (length_toDigits_le_iff (by decide) hcount).mp le_rfl⟩
  dsimp only
  by_contra hshort
  rw [not_le] at hshort
  rcases Nat.eq_zero_or_pos ((toDigits 10 digits).length - 1) with hone | hmore
  · rw [hone, pow_zero] at hshort
    omega
  · have hlength := (length_toDigits_le_iff (by decide) hmore).mpr hshort
    omega

lemma value_exactDigits (m : Nat) (q : Int) :
    ((exactDigits m q).digits : ℚ) * 10 ^ ((exactDigits m q).point - (exactDigits m q).count) = m * 2 ^ q := by
  unfold exactDigits
  dsimp only
  rw [add_sub_cancel_left]
  split
  · next hq =>
    obtain ⟨k, hk⟩ := Int.eq_ofNat_of_zero_le (show 0 ≤ -q by omega)
    obtain rfl : q = -(k : Int) := by omega
    rw [min_eq_left hq.le, neg_neg, Int.toNat_natCast, zpow_neg, zpow_neg, zpow_natCast, zpow_natCast,
      show (10 : ℚ) = 5 * 2 by norm_num, mul_pow]
    push_cast
    field_simp
  · next hq =>
    obtain ⟨k, rfl⟩ := Int.eq_ofNat_of_zero_le (not_lt.mp hq)
    simp

/-- Digits that write the value of a double are read as it, whichever way they are written. -/
lemma Digits.read_eq (style : Style) (h : IsPositive x m q)
    (hvalue : (d.digits : ℚ) * 10 ^ (d.point - d.count) = m * 2 ^ q) : d.read style = x := by
  unfold read
  split
  · next hwhole =>
    rw [and_eq_true, decide_eq_true_eq] at hwhole
    refine ofScientific_eq h ?_
    rw [← hvalue, cast_mul, cast_pow, cast_ofNat, mul_assoc, ← zpow_natCast, ← zpow_add₀ (by norm_num)]
    congr 2
    omega
  · exact ofScientific_eq h hvalue

/-! ## The search -/

lemma Digits.IsProper.neighbours (h : d.IsProper) (hcount : 0 < count) (hle : count ≤ d.count)
    (he : e ∈ d.neighbours count) : e.IsProper := by
  obtain ⟨-, hlow, hhigh⟩ := h
  unfold Digits.neighbours at he
  dsimp only at he
  generalize hnumber : d.digits / 10 ^ (d.count - count) = number at he
  have hunit : 0 < 10 ^ (d.count - count) := Nat.pow_pos (by decide)
  have hfrom : 10 ^ (count - 1) ≤ number := by
    rw [← hnumber, le_div_iff_mul_le hunit, ← pow_add, show count - 1 + (d.count - count) = d.count - 1 by omega]
    exact hlow
  have hto : number < 10 ^ count := by
    rw [← hnumber, div_lt_iff_lt_mul hunit, ← pow_add, Nat.add_sub_cancel' hle]
    exact hhigh
  have hbelow : Digits.IsProper { digits := number, count, point := d.point } := ⟨hcount, hfrom, hto⟩
  have habove : Digits.IsProper (if number + 1 == 10 ^ count then { digits := 1, count := 1, point := d.point + 1 }
      else { digits := number + 1, count, point := d.point }) := by
    split
    · exact ⟨one_pos, le_rfl, by norm_num⟩
    · next hpower =>
      rw [beq_iff_eq] at hpower
      exact ⟨hcount, by dsimp only; omega, by dsimp only; omega⟩
  split at he <;> rw [List.mem_pair] at he <;> rcases he with rfl | rfl
  · exact hbelow
  · exact habove
  · exact habove
  · exact hbelow

/-- **The shortest decimal of a double is read as the double.** -/
lemma shortest_reads (style : Style) (h : IsPositive x m q) :
    (shortest style m q).IsProper ∧ IsPositive ((shortest style m q).read style) m q := by
  have hproper := isProper_exactDigits h.pos q
  unfold shortest
  dsimp only
  generalize hfound : (List.range ((exactDigits m q).count - 1)).findSome? _ = found
  cases found with
  | none =>
    have hread := Digits.read_eq style h (value_exactDigits m q)
    exact ⟨hproper, hread ▸ h⟩
  | some e =>
    obtain ⟨n, hn, hfind⟩ := List.exists_of_findSome?_eq_some hfound
    rw [List.mem_range] at hn
    have hreads := List.find?_some hfind
    rw [beq_iff_eq] at hreads
    exact ⟨hproper.neighbours (by omega) (by omega) (List.mem_of_find?_eq_some hfind), h.pos, hreads⟩

end CodeAudit.Decimal
