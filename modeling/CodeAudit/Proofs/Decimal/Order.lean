import CodeAudit.Proofs.Decimal.Exact
import CodeAudit.Value.Order
import Mathlib.Algebra.Order.Monoid.Unbundled.WithTop
import Mathlib.Order.Compare

/-!
# Order and differences of numbers

A number of either kind has a place on the line of the rationals with the infinities, and numbers compare as their
places do (`Number.compare?_eq`); only what is not a number has none. An age is a difference of two clock times: for
finite times it is a number, ordered with every limit, and zero where the times are the same.
-/

namespace CodeAudit

open Float.Model Float.Model.UnpackedFloat Format Decimal Number Decimal.Parts Parts Ratio

variable {a : UnpackedFloat} {x y : Float}

namespace Decimal

/-! ## Order -/

lemma lt_iff : x < y ↔ x.toModel.unpack.compare y.toModel.unpack = some .lt := by
  have hdecide : x < y ↔ decide (x.toModel < y.toModel) := Iff.rfl
  have hunfold : x.toModel < y.toModel ↔ (x.toModel.unpack.compare y.toModel.unpack == some .lt) := Iff.rfl
  rw [hdecide, decide_eq_true_iff, hunfold, beq_iff_eq]

lemma beq_iff : (x == y) ↔ x.toModel.unpack.compare y.toModel.unpack = some .eq := by
  have hunfold : (x == y) = (x.toModel.unpack.compare y.toModel.unpack == some .eq) := rfl
  rw [hunfold, beq_iff_eq]

/-- Of two doubles the one with the greater exponent is greater: only at the least exponent a significand is short. -/
lemma lt_of_exponent_lt (hm : IsCanonical m q) (hn : IsCanonical n d) (h : q < d) : (m * 2 ^ q : ℚ) < n * 2 ^ d := by
  have hfull : 2 ^ 52 ≤ n := hn.full.resolve_right (by have := hm.low; omega)
  calc (m * 2 ^ q : ℚ) < 2 ^ 53 * 2 ^ q := by gcongr; exact_mod_cast hm.lt
    _ = 2 ^ 52 * 2 ^ (q + 1) := by rw [zpow_add_one₀ (by norm_num)]; ring
    _ ≤ n * 2 ^ d := by
      gcongr
      · exact_mod_cast hfull
      · norm_num
      · omega

lemma cmp_canonical (hm : IsCanonical m q) (hn : IsCanonical n d) :
    (compare q d).then (compare m n) = cmp (m * 2 ^ q : ℚ) (n * 2 ^ d) := by
  rcases lt_trichotomy q d with h | rfl | h
  · rw [compare_lt_iff_lt.mpr h, (lt_of_exponent_lt hm hn h).cmp_eq_lt]
    rfl
  · have hmono : StrictMono fun k : Nat => (k * 2 ^ q : ℚ) := fun a b hab => by
      dsimp only
      gcongr
    rw [compare_eq_iff_eq.mpr rfl, hmono.cmp_map_eq m n, cmp_eq_compare]
    rfl
  · rw [compare_gt_iff_gt.mpr h, (lt_of_exponent_lt hn hm h).cmp_eq_gt]
    rfl

/-- The place of a rational on the line with the infinities. -/
def onLine (v : ℚ) : WithBot (WithTop ℚ) := WithBot.some (WithTop.some v)

lemma onLine_strictMono : StrictMono onLine := WithBot.coe_strictMono.comp WithTop.coe_strictMono

/-- The place of a double between the infinities; what is not a number has none. -/
def Parts.place? : Parts → Option (WithBot (WithTop ℚ))
  | .notANumber => none
  | .infinite negative => some (if negative then ⊥ else ⊤)
  | .finite negative m q => some (onLine (if negative then -(m * 2 ^ q) else m * 2 ^ q))

/-- A double as its operations see it, with its place. -/
inductive StandsAt : UnpackedFloat → Option (WithBot (WithTop ℚ)) → Prop
  | notANumber : StandsAt .notANumber none
  | bottom : StandsAt (.infinity .negative) (some ⊥)
  | top : StandsAt (.infinity .positive) (some ⊤)
  | zero (s : Sign) : StandsAt (.zero s) (some (onLine 0))
  | negative {m : Nat} {q : Int} (h : IsCanonical m q) (hpos : 0 < m) :
      StandsAt (.finite .negative m q hpos) (some (onLine (-(m * 2 ^ q))))
  | positive {m : Nat} {q : Int} (h : IsCanonical m q) (hpos : 0 < m) :
      StandsAt (.finite .positive m q hpos) (some (onLine (m * 2 ^ q)))

lemma standsAt (x : Float) : StandsAt x.toModel.unpack (ofFloat x).place? := by
  -- a double with the parts of another one is that one, so those that are no proper numbers can be looked at
  have hspecial : ∀ (y : Float) {a p}, StandsAt a p → y.toModel.unpack = a → ofFloat y = ofFloat x →
      StandsAt x.toModel.unpack p := fun y _ _ ha hy hparts => ofFloat_inj hparts ▸ hy ▸ ha
  cases hparts : ofFloat x with
  | notANumber => exact hspecial (0.0 / 0.0) .notANumber rfl (by rw [hparts]; decide +kernel)
  | infinite negative =>
    cases negative with
    | false => exact hspecial (1.0 / 0.0) .top rfl (by rw [hparts]; decide +kernel)
    | true => exact hspecial (-1.0 / 0.0) .bottom rfl (by rw [hparts]; decide +kernel)
  | finite negative m q =>
    obtain ⟨hcanonical, -⟩ := ofFloat_eq_finite hparts
    rcases eq_zero_or_pos m with rfl | hpos
    · -- a zero has the least exponent, so it is one of two doubles
      obtain rfl : q = -1074 := hcanonical.full.resolve_left (by decide)
      have hzero : (finite negative 0 (-1074)).place? = some (onLine 0) := by simp [place?]
      rw [hzero]
      cases negative with
      | false => exact hspecial 0.0 (.zero .positive) rfl (by rw [hparts]; decide +kernel)
      | true => exact hspecial (-0.0) (.zero .negative) rfl (by rw [hparts]; decide +kernel)
    · rw [unpack_of_ofFloat hparts hpos]
      cases negative with
      | false => exact .positive hcanonical hpos
      | true => exact .negative hcanonical hpos

lemma StandsAt.compare_eq (ha : StandsAt a p) (hb : StandsAt b r) : a.compare b = p.bind fun u => r.map (cmp u) := by
  have hpositive : ∀ {m : Nat} {q : Int}, 0 < m → (0 : ℚ) < m * 2 ^ q := fun hm => by positivity
  have hnegative : ∀ {m : Nat} {q : Int}, 0 < m → -(m * 2 ^ q : ℚ) < 0 := fun hm => neg_neg_of_pos (hpositive hm)
  have hlt : ∀ {u v : WithBot (WithTop ℚ)}, u < v → some .lt = some (cmp u v) := fun h => by rw [h.cmp_eq_lt]
  have hgt : ∀ {u v : WithBot (WithTop ℚ)}, v < u → some .gt = some (cmp u v) := fun h => by rw [h.cmp_eq_gt]
  have heq : ∀ u : WithBot (WithTop ℚ), some .eq = some (cmp u u) := fun u => by rw [cmp_self_eq_eq]
  have hbottom : ∀ v, ⊥ < onLine v := fun v => WithBot.bot_lt_coe _
  have htop : ∀ v, onLine v < ⊤ := fun v => WithBot.coe_lt_coe.mpr (WithTop.coe_lt_top v)
  cases ha with
  | notANumber => cases hb <;> rfl
  | bottom =>
    cases hb with
    | notANumber => rfl
    | bottom => exact heq ⊥
    | top => exact hlt bot_lt_top
    | _ => exact hlt (hbottom _)
  | top =>
    cases hb with
    | notANumber => rfl
    | bottom => exact hgt bot_lt_top
    | top => exact heq ⊤
    | _ => exact hgt (htop _)
  | zero s =>
    cases hb with
    | notANumber => rfl
    | bottom => exact hgt (hbottom _)
    | top => exact hlt (htop _)
    | zero t => exact heq _
    | negative h hpos => exact hgt (onLine_strictMono (hnegative hpos))
    | positive h hpos => exact hlt (onLine_strictMono (hpositive hpos))
  | negative h hpos =>
    cases hb with
    | notANumber => rfl
    | bottom => exact hgt (hbottom _)
    | top => exact hlt (htop _)
    | zero t => exact hlt (onLine_strictMono (hnegative hpos))
    | negative h' hpos' =>
      -- the sign turns the order of the sizes around
      have hanti : StrictAnti fun v : ℚ => -v := fun _ _ hlt => neg_lt_neg hlt
      refine congrArg some ?_
      rw [cmp_canonical h h', cmp_swap, ← hanti.cmp_map_eq, ← onLine_strictMono.cmp_map_eq]
    | positive h' hpos' => exact hlt (onLine_strictMono ((hnegative hpos).trans (hpositive hpos')))
  | positive h hpos =>
    cases hb with
    | notANumber => rfl
    | bottom => exact hgt (hbottom _)
    | top => exact hlt (htop _)
    | zero t => exact hgt (onLine_strictMono (hpositive hpos))
    | negative h' hpos' => exact hgt (onLine_strictMono ((hnegative hpos').trans (hpositive hpos)))
    | positive h' hpos' => exact congrArg some ((cmp_canonical h h').trans (onLine_strictMono.cmp_map_eq _ _).symm)

lemma compareInt?_eq (n : Int) (x : Float) : compareInt? n x = (ofFloat x).place?.map (cmp (onLine n)) := by
  unfold compareInt?
  cases ofFloat x with
  | notANumber => rfl
  | infinite negative =>
    cases negative with
    | false => exact congrArg some (WithBot.coe_lt_coe.mpr (WithTop.coe_lt_top _)).cmp_eq_lt.symm
    | true => exact congrArg some (WithBot.bot_lt_coe _).cmp_eq_gt.symm
  | finite negative m q =>
    -- both sides are multiplied by the denominator, so that integers are compared
    have hden : (0 : ℚ) < (ofBinary m q).den := by exact_mod_cast den_ofBinary_pos m q
    have hmono : StrictMono fun v : ℚ => v * (ofBinary m q).den := fun _ _ hlt => mul_lt_mul_of_pos_right hlt hden
    have hright : (if negative then -(m * 2 ^ q : ℚ) else m * 2 ^ q) * (ofBinary m q).den =
        ((if negative then -((ofBinary m q).num : Int) else (ofBinary m q).num : Int) : ℚ) := by
      rw [← value_ofBinary, value]
      cases negative <;> simp [hden.ne']
    refine congrArg some ?_
    rw [onLine_strictMono.cmp_map_eq, ← hmono.cmp_map_eq, hright, ← cmp_eq_compare,
      ← (Int.cast_strictMono (R := ℚ)).cmp_map_eq, Int.cast_mul, Int.cast_natCast]

end Decimal

/-- The place of a number on the line with the infinities. -/
def Number.place? : Number → Option (WithBot (WithTop ℚ))
  | .whole n => some (onLine n)
  | .real x => (Decimal.Parts.ofFloat x).place?

/-- **Numbers of either kind compare as their places do.** -/
lemma Number.compare?_eq (m n : Number) : m.compare? n = m.place?.bind fun u => n.place?.map (cmp u) := by
  cases m with
  | whole a =>
    cases n with
    | whole b =>
      refine congrArg some ?_
      rw [onLine_strictMono.cmp_map_eq, (Int.cast_strictMono (R := ℚ)).cmp_map_eq, cmp_eq_compare]
    | real y => exact compareInt?_eq a y
  | real x =>
    cases n with
    | whole b =>
      rw [compare?, compareInt?_eq, Option.map_map]
      dsimp only [place?]
      cases (ofFloat x).place? with
      | none => rfl
      | some u => exact congrArg some (cmp_swap _ _)
    | real y =>
      have hforth := (standsAt x).compare_eq (standsAt y)
      have hback := (standsAt y).compare_eq (standsAt x)
      rw [compare?, place?, place?]
      generalize (ofFloat x).place? = p, (ofFloat y).place? = r at hforth hback ⊢
      have hswap : (r.bind fun u => p.map (cmp u)) = (p.bind fun u => r.map (cmp u)).map Ordering.swap := by
        cases p with
        | none => cases r <;> rfl
        | some u =>
          cases r with
          | none => rfl
          | some v => exact congrArg some (cmp_swap u v).symm
      have hlt := lt_iff (x := x) (y := y)
      have heq := beq_iff (x := x) (y := y)
      have hgt := lt_iff (x := y) (y := x)
      rw [hforth] at hlt heq
      rw [hback, hswap] at hgt
      rw [if_congr hlt rfl (if_congr heq rfl (if_congr hgt rfl rfl))]
      generalize (p.bind fun u => r.map (cmp u)) = o
      cases o with
      | none => rfl
      | some o => cases o <;> rfl

def Number.isOrdered : Number → Bool
  | .whole _ => true
  | .real x => !x.isNaN

lemma Number.exists_place? {n : Number} (h : n.isOrdered) : ∃ u, n.place? = some u := by
  cases n with
  | whole k => exact ⟨_, rfl⟩
  | real x =>
    have hnumber : x.isNaN = false := by simpa [isOrdered] using h
    have hunpack : x.toModel.unpack.isNaN = false := hnumber
    have hstands := standsAt x
    rw [place?]
    generalize x.toModel.unpack = a, (ofFloat x).place? = p at hunpack hstands
    cases hstands with
    | notANumber => cases hunpack
    | _ => exact ⟨_, rfl⟩

lemma Number.isSome_compare? (hx : x.isNaN = false) (hn : n.isOrdered) : (compare? (.real x) n).isSome := by
  obtain ⟨u, hu⟩ := exists_place? (n := .real x) (by rw [isOrdered, hx]; rfl)
  obtain ⟨v, hv⟩ := exists_place? hn
  rw [compare?_eq, hu, hv]
  rfl

namespace Decimal

/-! ## Differences -/

lemma dite_of_both {α : Type} {P : α → Prop} {c : Prop} [Decidable c] {a : c → α} {b : ¬c → α} (ha : ∀ h, P (a h))
    (hb : ∀ h, P (b h)) : P (if h : c then a h else b h) := by
  by_cases h : c
  · rw [dif_pos h]
    exact ha h
  · rw [dif_neg h]
    exact hb h

lemma isFinite_roundWithAccuracy (s : Sign) (n : Nat) (e : Int) (acc : Accuracy) :
    (roundWithAccuracy binary64 s n e acc).isFinite := by
  unfold roundWithAccuracy
  exact dite_of_both (P := fun a : UnpackedFloat => a.isFinite) (fun _ => rfl) (fun _ => rfl)

lemma isFinite_normalize (n e : Int) (s : Sign) : (normalize binary64 n e s).isFinite := by
  unfold UnpackedFloat.normalize
  split
  · exact isFinite_roundWithAccuracy ..
  · rfl
  · exact isFinite_roundWithAccuracy ..

lemma isFinite_sub (ha : a.isFinite) (hb : b.isFinite) : (sub binary64 a b).isFinite := by
  cases a with
  | notANumber => cases ha
  | infinity s => cases ha
  | zero s =>
    cases b with
    | notANumber => cases hb
    | infinity t => cases hb
    | zero t =>
      unfold UnpackedFloat.sub
      dsimp only
      split <;> rfl
    | finite t m e hm => rfl
  | finite s m e hm =>
    cases b with
    | notANumber => cases hb
    | infinity t => cases hb
    | zero t => rfl
    | finite t n d hn => exact isFinite_normalize ..

/-- A packed number whose exponent bits are not all set is a number, and so is one without significand. -/
lemma isNaN_unpack_packComponents {spec : Format} {s : Sign} {e : BitVec spec.exponentBits}
    {m : BitVec spec.mantissaBitsWithoutImplicit} (h : e ≠ -1#_ ∨ m = 0#_) :
    (unpack spec (packComponents spec s e m)).isNaN = false := by
  unfold UnpackedFloat.unpack
  dsimp only
  rw [unpackExponent_packComponents]
  by_cases he : e = -1#_
  · rw [if_pos he, unpackMantissa_packComponents, if_pos (h.resolve_left (fun hne => hne he))]
    rfl
  · rw [if_neg he]
    by_cases hzero : e = 0#_
    · rw [if_pos hzero]
      exact dite_of_both (P := fun a : UnpackedFloat => a.isNaN = false) (fun _ => rfl) (fun _ => rfl)
    · rw [if_neg hzero]
      rfl

lemma isNaN_unpack_pack (h : a.isFinite) : (unpack binary64 (pack binary64 a)).isNaN = false := by
  cases a with
  | notANumber => cases h
  | infinity s => cases h
  | zero s => exact isNaN_unpack_packComponents (.inr rfl)
  | finite s m e hm =>
    unfold UnpackedFloat.pack
    dsimp only
    split
    · exact isNaN_unpack_packComponents (.inr rfl)
    · next hsmall =>
      split
      · refine isNaN_unpack_packComponents (.inl fun heq => ?_)
        have hbits := congrArg BitVec.toNat heq
        rw [BitVec.toNat_ofNat, show (-BitVec.ofNat binary64.exponentBits 1).toNat = 2047 from rfl] at hbits
        have hpower : 2 ^ binary64.exponentBits = 2048 := rfl
        rw [hpower] at hbits hsmall
        omega
      · exact isNaN_unpack_packComponents (.inl (by decide))

/-- **The difference of two finite doubles is a number.** -/
lemma isNaN_sub (hx : x.isFinite) (hy : y.isFinite) : (x - y).isNaN = false :=
  isNaN_unpack_pack (isFinite_sub hx hy)

/-- **A finite double less itself is zero.** -/
lemma sub_self (hx : x.isFinite) : x - x = 0.0 := by
  have hsub : sub binary64 x.toModel.unpack x.toModel.unpack = .zero .positive := by
    have hfinite : x.toModel.unpack.isFinite := hx
    cases hunpack : x.toModel.unpack with
    | notANumber =>
      rw [hunpack] at hfinite
      cases hfinite
    | infinity s =>
      rw [hunpack] at hfinite
      cases hfinite
    | zero s => cases s <;> rfl
    | finite s m e hm =>
      unfold UnpackedFloat.sub
      dsimp only
      rw [Int.sub_self]
      rfl
  have hpacked : x - x = .ofModel (.pack (sub binary64 x.toModel.unpack x.toModel.unpack)) := rfl
  rw [hpacked, hsub]
  decide +kernel

end Decimal

end CodeAudit

/-!
## Whole numbers as doubles

A whole number of at most fifty-three bits is a double exactly. Larger ones are rounded or beyond all doubles; in
either case the result is not small.
-/

namespace CodeAudit.Decimal

open Float.Model Float.Model.UnpackedFloat Format Nat

section Exact

variable {n : Nat} (hpos : 0 < n) (hlt : n < 2 ^ 53)

include hpos hlt

lemma isPositive_ofScientific : IsPositive (ofScientific n 0) (n <<< (52 - n.log2)) ((n.log2 : Int) - 52) := by
  have hself : (n : ℚ) * 10 ^ (0 : Int) = (n <<< (52 - n.log2) : Nat) * 2 ^ ((n.log2 : Int) - 52) := by
    rw [zpow_zero, mul_one, shiftLeft_value hpos hlt]
  rw [ofScientific_eq (isPositive_toFloat hpos hlt) hself]
  exact isPositive_toFloat hpos hlt

end Exact

variable {x : Float} {m n : Nat}

lemma IsPositive.isInf (h : IsPositive x m q) : x.isInf = false := by
  have hmodel : x.isInf = x.toModel.unpack.isInf := rfl
  rw [hmodel, h.unpack]
  rfl

lemma IsPositive.isInf_neg (h : IsPositive x m q) : (-x).isInf = false := by
  have hneg : -x = Float.ofModel (.pack x.toModel.unpack.neg) := rfl
  rw [hneg, h.unpack]
  have hparts := @ofFloat_pack true m q h.isCanonical h.pos
  have hmodel : ∀ y : Float, y.isInf = y.toModel.unpack.isInf := fun _ => rfl
  rw [hmodel]
  change (Float.toModel (.ofModel (.pack (.finite (signOf true) m q h.pos)))).unpack.isInf = false
  rw [unpack_of_ofFloat hparts h.pos]
  rfl

lemma isInf_ofInt {n : Int} (h : n.natAbs < 2 ^ 53) : (ofInt n).isInf = false := by
  unfold ofInt
  dsimp only
  rcases Nat.eq_zero_or_pos n.natAbs with hzero | hpos
  · rw [Int.natAbs_eq_zero.mp hzero]
    decide +kernel
  · have hpositive := isPositive_ofScientific hpos h
    split
    · exact hpositive.isInf_neg
    · exact hpositive.isInf

/-! ## Whole numbers of more bits -/

/-- Zero, or a number in units of two at least. -/
def IsCoarse : UnpackedFloat → Prop
  | .zero _ => True
  | .finite _ _ q _ => 1 ≤ q
  | _ => False

lemma isCoarse_roundWithAccuracy (s : Sign) (acc : Accuracy) (hle : e ≤ binary64.targetExponent (totalExponent n e))
    (hone : 1 ≤ binary64.targetExponent (totalExponent n e)) : IsCoarse (roundWithAccuracy binary64 s n e acc) := by
  unfold roundWithAccuracy
  rw [shiftToTargetExponent_eq hle]
  dsimp only
  refine @dite_of_both _ IsCoarse _ _ _ _ (fun _ => trivial) (fun _ => ?_)
  unfold shiftToTargetExponent shiftToExponent IsCoarse
  dsimp only
  omega

def exponentBits (x : Float) : Nat := x.toBits.toNat / 2 ^ 52 % 2 ^ 11

lemma exponentBits_of_packed {s : Sign} {e : BitVec 11} {m : BitVec 52}
    (h : x.toBits.toNat = (packComponents binary64 s e m).toNat) : exponentBits x = e.toNat := by
  have he := e.isLt
  have hm := m.isLt
  unfold exponentBits
  rw [h, toNat_packComponents]
  omega

/-- The exponent of two is none in larger units: there the bits are of a larger exponent, all set, or none. -/
lemma exponentBits_pack_ne {a : UnpackedFloat} (h : IsCoarse a) : exponentBits (.ofModel (.pack a)) ≠ 1024 := by
  have hbits : (Float.ofModel (.pack a)).toBits.toNat = (pack binary64 a).toNat := rfl
  generalize Float.ofModel (.pack a) = x at hbits ⊢
  cases a with
  | notANumber => cases h
  | infinity s => cases h
  | zero s =>
    rw [exponentBits_of_packed hbits]
    decide
  | finite s m q hm =>
    unfold IsCoarse at h
    unfold UnpackedFloat.pack at hbits
    dsimp only at hbits
    split at hbits
    · rw [exponentBits_of_packed hbits]
      decide
    · next hsmall =>
      have hpower : 2 ^ binary64.exponentBits = 2048 := rfl
      split at hbits
      · rw [exponentBits_of_packed hbits, BitVec.toNat_ofNat, show binary64.exponentBias = 1023 from rfl]
        rw [hpower, show binary64.exponentBias = 1023 from rfl] at hsmall
        omega
      · rw [exponentBits_of_packed hbits]
        decide

lemma isCoarse_mul {e₁ e₂ : Int} (hlong : 53 ≤ (m₁ * m₂).log2 + (e₁ + e₂)) (he : e₁ + e₂ ≤ 0) :
    IsCoarse (mul binary64 (.finite s₁ m₁ e₁ h₁) (.finite s₂ m₂ e₂ h₂)) := by
  have htarget : binary64.targetExponent (totalExponent (m₁ * m₂) (e₁ + e₂)) = (m₁ * m₂).log2 + (e₁ + e₂) - 52 := by
    rw [targetExponent_eq, totalExponent]
    omega
  refine isCoarse_roundWithAccuracy (s₁ * s₂) .exact ?_ ?_
  · omega
  · omega

lemma isCoarse_ofScientific (h : 2 ^ 53 ≤ n) : IsCoarse (UnpackedFloat.ofScientific binary64 n ((0 : Nat) : Int)) := by
  have hlog : 106 ≤ (n <<< 53 * 10 ^ 0).log2 := by
    rw [pow_zero, mul_one, shiftLeft_eq]
    refine (le_log2 (by omega)).mpr ?_
    calc 2 ^ 106 = 2 ^ 53 * 2 ^ 53 := by rw [← pow_add]
      _ ≤ n * 2 ^ 53 := mul_le_mul_right _ h
  have hpower : (2 : Int) ^ binary64.exponentBits = 2048 := rfl
  have hbits : binary64.mantissaBits = 53 := rfl
  unfold UnpackedFloat.ofScientific
  rw [dif_neg (by omega), hpower, if_neg (by omega), if_neg (by omega), if_pos (by omega)]
  refine isCoarse_mul ?_ ?_
  · rw [hbits, Int.toNat_natCast]
    omega
  · rw [hbits]
    omega

lemma exponentBits_ofScientific_ne (h : 2 ^ 53 ≤ n) : exponentBits (ofScientific n 0) ≠ 1024 := by
  have hmodel : ofScientific n 0 = .ofModel (.pack (UnpackedFloat.ofScientific binary64 n ((0 : Nat) : Int))) := by
    unfold ofScientific
    dsimp only
    rw [if_neg (by rw [beq_iff_eq]; omega), if_neg (by decide), if_neg (by decide)]
    unfold Float.ofScientific
    rw [dif_neg (fun hsmall => absurd hsmall.1 (by omega))]
    rfl
  rw [hmodel]
  exact exponentBits_pack_ne (isCoarse_ofScientific h)

/-- **No whole number above two becomes the double two**, be it exact, rounded or beyond all doubles. -/
lemma ofInt_ne_two (h : 2 < n) : ofInt n ≠ ofInt 2 := by
  have hsize : ofInt n = ofScientific n 0 := by
    unfold ofInt
    dsimp only
    rw [if_neg (by omega), Int.natAbs_natCast]
  rw [hsize]
  intro heq
  rcases lt_or_ge n (2 ^ 53) with hlt | hge
  · have hn := isPositive_ofScientific (by omega) hlt
    have htwo := @isPositive_ofScientific 2 (by decide) (by decide)
    have hparts := hn.parts.symm.trans ((congrArg Parts.ofFloat heq).trans htwo.parts)
    injection hparts with _ hm hq
    have hlog : n.log2 = log2 2 := by omega
    rw [hlog, shiftLeft_eq, shiftLeft_eq] at hm
    have hsame := Nat.eq_of_mul_eq_mul_right (Nat.two_pow_pos _) hm
    omega
  · have htwo : exponentBits (ofInt 2) = 1024 := by decide +kernel
    exact exponentBits_ofScientific_ne hge (heq ▸ htwo)

end CodeAudit.Decimal
