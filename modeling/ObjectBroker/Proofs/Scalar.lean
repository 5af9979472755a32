import Mathlib.Tactic.Lemma
import Mathlib.Algebra.Group.Nat.Defs
import ObjectBroker.Scalar

/-! Floating-point numbers and their bit patterns: equality of patterns is IEEE equality of the
numbers they stand for, as `Float` and `Float32` have it. -/

namespace ObjectBroker

open Float.Model (Format UnpackedFloat)
open Float.Model.UnpackedFloat

lemma ieeeEqual_iff {s i a b : Nat} :
    ieeeEqual s i a b = true ↔ a % s ≤ i ∧ b % s ≤ i ∧ (a = b ∨ a % s = 0 ∧ b % s = 0) := by
  by_cases ha : i < a % s
  · simp [ieeeEqual, ha, Nat.not_le_of_gt]
  · by_cases hb : i < b % s
    · simp [ieeeEqual, hb, Nat.not_le_of_gt]
    · simp [ieeeEqual, ha, hb, Nat.le_of_not_lt]

namespace Ieee

variable {spec : Format} {a b : BitVec spec.numBits}

def sign (a : BitVec spec.numBits) : Sign :=
  Sign.ofBitVec (unpackSign a)

def IsNaN (a : BitVec spec.numBits) : Prop :=
  unpackExponent a = -1#_ ∧ unpackMantissa a ≠ 0#_

def IsInfinite (a : BitVec spec.numBits) : Prop :=
  unpackExponent a = -1#_ ∧ unpackMantissa a = 0#_

def IsZero (a : BitVec spec.numBits) : Prop :=
  unpackExponent a = 0#_ ∧ unpackMantissa a = 0#_

/-- The whole number that a finite pattern scales. The leading bit of a normal number is not
stored. -/
def significand (a : BitVec spec.numBits) : Nat :=
  if unpackExponent a = 0#_ then (unpackMantissa a).toNat
  else 2 ^ spec.mantissaBitsWithoutImplicit + (unpackMantissa a).toNat

def scale (a : BitVec spec.numBits) : Int :=
  ((if unpackExponent a = 0#_ then 1 else (unpackExponent a).toNat : Nat) : Int) -
    (spec.exponentBias + spec.mantissaBitsWithoutImplicit)

lemma toNat_unpackMantissa (a : BitVec spec.numBits) :
    (unpackMantissa a).toNat = a.toNat % 2 ^ spec.mantissaBitsWithoutImplicit := by
  have := spec.hm
  have hw : spec.mantissaBitsWithoutImplicit - 1 - 0 + 1 =
      spec.mantissaBitsWithoutImplicit := by omega
  simp only [unpackMantissa, BitVec.toNat_cast, BitVec.extractLsb_toNat, Nat.shiftRight_zero, hw]

lemma toNat_unpackExponent (a : BitVec spec.numBits) :
    (unpackExponent a).toNat =
      a.toNat / 2 ^ spec.mantissaBitsWithoutImplicit % 2 ^ spec.exponentBits := by
  have := spec.he
  have hw : spec.mantissaBitsWithoutImplicit + spec.exponentBits - 1 -
      spec.mantissaBitsWithoutImplicit + 1 = spec.exponentBits := by omega
  simp only [unpackExponent, BitVec.toNat_cast, BitVec.extractLsb_toNat,
    Nat.shiftRight_eq_div_pow, hw]

lemma toNat_unpackSign (a : BitVec spec.numBits) :
    (unpackSign a).toNat =
      a.toNat / 2 ^ (spec.mantissaBitsWithoutImplicit + spec.exponentBits) % 2 := by
  change (BitVec.cast _ (a.extractLsb _ _)).toNat = _
  simp [BitVec.extractLsb_toNat, Nat.shiftRight_eq_div_pow]

lemma unpackSign_packComponents (sign : Sign) (exponent : BitVec spec.exponentBits)
    (mantissa : BitVec spec.mantissaBitsWithoutImplicit) :
    unpackSign (packComponents spec sign exponent mantissa) = sign.toBitVec := by
  ext i hi
  have hpast : ¬ spec.mantissaBitsWithoutImplicit + spec.exponentBits + i <
      spec.mantissaBitsWithoutImplicit := by omega
  have hrest : spec.mantissaBitsWithoutImplicit + spec.exponentBits + i -
      spec.mantissaBitsWithoutImplicit = spec.exponentBits + i := by omega
  have hlast : spec.exponentBits + i - spec.exponentBits = i := by omega
  change (BitVec.cast _ (BitVec.extractLsb _ _ _))[i] = _
  simp [packComponents, BitVec.getLsbD_append, hpast, hrest, hlast, hi]

lemma high_lt_two (a : BitVec spec.numBits) :
    a.toNat / 2 ^ spec.mantissaBitsWithoutImplicit / 2 ^ spec.exponentBits < 2 := by
  have hlt : a.toNat < 2 * 2 ^ spec.exponentBits * 2 ^ spec.mantissaBitsWithoutImplicit := by
    rw [← Nat.pow_add_one', ← Nat.pow_add, Nat.add_comm spec.exponentBits 1]
    exact a.isLt
  rw [Nat.div_lt_iff_lt_mul (Nat.two_pow_pos _), Nat.div_lt_iff_lt_mul (Nat.two_pow_pos _)]
  exact hlt

lemma eq_of_fields (hs : unpackSign a = unpackSign b) (he : unpackExponent a = unpackExponent b)
    (hm : unpackMantissa a = unpackMantissa b) : a = b := by
  replace hs := congrArg BitVec.toNat hs
  replace he := congrArg BitVec.toNat he
  replace hm := congrArg BitVec.toNat hm
  rw [toNat_unpackSign, toNat_unpackSign, Nat.pow_add, ← Nat.div_div_eq_div_mul,
    ← Nat.div_div_eq_div_mul] at hs
  rw [toNat_unpackExponent, toNat_unpackExponent] at he
  rw [toNat_unpackMantissa, toNat_unpackMantissa] at hm
  have hhigh : a.toNat / 2 ^ spec.mantissaBitsWithoutImplicit / 2 ^ spec.exponentBits =
      b.toNat / 2 ^ spec.mantissaBitsWithoutImplicit / 2 ^ spec.exponentBits := by
    rwa [Nat.mod_eq_of_lt (high_lt_two a), Nat.mod_eq_of_lt (high_lt_two b)] at hs
  have hupper : a.toNat / 2 ^ spec.mantissaBitsWithoutImplicit =
      b.toNat / 2 ^ spec.mantissaBitsWithoutImplicit := by
    rw [← Nat.div_add_mod (a.toNat / _) (2 ^ spec.exponentBits), hhigh, he, Nat.div_add_mod]
  apply BitVec.eq_of_toNat_eq
  rw [← Nat.div_add_mod a.toNat (2 ^ spec.mantissaBitsWithoutImplicit), hupper, hm,
    Nat.div_add_mod]

lemma beq_finite {s t : Sign} {m n : Nat} {e f : Int} {hm : 0 < m} {hn : 0 < n} :
    (finite s m e hm).beq (finite t n f hn) = true ↔ s = t ∧ e = f ∧ m = n := by
  cases s <;> cases t
  · change (some ((compare e f).then (compare m n)).swap == some .eq) = true ↔ _
    simp [Ordering.then_eq_eq]
  · change (some Ordering.lt == some .eq) = true ↔ _
    simp
  · change (some Ordering.gt == some .eq) = true ↔ _
    simp
  · change (some ((compare e f).then (compare m n)) == some .eq) = true ↔ _
    simp [Ordering.then_eq_eq]

lemma beq_iff (x y : UnpackedFloat) :
    x.beq y = true ↔ (∃ s, x = infinity s ∧ y = infinity s) ∨
      (∃ s t, x = zero s ∧ y = zero t) ∨
      ∃ s m e h, x = finite s m e h ∧ y = finite s m e h := by
  constructor
  · intro h
    cases x with
    | notANumber => exact (Bool.false_ne_true h).elim
    | infinity s =>
      cases y with
      | infinity t =>
        cases s <;> cases t
        case negative.positive => exact (Bool.false_ne_true h).elim
        case positive.negative => exact (Bool.false_ne_true h).elim
        all_goals exact .inl ⟨_, rfl, rfl⟩
      | _ => cases s <;> exact (Bool.false_ne_true h).elim
    | zero s =>
      cases y with
      | notANumber => exact (Bool.false_ne_true h).elim
      | infinity t => cases t <;> exact (Bool.false_ne_true h).elim
      | zero t => exact .inr (.inl ⟨s, t, rfl, rfl⟩)
      | finite t => cases t <;> exact (Bool.false_ne_true h).elim
    | finite s m e hm =>
      cases y with
      | notANumber => exact (Bool.false_ne_true h).elim
      | infinity t => cases t <;> exact (Bool.false_ne_true h).elim
      | zero t => cases s <;> exact (Bool.false_ne_true h).elim
      | finite t n f hn =>
        obtain ⟨rfl, rfl, rfl⟩ := beq_finite.mp h
        exact .inr (.inr ⟨_, _, _, _, rfl, rfl⟩)
  · rintro (⟨s, rfl, rfl⟩ | ⟨s, t, rfl, rfl⟩ | ⟨s, m, e, hm, rfl, rfl⟩)
    · cases s <;> rfl
    · rfl
    · exact beq_finite.mpr ⟨rfl, rfl, rfl⟩

lemma unpack_of_isNaN (ha : IsNaN a) : unpack spec a = notANumber :=
  (if_pos ha.1).trans (if_neg ha.2)

lemma unpack_of_isInfinite (ha : IsInfinite a) : unpack spec a = infinity (sign a) :=
  (if_pos ha.1).trans (if_pos ha.2)

lemma unpack_of_isZero (ha : IsZero a) : unpack spec a = zero (sign a) := by
  have hne : unpackExponent a ≠ -1#_ := by
    simp [ha.1, Nat.ne_of_gt spec.he]
  exact (if_neg hne).trans ((if_pos ha.1).trans (dif_pos ha.2))

lemma toNat_one_append {w : Nat} (m : BitVec w) : (1#1 ++ m).toNat = 2 ^ w + m.toNat := by
  rw [BitVec.toNat_append, ← Nat.shiftLeft_add_eq_or_of_lt m.isLt]
  simp [Nat.shiftLeft_eq]

lemma unpack_of_finite (he : unpackExponent a ≠ -1#_) (hz : ¬IsZero a) :
    ∃ m e hpos, unpack spec a = finite (sign a) m e hpos ∧ m = significand a ∧ e = scale a := by
  by_cases h0 : unpackExponent a = 0#_
  · have hm : unpackMantissa a ≠ 0#_ := fun hm => hz ⟨h0, hm⟩
    refine ⟨_, _, _, (if_neg he).trans ((if_pos h0).trans (dif_neg hm)), ?_, ?_⟩
    · rw [significand, if_pos h0]
    · rw [scale, if_pos h0, h0, BitVec.toNat_ofNat, Nat.zero_mod]
      omega
  · refine ⟨_, _, _, (if_neg he).trans (if_neg h0), ?_, ?_⟩
    · rw [significand, if_neg h0, toNat_one_append]
    · rw [scale, if_neg h0]

lemma unpackSign_eq_of_sign_eq (hs : sign a = sign b) : unpackSign a = unpackSign b := by
  have hback : ∀ s : BitVec 1, (Sign.ofBitVec s).toBitVec = s := by decide
  rw [← hback (unpackSign a), ← hback (unpackSign b)]
  exact congrArg Sign.toBitVec hs

lemma exponent_eq_zero_iff : unpackExponent a = 0#_ ↔ (unpackExponent a).toNat = 0 :=
  ⟨fun h => by simp [h], fun h => BitVec.eq_of_toNat_eq (by simpa using h)⟩

lemma eq_of_finite (hs : sign a = sign b) (hm : significand a = significand b)
    (he : scale a = scale b) : a = b := by
  have ha := (unpackMantissa a).isLt
  have hb := (unpackMantissa b).isLt
  have hpow := Nat.two_pow_pos spec.mantissaBitsWithoutImplicit
  simp only [significand, scale, exponent_eq_zero_iff] at hm he
  apply eq_of_fields (unpackSign_eq_of_sign_eq hs)
  · apply BitVec.eq_of_toNat_eq
    grind
  · apply BitVec.eq_of_toNat_eq
    grind

lemma unpack_cases (a : BitVec spec.numBits) :
    (IsNaN a ∧ unpack spec a = notANumber) ∨
    (IsInfinite a ∧ unpack spec a = infinity (sign a)) ∨
    (IsZero a ∧ unpack spec a = zero (sign a)) ∨
    (unpackExponent a ≠ -1#_ ∧ ∃ m e hpos,
      unpack spec a = finite (sign a) m e hpos ∧ m = significand a ∧ e = scale a) := by
  by_cases he : unpackExponent a = -1#_
  · by_cases hm : unpackMantissa a = 0#_
    · exact .inr (.inl ⟨⟨he, hm⟩, unpack_of_isInfinite ⟨he, hm⟩⟩)
    · exact .inl ⟨⟨he, hm⟩, unpack_of_isNaN ⟨he, hm⟩⟩
  · by_cases hz : IsZero a
    · exact .inr (.inr (.inl ⟨hz, unpack_of_isZero hz⟩))
    · exact .inr (.inr (.inr ⟨he, unpack_of_finite he hz⟩))

lemma of_unpack_eq_infinity {s : Sign} (h : unpack spec a = infinity s) :
    IsInfinite a ∧ sign a = s := by
  rcases unpack_cases a with ⟨-, h'⟩ | ⟨ha, h'⟩ | ⟨-, h'⟩ | ⟨-, _, _, _, h', -⟩ <;>
    rw [h] at h' <;> cases h'
  exact ⟨ha, rfl⟩

lemma isZero_of_unpack_eq {s : Sign} (h : unpack spec a = zero s) : IsZero a := by
  rcases unpack_cases a with ⟨-, h'⟩ | ⟨-, h'⟩ | ⟨ha, -⟩ | ⟨-, _, _, _, h', -⟩
  case inr.inr.inl => exact ha
  all_goals rw [h] at h'; cases h'

lemma of_unpack_eq_finite {s : Sign} {m : Nat} {e : Int} {hpos : 0 < m}
    (h : unpack spec a = finite s m e hpos) :
    ¬IsNaN a ∧ sign a = s ∧ significand a = m ∧ scale a = e := by
  rcases unpack_cases a with ⟨-, h'⟩ | ⟨-, h'⟩ | ⟨-, h'⟩ | ⟨ha, _, _, _, h', hm, he⟩ <;>
    rw [h] at h' <;> cases h'
  exact ⟨fun h => ha h.1, rfl, hm.symm, he.symm⟩

lemma IsInfinite.not_isNaN (ha : IsInfinite a) : ¬IsNaN a :=
  fun h => h.2 ha.2

lemma IsZero.not_isNaN (ha : IsZero a) : ¬IsNaN a :=
  fun h => h.2 ha.2

lemma beq_unpack_iff (a b : BitVec spec.numBits) :
    (unpack spec a).beq (unpack spec b) = true ↔
      ¬IsNaN a ∧ ¬IsNaN b ∧ (a = b ∨ IsZero a ∧ IsZero b) := by
  rw [beq_iff]
  constructor
  · rintro (⟨s, ha, hb⟩ | ⟨s, t, ha, hb⟩ | ⟨s, m, e, h, ha, hb⟩)
    · obtain ⟨hia, hsa⟩ := of_unpack_eq_infinity ha
      obtain ⟨hib, hsb⟩ := of_unpack_eq_infinity hb
      refine ⟨hia.not_isNaN, hib.not_isNaN, .inl (eq_of_fields ?_ ?_ ?_)⟩
      · exact unpackSign_eq_of_sign_eq (hsa.trans hsb.symm)
      · exact hia.1.trans hib.1.symm
      · exact hia.2.trans hib.2.symm
    · have hza := isZero_of_unpack_eq ha
      have hzb := isZero_of_unpack_eq hb
      exact ⟨hza.not_isNaN, hzb.not_isNaN, .inr ⟨hza, hzb⟩⟩
    · obtain ⟨hna, hsa, hma, hea⟩ := of_unpack_eq_finite ha
      obtain ⟨hnb, hsb, hmb, heb⟩ := of_unpack_eq_finite hb
      exact ⟨hna, hnb, .inl (eq_of_finite (hsa.trans hsb.symm) (hma.trans hmb.symm)
        (hea.trans heb.symm))⟩
  · rintro ⟨hna, -, rfl | ⟨hza, hzb⟩⟩
    · rcases unpack_cases a with ⟨h, -⟩ | ⟨-, h⟩ | ⟨-, h⟩ | ⟨-, _, _, _, h, -⟩
      · exact absurd h hna
      · exact .inl ⟨_, h, h⟩
      · exact .inr (.inl ⟨_, _, h, h⟩)
      · exact .inr (.inr ⟨_, _, _, _, h, h⟩)
    · exact .inr (.inl ⟨_, _, unpack_of_isZero hza, unpack_of_isZero hzb⟩)

lemma toNat_mod_sign (a : BitVec spec.numBits) :
    a.toNat % 2 ^ (spec.mantissaBitsWithoutImplicit + spec.exponentBits) =
      (unpackMantissa a).toNat +
        2 ^ spec.mantissaBitsWithoutImplicit * (unpackExponent a).toNat := by
  rw [Nat.pow_add, Nat.mod_mul, toNat_unpackMantissa, toNat_unpackExponent]

lemma isNaN_iff (a : BitVec spec.numBits) :
    IsNaN a ↔ 2 ^ spec.mantissaBitsWithoutImplicit * (2 ^ spec.exponentBits - 1) <
      a.toNat % 2 ^ (spec.mantissaBitsWithoutImplicit + spec.exponentBits) := by
  have hm := (unpackMantissa a).isLt
  have he := (unpackExponent a).isLt
  rw [toNat_mod_sign, IsNaN, ← BitVec.toNat_inj, BitVec.neg_one_eq_allOnes,
    BitVec.toNat_allOnes, ne_eq, ← BitVec.toNat_inj, BitVec.toNat_ofNat, Nat.zero_mod]
  constructor
  · rintro ⟨h, h0⟩
    rw [h]
    omega
  · intro h
    have htop : (unpackExponent a).toNat = 2 ^ spec.exponentBits - 1 := by
      apply Nat.le_antisymm (Nat.le_sub_one_of_lt he)
      apply Nat.le_of_lt_succ
      apply Nat.lt_of_mul_lt_mul_left (a := 2 ^ spec.mantissaBitsWithoutImplicit)
      rw [Nat.mul_succ]
      omega
    refine ⟨htop, ?_⟩
    rw [htop] at h
    omega

lemma isZero_iff (a : BitVec spec.numBits) :
    IsZero a ↔ a.toNat % 2 ^ (spec.mantissaBitsWithoutImplicit + spec.exponentBits) = 0 := by
  have hpos := Nat.two_pow_pos spec.mantissaBitsWithoutImplicit
  rw [toNat_mod_sign, Nat.add_eq_zero_iff, Nat.mul_eq_zero, IsZero, ← BitVec.toNat_inj,
    ← BitVec.toNat_inj, BitVec.toNat_ofNat, BitVec.toNat_ofNat, Nat.zero_mod, Nat.zero_mod]
  omega

lemma ieeeEqual_eq_beq_unpack (a b : BitVec spec.numBits) :
    ieeeEqual (2 ^ (spec.mantissaBitsWithoutImplicit + spec.exponentBits))
        (2 ^ spec.mantissaBitsWithoutImplicit * (2 ^ spec.exponentBits - 1)) a.toNat b.toNat =
      (unpack spec a).beq (unpack spec b) := by
  rw [Bool.eq_iff_iff, beq_unpack_iff, isNaN_iff, isNaN_iff, isZero_iff, isZero_iff,
    ← BitVec.toNat_inj, ieeeEqual_iff, Nat.not_lt, Nat.not_lt]

lemma eq_packComponents {s : Sign} {exponent : BitVec spec.exponentBits}
    {mantissa : BitVec spec.mantissaBitsWithoutImplicit} (hs : sign a = s)
    (he : unpackExponent a = exponent) (hm : unpackMantissa a = mantissa) :
    packComponents spec s exponent mantissa = a := by
  apply eq_of_fields
  · apply unpackSign_eq_of_sign_eq
    rw [sign, unpackSign_packComponents, hs]
    cases s <;> rfl
  · rw [unpackExponent_packComponents, he]
  · rw [unpackMantissa_packComponents, hm]

lemma biased_scale (a : BitVec spec.numBits) :
    (scale a + spec.exponentBias + spec.mantissaBitsWithoutImplicit).toNat =
      if unpackExponent a = 0#_ then 1 else (unpackExponent a).toNat := by
  rw [scale]
  omega

lemma biased_scale_lt (hwide : 1 < spec.exponentBits) (hn : unpackExponent a ≠ -1#_) :
    (scale a + spec.exponentBias + spec.mantissaBitsWithoutImplicit).toNat + 1 <
      2 ^ spec.exponentBits := by
  rw [biased_scale]
  split
  · calc 1 + 1 < 2 ^ 2 := by decide
      _ ≤ 2 ^ spec.exponentBits := Nat.pow_le_pow_right Nat.two_pos hwide
  · have hlt := (unpackExponent a).isLt
    have hne : (unpackExponent a).toNat ≠ 2 ^ spec.exponentBits - 1 := fun h =>
      hn (BitVec.eq_of_toNat_eq (by rw [h, BitVec.neg_one_eq_allOnes, BitVec.toNat_allOnes]))
    omega

lemma log2_significand (hpos : 0 < significand a) :
    (significand a).log2 + 1 = spec.mantissaBits ↔ unpackExponent a ≠ 0#_ := by
  have hlt := (unpackMantissa a).isLt
  change _ + 1 = 1 + spec.mantissaBitsWithoutImplicit ↔ _
  rw [Nat.add_comm 1, Nat.add_right_cancel_iff, Nat.log2_eq_iff (Nat.ne_of_gt hpos), significand,
    Nat.pow_succ]
  split
  case isTrue h0 =>
    simp only [h0, ne_eq, not_true_eq_false, iff_false]
    omega
  case isFalse h0 =>
    simp only [ne_eq, h0, not_false_eq_true, iff_true]
    omega

lemma ofNat_significand (a : BitVec spec.numBits) :
    BitVec.ofNat _ (significand a) = unpackMantissa a := by
  apply BitVec.eq_of_toNat_eq
  rw [BitVec.toNat_ofNat, significand]
  split
  · exact Nat.mod_eq_of_lt (unpackMantissa a).isLt
  · rw [Nat.add_mod_left]
    exact Nat.mod_eq_of_lt (unpackMantissa a).isLt

lemma pack_finite (hpos : 0 < significand a) (hwide : 1 < spec.exponentBits)
    (hn : unpackExponent a ≠ -1#_) :
    pack spec (finite (sign a) (significand a) (scale a) hpos) = a := by
  refine (if_neg (Nat.not_le_of_gt (biased_scale_lt hwide hn))).trans ?_
  rw [ofNat_significand]
  by_cases h0 : unpackExponent a = 0#_
  · rw [if_neg fun h => (log2_significand hpos).mp h h0]
    exact eq_packComponents rfl h0 rfl
  · rw [if_pos ((log2_significand hpos).mpr h0)]
    refine eq_packComponents rfl ?_ rfl
    rw [biased_scale, if_neg h0, BitVec.ofNat_toNat, BitVec.setWidth_eq]

lemma pack_unpack (hwide : 1 < spec.exponentBits) (hn : ¬IsNaN a) :
    pack spec (unpack spec a) = a := by
  rcases unpack_cases a with ⟨h, -⟩ | ⟨ha, h⟩ | ⟨ha, h⟩ | ⟨he, _, _, hpos, h, rfl, rfl⟩
  · exact absurd h hn
  · rw [h]
    exact eq_packComponents rfl ha.1 ha.2
  · rw [h]
    exact eq_packComponents rfl ha.1 ha.2
  · rw [h, pack_finite hpos hwide he]

lemma unpack_pack_unpack (hwide : 1 < spec.exponentBits) (a : BitVec spec.numBits) :
    unpack spec (pack spec (unpack spec a)) = unpack spec a := by
  by_cases hn : IsNaN a
  · rw [unpack_of_isNaN hn]
    apply unpack_of_isNaN
    constructor
    · exact unpackExponent_packComponents
    · change unpackMantissa (packComponents spec _ _ _) ≠ _
      rw [unpackMantissa_packComponents]
      intro h
      have hbit := congrArg (·.getLsbD (spec.mantissaBitsWithoutImplicit - 1)) h
      have htop : spec.mantissaBitsWithoutImplicit - 1 < spec.mantissaBitsWithoutImplicit :=
        Nat.sub_one_lt_of_lt spec.hm
      simp only [BitVec.getLsbD_shiftLeft, BitVec.getLsbD_one, BitVec.getLsbD_zero, htop, spec.hm,
        Nat.lt_irrefl, Nat.sub_self, decide_true, decide_false, Bool.not_false, Bool.and_true,
        Bool.true_eq_false] at hbit
  · rw [pack_unpack hwide hn]

end Ieee

namespace Scalar

lemma beq_ofBits_float32 (p q : UInt32) :
    (Float32.ofBits p == Float32.ofBits q) =
      (unpack .binary32 p.toBitVec).beq (unpack .binary32 q.toBitVec) := by
  change (unpack .binary32 (pack .binary32 (unpack .binary32 p.toBitVec))).beq
    (unpack .binary32 (pack .binary32 (unpack .binary32 q.toBitVec))) = _
  rw [Ieee.unpack_pack_unpack (by decide), Ieee.unpack_pack_unpack (by decide)]

lemma same_float32 (p q : UInt32) :
    (Scalar.float32 p).same (.float32 q) = (Float32.ofBits p == Float32.ofBits q) := by
  rw [beq_ofBits_float32]
  exact @Ieee.ieeeEqual_eq_beq_unpack .binary32 p.toBitVec q.toBitVec

lemma beq_ofBits_float64 (p q : UInt64) :
    (Float.ofBits p == Float.ofBits q) =
      (unpack .binary64 p.toBitVec).beq (unpack .binary64 q.toBitVec) := by
  change (unpack .binary64 (pack .binary64 (unpack .binary64 p.toBitVec))).beq
    (unpack .binary64 (pack .binary64 (unpack .binary64 q.toBitVec))) = _
  rw [Ieee.unpack_pack_unpack (by decide), Ieee.unpack_pack_unpack (by decide)]

lemma same_float64 (p q : UInt64) :
    (Scalar.float64 p).same (.float64 q) = (Float.ofBits p == Float.ofBits q) := by
  rw [beq_ofBits_float64]
  exact @Ieee.ieeeEqual_eq_beq_unpack .binary64 p.toBitVec q.toBitVec

/-- Scalars are equal when they are the same, or when they are floating-point numbers of one width
and equal as numbers. A NaN differs from itself, and the two zeros are equal. -/
def Equal : Scalar → Scalar → Prop
  | .float32 p, .float32 q => (Float32.ofBits p == Float32.ofBits q) = true
  | .float64 p, .float64 q => (Float.ofBits p == Float.ofBits q) = true
  | a, b => a = b

lemma same_iff_equal (a b : Scalar) : a.same b = true ↔ a.Equal b := by
  cases a with
  | float32 p =>
    cases b with
    | float32 q => rw [same_float32, Equal]
    | _ => simp [same, Equal]
  | float64 p =>
    cases b with
    | float64 q => rw [same_float64, Equal]
    | _ => simp [same, Equal]
  | _ => cases b <;> simp [same, Equal]

example : ¬(Scalar.float32 0x7fc00000).Equal (.float32 0x7fc00000) := by
  rw [← same_iff_equal]
  decide

lemma ieeeEqual_symm {s i a b : Nat} (h : ieeeEqual s i a b = true) :
    ieeeEqual s i b a = true := by
  rw [ieeeEqual_iff] at h ⊢
  omega

lemma ieeeEqual_trans {s i a b c : Nat} (hab : ieeeEqual s i a b = true)
    (hbc : ieeeEqual s i b c = true) : ieeeEqual s i a c = true := by
  rw [ieeeEqual_iff] at *
  obtain ⟨ha, -, rfl | ⟨ha', hb'⟩⟩ := hab
  · exact hbc
  · obtain ⟨-, hc, rfl | ⟨-, hc'⟩⟩ := hbc
    · exact ⟨ha, hc, .inr ⟨ha', hb'⟩⟩
    · exact ⟨ha, hc, .inr ⟨ha', hc'⟩⟩

lemma same_symm {a b : Scalar} (h : a.same b = true) : b.same a = true := by
  cases a <;> cases b <;> simp_all [same, ieeeEqual_symm]

lemma same_trans {a b c : Scalar} (hab : a.same b = true) (hbc : b.same c = true) :
    a.same c = true := by
  cases b with
  | float32 q =>
    cases a <;> cases c <;> simp [same] at hab hbc
    exact ieeeEqual_trans hab hbc
  | float64 q =>
    cases a <;> cases c <;> simp [same] at hab hbc
    exact ieeeEqual_trans hab hbc
  | _ =>
    cases c <;> simp [same] at hbc
    subst hbc
    exact hab

lemma Equal.symm {a b : Scalar} (h : a.Equal b) : b.Equal a :=
  (same_iff_equal b a).mp (same_symm ((same_iff_equal a b).mpr h))

lemma Equal.trans {a b c : Scalar} (hab : a.Equal b) (hbc : b.Equal c) : a.Equal c :=
  (same_iff_equal a c).mp
    (same_trans ((same_iff_equal a b).mpr hab) ((same_iff_equal b c).mpr hbc))

end Scalar

end ObjectBroker
