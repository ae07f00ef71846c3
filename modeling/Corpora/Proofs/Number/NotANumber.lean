import Corpora.Vector.Basic
import Mathlib

/-!
When a number is not a number. By its bits it is one whose magnitude lies beyond infinity, and to
be converted from one format to another neither makes nor mends it.
-/

namespace Corpora

namespace Number

open Float.Model (UnpackedFloat)

section Unpacked

open Float.Model.UnpackedFloat

variable {spec : Float.Model.Format}

theorem two_le_pow_exponentBits (spec : Float.Model.Format) : 2 ≤ 2 ^ spec.exponentBits := by
  have some := spec.he
  calc
    2 = 2 ^ 1 := rfl
    _ ≤ 2 ^ spec.exponentBits := Nat.pow_le_pow_right (by decide) (by omega)

theorem ofNat_ne_ones (spec : Float.Model.Format) {n : Nat} (below : n + 1 < 2 ^ spec.exponentBits) :
    BitVec.ofNat spec.exponentBits n ≠ -1#_ := by
  intro same
  have numbers := congrArg BitVec.toNat same
  rw [BitVec.toNat_ofNat, Nat.mod_eq_of_lt (by omega), BitVec.neg_one_eq_allOnes,
    BitVec.toNat_allOnes] at numbers
  omega

theorem highest_ne_zero : (BitVec.ofNat spec.mantissaBitsWithoutImplicit 1 <<<
    (spec.mantissaBitsWithoutImplicit - 1)) ≠ 0#_ := by
  have some := spec.hm
  intro same
  have numbers := congrArg BitVec.toNat same
  have below : 2 ^ (spec.mantissaBitsWithoutImplicit - 1) < 2 ^ spec.mantissaBitsWithoutImplicit :=
    Nat.pow_lt_pow_right (by decide) (by omega)
  have positive := Nat.two_pow_pos (spec.mantissaBitsWithoutImplicit - 1)
  rw [BitVec.toNat_shiftLeft, BitVec.toNat_ofNat, Nat.mod_eq_of_lt (Nat.one_lt_two_pow (by omega)),
    Nat.one_shiftLeft, Nat.mod_eq_of_lt below, BitVec.toNat_zero] at numbers
  omega

-- The exponent of a number that is not finite has all bits set; infinity has no other bit below.
theorem unpack_isNaN (b : BitVec spec.numBits) :
    (unpack spec b).isNaN = true ↔ unpackExponent b = -1#_ ∧ unpackMantissa b ≠ 0#_ := by
  dsimp only [unpack]
  split
  · next ones =>
    split
    · next empty => simp [isNaN, empty]
    · next full => simp [isNaN, ones, full]
  · next other =>
    split
    · split <;> simp [isNaN, other]
    · simp [isNaN, other]

theorem pack_isNaN (spec : Float.Model.Format) (f : UnpackedFloat) : (unpack spec (pack spec f)).isNaN = f.isNaN := by
  have zero : BitVec.ofNat spec.exponentBits 0 ≠ -1#_ :=
    ofNat_ne_ones spec (two_le_pow_exponentBits spec)
  rw [Bool.eq_iff_iff, unpack_isNaN]
  fun_cases pack with
  | case1 => simp [packedNaN, isNaN, highest_ne_zero]
  | case2 sign => simp [packedInfinity, isNaN]
  | case3 sign => simp [packedZero, isNaN]
  | case4 sign significand exponent positive biased tooLarge => simp [packedInfinity, isNaN]
  | case5 sign significand exponent positive log biased fits normal =>
      have ones := ofNat_ne_ones spec (Nat.lt_of_not_le fits)
      simp [isNaN, ones]
  | case6 sign significand exponent positive log biased fits subnormal =>
      simp only [unpackExponent_packComponents, zero, false_and, isNaN, Bool.false_eq_true]

theorem unpackMantissa_toNat (b : BitVec spec.numBits) :
    (unpackMantissa b).toNat = b.toNat % 2 ^ spec.mantissaBitsWithoutImplicit := by
  have some := spec.hm
  have width : spec.mantissaBitsWithoutImplicit - 1 - 0 + 1 = spec.mantissaBitsWithoutImplicit := by
    omega
  simp only [unpackMantissa, BitVec.toNat_cast, BitVec.extractLsb_toNat, Nat.shiftRight_zero, width]

theorem unpackExponent_toNat (b : BitVec spec.numBits) :
    (unpackExponent b).toNat =
      b.toNat / 2 ^ spec.mantissaBitsWithoutImplicit % 2 ^ spec.exponentBits := by
  have some := spec.he
  have width : spec.mantissaBitsWithoutImplicit + spec.exponentBits - 1 -
      spec.mantissaBitsWithoutImplicit + 1 = spec.exponentBits := by omega
  simp only [unpackExponent, BitVec.toNat_cast, BitVec.extractLsb_toNat,
    Nat.shiftRight_eq_div_pow, width]

theorem beyond_iff {exponents significands : Nat} (bits : Nat) (some : 0 < significands)
    (two : 2 ≤ exponents) :
    (bits / significands % exponents = exponents - 1 ∧ bits % significands ≠ 0) ↔
      (exponents - 1) * significands < bits % (significands * exponents) := by
  have low := Nat.mod_lt bits some
  have high := Nat.mod_lt (bits / significands) (show 0 < exponents by omega)
  rw [Nat.mod_mul]
  generalize bits / significands % exponents = exponent at high ⊢
  generalize bits % significands = significand at low ⊢
  by_cases top : exponent = exponents - 1
  · subst top
    rw [Nat.mul_comm significands]
    omega
  · have less : significands * (exponent + 1) ≤ significands * (exponents - 1) :=
      Nat.mul_le_mul_left _ (by omega)
    rw [Nat.mul_comm (exponents - 1)]
    rw [Nat.mul_succ] at less
    omega

theorem isNaN_iff_beyond (b : BitVec spec.numBits) :
    (unpack spec b).isNaN = true ↔
      (2 ^ spec.exponentBits - 1) * 2 ^ spec.mantissaBitsWithoutImplicit <
        b.toNat % (2 ^ spec.mantissaBitsWithoutImplicit * 2 ^ spec.exponentBits) := by
  rw [← beyond_iff _ (Nat.two_pow_pos _) (two_le_pow_exponentBits spec), unpack_isNaN, Ne,
    ← BitVec.toNat_inj, ← BitVec.toNat_inj, unpackExponent_toNat, unpackMantissa_toNat,
    BitVec.neg_one_eq_allOnes, BitVec.toNat_allOnes, BitVec.toNat_zero]

end Unpacked

theorem ofBits_isNaN (bits : UInt64) :
    (Float.ofBits bits).isNaN = true ↔ double.infinity < bits.toNat % double.signBit := by
  change (Float.Model.ofBits bits).unpack.isNaN = true ↔ _
  have packed := pack_isNaN .binary64
    (Float.Model.UnpackedFloat.unpack .binary64 bits.toBitVec)
  have same : (Float.Model.ofBits bits).unpack.isNaN =
      (Float.Model.UnpackedFloat.unpack .binary64 bits.toBitVec).isNaN := packed
  rw [same, isNaN_iff_beyond]
  rfl

theorem ofBits32_isNaN (bits : UInt32) :
    (Float32.ofBits bits).isNaN = true ↔ single.infinity < bits.toNat % single.signBit := by
  have packed := pack_isNaN .binary32
    (Float.Model.UnpackedFloat.unpack .binary32 bits.toBitVec)
  have same : (Float32.ofBits bits).isNaN =
      (Float.Model.UnpackedFloat.unpack .binary32 bits.toBitVec).isNaN := packed
  rw [same, isNaN_iff_beyond]
  rfl

theorem decode_eq_nan (format : Format) (bits : Nat) :
    decode format bits = .nan ↔ format.infinity < bits % format.signBit := by
  dsimp only [decode]
  split
  · next beyond => simpa using beyond
  · next within =>
    split
    · simp [within]
    · split <;> simp [within]

theorem nearest_le_infinity (format : Format) (numerator denominator : Nat) :
    nearest format numerator denominator ≤ format.infinity := by
  unfold nearest
  split
  · exact Nat.zero_le _
  · exact Nat.min_le_right _ _

theorem withSign_mod (format : Format) (negative : Bool) {bits : Nat}
    (small : bits < format.signBit) : withSign format negative bits % format.signBit = bits := by
  unfold withSign
  split
  · rw [Nat.add_mod_left, Nat.mod_eq_of_lt small]
  · exact Nat.mod_eq_of_lt small

theorem decode_convert_nan (bits : Nat) :
    decode double (convert single double bits) = .nan ↔ decode single bits = .nan := by
  have fits : double.infinity < double.signBit := by decide
  have numeric : ∀ negative magnitude, magnitude ≤ double.infinity →
      decode double (withSign double negative magnitude) ≠ .nan := by
    intro negative magnitude within
    rw [Ne, decode_eq_nan, withSign_mod _ _ (Nat.lt_of_le_of_lt within fits)]
    exact Nat.not_lt.mpr within
  unfold convert
  cases found : decode single bits with
  | nan =>
      simp only [decode_eq_nan]
      decide
  | infinite negative => simpa using numeric negative _ (Nat.le_refl _)
  | finite negative significand exponent =>
      cases exponent with
      | ofNat up => simpa using numeric negative _ (nearest_le_infinity _ _ _)
      | negSucc down => simpa using numeric negative _ (nearest_le_infinity _ _ _)

end Number

theorem Element.widen_isNaN (element : Element) : element.widen.isNaN = element.value.isNaN := by
  have kept := Number.decode_convert_nan element.bits.toNat
  rw [Number.decode_eq_nan, Number.decode_eq_nan] at kept
  rw [Bool.eq_iff_iff, Element.widen, Element.value, Number.ofBits_isNaN, Number.ofBits32_isNaN,
    UInt64.toNat_ofNat', Nat.mod_mod_of_dvd _ (by decide : Number.double.signBit ∣ 2 ^ 64)]
  exact kept

end Corpora
