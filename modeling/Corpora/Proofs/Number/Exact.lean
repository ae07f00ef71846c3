import Corpora.Proofs.Number.NotANumber

/-!
What numbers stand for, as rationals. The positive numbers of a format lie on a grid, in the order
of their bits: each one is the one below it and a power of two, which doubles where the significand
starts anew. Infinity has the place behind the last of them.
-/

namespace Corpora

namespace Number

open Float.Model (UnpackedFloat)

def Format.hidden (format : Format) : ℕ := Nat.pow 2 (format.precision - 1)

/-- What the bits of a positive number stand for. -/
def grid (format : Format) (bits : ℕ) : ℚ :=
  let step := bits / format.hidden - 1
  (bits - step * format.hidden : ℕ) * 2 ^ (format.leastExponent + step : ℤ)

section Grid

variable {format : Format}

theorem hidden_pos (format : Format) : 0 < format.hidden := Nat.two_pow_pos _

theorem two_zpow_pos (exponent : ℤ) : (0 : ℚ) < 2 ^ exponent := zpow_pos (by norm_num) exponent

theorem grid_of_step {bits step : ℕ} (found : bits / format.hidden - 1 = step) :
    grid format bits =
      (bits - step * format.hidden : ℕ) * 2 ^ (format.leastExponent + step : ℤ) := by
  subst found
  rfl

theorem grid_eq {step significand : ℕ} (lower : step = 0 ∨ format.hidden ≤ significand)
    (upper : significand ≤ 2 * format.hidden) :
    grid format (step * format.hidden + significand) =
      significand * 2 ^ (format.leastExponent + step : ℤ) := by
  have some := hidden_pos format
  have quotient : (step * format.hidden + significand) / format.hidden =
      significand / format.hidden + step := by
    rw [Nat.add_comm, Nat.add_mul_div_right _ _ some]
  rcases Nat.lt_or_eq_of_le upper with less | rfl
  · have place : (step * format.hidden + significand) / format.hidden - 1 = step := by
      rw [quotient]
      rcases lower with rfl | full
      · have small : significand / format.hidden < 2 := (Nat.div_lt_iff_lt_mul some).mpr less
        omega
      · rw [Nat.div_eq_of_lt_le (by omega) (by omega : significand < (1 + 1) * format.hidden)]
        omega
    rw [grid_of_step place, Nat.add_sub_cancel_left]
  · -- Twice the least significand is the start of the next step.
    have place : (step * format.hidden + 2 * format.hidden) / format.hidden - 1 = step + 1 := by
      rw [quotient, Nat.mul_div_cancel _ some]
      omega
    have left : step * format.hidden + 2 * format.hidden - (step + 1) * format.hidden =
        format.hidden := by
      rw [Nat.succ_mul step]
      omega
    rw [grid_of_step place, left, Nat.cast_add_one, ← add_assoc, zpow_add_one₀ two_ne_zero,
      Nat.cast_mul]
    ring

theorem exists_step (format : Format) (bits : ℕ) : ∃ step significand,
    bits = step * format.hidden + significand ∧ (step = 0 ∨ format.hidden ≤ significand) ∧
      significand < 2 * format.hidden := by
  have parts := Nat.div_add_mod bits format.hidden
  have less := Nat.mod_lt bits (hidden_pos format)
  rw [Nat.mul_comm] at parts
  cases quotient : bits / format.hidden with
  | zero =>
      rw [quotient, Nat.zero_mul, Nat.zero_add] at parts
      exact ⟨0, bits, by rw [Nat.zero_mul, Nat.zero_add], Or.inl rfl, by omega⟩
  | succ step =>
      rw [quotient, Nat.succ_mul] at parts
      exact ⟨step, format.hidden + bits % format.hidden, by omega, Or.inr (by omega), by omega⟩

theorem grid_lt_succ (format : Format) (bits : ℕ) : grid format bits < grid format (bits + 1) := by
  obtain ⟨step, significand, rfl, lower, upper⟩ := exists_step format bits
  rw [grid_eq lower (by omega), Nat.add_assoc, grid_eq (by omega) (by omega)]
  exact mul_lt_mul_of_pos_right (by exact_mod_cast Nat.lt_succ_self significand) (two_zpow_pos _)

theorem grid_strictMono (format : Format) : StrictMono (grid format) :=
  strictMono_nat_of_lt_succ (grid_lt_succ format)

theorem grid_zero (format : Format) : grid format 0 = 0 := by
  have zero := @grid_eq format 0 0 (Or.inl rfl) (Nat.zero_le _)
  rwa [Nat.zero_mul, Nat.cast_zero, zero_mul] at zero

theorem grid_of_small {bits : ℕ} (small : bits < format.hidden) :
    grid format bits = bits * 2 ^ format.leastExponent := by
  have place := @grid_eq format 0 bits (Or.inl rfl) (by omega)
  rwa [Nat.zero_mul, Nat.zero_add, Nat.cast_zero, add_zero] at place

theorem grid_of_large {bits : ℕ} (large : format.hidden ≤ bits) : grid format bits =
    (bits % format.hidden + format.hidden : ℕ) *
      2 ^ (format.leastExponent + (bits / format.hidden - 1 : ℕ)) := by
  have less := Nat.mod_lt bits (hidden_pos format)
  have reaches := Nat.div_pos large (hidden_pos format)
  have parts := Nat.div_add_mod' bits format.hidden
  have place := @grid_eq format (bits / format.hidden - 1)
    (bits % format.hidden + format.hidden) (Or.inr (by omega)) (by omega)
  have whole : (bits / format.hidden - 1) * format.hidden +
      (bits % format.hidden + format.hidden) = bits := by
    have kept := Nat.mul_le_mul_right format.hidden reaches
    rw [Nat.sub_mul, Nat.one_mul]
    omega
  rwa [whole] at place

theorem grid_nonneg (format : Format) (bits : ℕ) : 0 ≤ grid format bits := by
  rw [← grid_zero format]
  exact (grid_strictMono format).monotone (Nat.zero_le bits)

end Grid

def Format.negative (format : Format) (bits : ℕ) : Bool := bits / format.signBit % 2 == 1

section Bits

variable {format : Format} {bits significand : ℕ} {exponent : ℤ} {negative : Bool}

theorem signBit_pos (format : Format) : 0 < format.signBit := Nat.two_pow_pos _

theorem bits_eq (small : bits < 2 * format.signBit) :
    bits = withSign format (format.negative bits) (bits % format.signBit) := by
  have parts := Nat.div_add_mod' bits format.signBit
  have sign : bits / format.signBit < 2 := (Nat.div_lt_iff_lt_mul (signBit_pos format)).mpr small
  rw [withSign, Format.negative]
  generalize bits / format.signBit = digit at parts sign
  interval_cases digit <;> simp <;> omega

theorem withSign_lt (small : bits < format.signBit) :
    withSign format negative bits < 2 * format.signBit := by
  rw [withSign]
  split <;> omega

theorem negative_withSign (small : bits < format.signBit) :
    format.negative (withSign format negative bits) = negative := by
  rw [Format.negative, withSign]
  cases negative
  · simp [Nat.div_eq_of_lt small]
  · simp [Nat.add_div_left _ (signBit_pos format), Nat.div_eq_of_lt small]

theorem bits_inj {other : ℕ} (small : bits < 2 * format.signBit)
    (small' : other < 2 * format.signBit) (sign : format.negative bits = format.negative other)
    (same : bits % format.signBit = other % format.signBit) : bits = other := by
  rw [bits_eq small, bits_eq small', sign, same]

theorem decode_finite (found : decode format bits = .finite negative significand exponent) :
    negative = format.negative bits ∧ significand < 2 * format.hidden ∧
      significand * 2 ^ exponent = grid format (bits % format.signBit) := by
  dsimp only [decode] at found
  split at found
  · cases found
  split at found
  · cases found
  split at found
  · next small =>
    cases found
    have less : bits % format.signBit < format.hidden := small
    exact ⟨rfl, by omega, (grid_of_small small).symm⟩
  · next large =>
    cases found
    have less := Nat.mod_lt (bits % format.signBit) (hidden_pos format)
    have full : bits % format.signBit % format.hidden + format.hidden < 2 * format.hidden := by
      omega
    exact ⟨rfl, full, (grid_of_large (Nat.le_of_not_lt large)).symm⟩

theorem decode_infinite (found : decode format bits = .infinite negative) :
    negative = format.negative bits ∧ bits % format.signBit = format.infinity := by
  dsimp only [decode] at found
  split at found
  · cases found
  split at found
  · next same =>
    cases found
    exact ⟨rfl, same⟩
  · split at found <;> cases found

end Bits

section Unpacked

open Float.Model.UnpackedFloat

def signFactor (negative : Bool) : ℚ := if negative then -1 else 1

theorem abs_signFactor_mul (negative : Bool) (value : ℚ) :
    |signFactor negative * value| = |value| := by
  cases negative <;> simp [signFactor]

/-- What an unpacked number stands for. Infinity counts as the power of two that is just too large
to be written, and NaN, which stands for nothing, as zero. -/
def exactUnpacked (spec : Float.Model.Format) : UnpackedFloat → ℚ
  | .notANumber => 0
  | .infinity sign => signFactor (sign == .negative) * 2 ^ 2 ^ (spec.exponentBits - 1)
  | .zero _ => 0
  | .finite sign mantissa exponent _ => signFactor (sign == .negative) * (mantissa * 2 ^ exponent)

def Format.ofModel (spec : Float.Model.Format) : Format :=
  ⟨spec.numBits, spec.mantissaBits, spec.minExponent⟩

variable {spec : Float.Model.Format}

theorem hidden_ofModel (spec : Float.Model.Format) :
    (Format.ofModel spec).hidden = 2 ^ spec.mantissaBitsWithoutImplicit := by
  change Nat.pow 2 (1 + spec.mantissaBitsWithoutImplicit - 1) = _
  rw [Nat.add_sub_cancel_left]
  rfl

theorem signBit_ofModel (spec : Float.Model.Format) : (Format.ofModel spec).signBit =
    2 ^ spec.mantissaBitsWithoutImplicit * 2 ^ spec.exponentBits := by
  have width : spec.numBits - 1 = spec.mantissaBitsWithoutImplicit + spec.exponentBits := by
    change 1 + spec.exponentBits + spec.mantissaBitsWithoutImplicit - 1 = _
    omega
  change Nat.pow 2 (spec.numBits - 1) = _
  rw [width, ← pow_add]
  rfl

theorem unpackSign_toNat (b : BitVec spec.numBits) :
    (unpackSign b).toNat = b.toNat / (Format.ofModel spec).signBit % 2 := by
  simp only [unpackSign_def, BitVec.extractLsb'_toNat, Nat.shiftRight_eq_div_pow, signBit_ofModel,
    pow_add, pow_one]

theorem signFactor_unpack (b : BitVec spec.numBits) :
    signFactor (Sign.ofBitVec (unpackSign b) == .negative) =
      signFactor ((Format.ofModel spec).negative b.toNat) := by
  rw [Format.negative, ← unpackSign_toNat]
  generalize unpackSign b = sign
  revert sign
  decide

theorem exponentBias_cast (spec : Float.Model.Format) :
    (spec.exponentBias : ℤ) = 2 ^ (spec.exponentBits - 1) - 1 := by
  have some := Nat.two_pow_pos (spec.exponentBits - 1)
  rw [Float.Model.Format.exponentBias, Nat.cast_sub some, Nat.cast_pow, Nat.cast_one,
    Nat.cast_ofNat]

theorem leastExponent_ofModel (spec : Float.Model.Format) : (Format.ofModel spec).leastExponent =
    1 - (spec.exponentBias + spec.mantissaBitsWithoutImplicit : ℤ) := by
  change 3 - 2 ^ (spec.exponentBits - 1) - ((1 + spec.mantissaBitsWithoutImplicit : ℕ) : ℤ) = _
  rw [exponentBias_cast, Nat.cast_add]
  ring

theorem magnitude_parts (b : BitVec spec.numBits) : b.toNat % (Format.ofModel spec).signBit =
    (unpackExponent b).toNat * (Format.ofModel spec).hidden + (unpackMantissa b).toNat := by
  rw [signBit_ofModel, hidden_ofModel, unpackExponent_toNat, unpackMantissa_toNat, Nat.mod_mul]
  ring

theorem grid_parts (b : BitVec spec.numBits) :
    grid (Format.ofModel spec) (b.toNat % (Format.ofModel spec).signBit) =
      if (unpackExponent b).toNat = 0 then
        ((unpackMantissa b).toNat : ℚ) * 2 ^ (Format.ofModel spec).leastExponent
      else ((2 ^ spec.mantissaBitsWithoutImplicit + (unpackMantissa b).toNat : ℕ) : ℚ) *
        2 ^ ((unpackExponent b).toNat -
          (spec.exponentBias + spec.mantissaBitsWithoutImplicit) : ℤ) := by
  have less : (unpackMantissa b).toNat ≤ (Format.ofModel spec).hidden := by
    rw [hidden_ofModel]
    exact Nat.le_of_lt (unpackMantissa b).isLt
  rw [magnitude_parts]
  split
  · next zero =>
    have place := @grid_eq (Format.ofModel spec) 0 (unpackMantissa b).toNat (Or.inl rfl) (by omega)
    rwa [Nat.cast_zero, add_zero, ← zero] at place
  · next some =>
    obtain ⟨step, found⟩ := Nat.exists_eq_succ_of_ne_zero some
    rw [found, Nat.succ_mul, Nat.add_assoc, grid_eq (Or.inr (by omega)) (by omega),
      leastExponent_ofModel, hidden_ofModel, Nat.succ_eq_add_one, Nat.cast_add_one]
    congr 2
    ring

theorem toNat_of_ones {exponent : BitVec spec.exponentBits} (ones : exponent = -1#_) :
    exponent.toNat = 2 ^ spec.exponentBits - 1 := by
  rw [ones, BitVec.neg_one_eq_allOnes, BitVec.toNat_allOnes]

theorem toNat_one_append {width : ℕ} (mantissa : BitVec width) :
    (1#1 ++ mantissa).toNat = 2 ^ width + mantissa.toNat := by
  have apart := Nat.two_pow_add_eq_or_of_lt mantissa.isLt 1
  rw [Nat.mul_one] at apart
  rw [BitVec.toNat_append, apart, Nat.shiftLeft_eq, BitVec.toNat_one (by decide), Nat.one_mul]

theorem infinity_place (spec : Float.Model.Format) :
    ((2 ^ spec.mantissaBitsWithoutImplicit : ℕ) : ℚ) * 2 ^ (((2 ^ spec.exponentBits - 1 : ℕ) : ℤ) -
      (spec.exponentBias + spec.mantissaBitsWithoutImplicit)) =
        2 ^ 2 ^ (spec.exponentBits - 1) := by
  have some := spec.he
  have double : (2 : ℤ) ^ spec.exponentBits = 2 * 2 ^ (spec.exponentBits - 1) := by
    rw [← pow_succ', Nat.sub_add_cancel some]
  rw [Nat.cast_sub Nat.one_le_two_pow, exponentBias_cast, Nat.cast_pow, Nat.cast_pow, Nat.cast_one,
    Nat.cast_ofNat, Nat.cast_ofNat, double, ← zpow_natCast, ← zpow_add₀ two_ne_zero, ← zpow_natCast]
  congr 1
  push_cast
  ring

/-- Bits stand for the number at their place of the grid, with their sign. -/
theorem exact_unpack (b : BitVec spec.numBits) (numeric : (unpack spec b).isNaN = false) :
    exactUnpacked spec (unpack spec b) =
      signFactor ((Format.ofModel spec).negative b.toNat) *
        grid (Format.ofModel spec) (b.toNat % (Format.ofModel spec).signBit) := by
  rw [← signFactor_unpack, grid_parts]
  revert numeric
  fun_cases unpack spec b with
  | case1 mantissa exponent signBits sign ones empty =>
      intro
      have full : (unpackExponent b).toNat = 2 ^ spec.exponentBits - 1 := toNat_of_ones ones
      have none : (unpackMantissa b).toNat = 0 := congrArg BitVec.toNat empty
      have some := two_le_pow_exponentBits spec
      rw [full, if_neg (by omega), none, Nat.add_zero, infinity_place]
      rfl
  | case2 mantissa exponent ones full => exact fun numeric => absurd numeric (by decide)
  | case3 mantissa exponent signBits sign other zero empty =>
      intro
      have least : (unpackExponent b).toNat = 0 := congrArg BitVec.toNat zero
      have none : (unpackMantissa b).toNat = 0 := congrArg BitVec.toNat empty
      rw [if_pos least, none, Nat.cast_zero, zero_mul, mul_zero]
      rfl
  | case4 mantissa exponent place signBits sign other zero some =>
      intro
      have least : (unpackExponent b).toNat = 0 := congrArg BitVec.toNat zero
      have lowest : place + 1 = (Format.ofModel spec).leastExponent := by
        change ((unpackExponent b).toNat : ℤ) - _ + 1 = _
        rw [least, leastExponent_ofModel]
        ring
      rw [if_pos least, exactUnpacked, lowest]
  | case5 mantissa exponent place signBits sign other large =>
      intro
      have some : (unpackExponent b).toNat ≠ 0 := fun same => large (BitVec.eq_of_toNat_eq same)
      rw [if_neg some, exactUnpacked, toNat_one_append]

theorem isNaNBits_iff {b : BitVec spec.numBits} :
    isNaNBits b = true ↔ (unpack spec b).isNaN = true := by
  rw [isNaNBits, decide_eq_true_iff, unpack_isNaN]

end Unpacked

section Double

def exact (x : Float) : ℚ := exactUnpacked .binary64 x.toModel.unpack

def isNegative (x : Float) : Bool := double.negative x.toBits.toNat

def magnitude (x : Float) : ℕ := x.toBits.toNat % double.signBit

theorem exact_eq {x : Float} (numeric : x.isNaN = false) :
    exact x = signFactor (isNegative x) * grid double (magnitude x) :=
  @exact_unpack .binary64 x.toBits.toBitVec numeric

theorem isNaN_eq_false_iff (x : Float) : x.isNaN = false ↔ magnitude x ≤ double.infinity := by
  have beyond := ofBits_isNaN x.toBits
  rw [Float.ofBits_toBits] at beyond
  rw [← Bool.not_eq_true, beyond, Nat.not_lt, magnitude]

theorem toBits_ofBits {bits : ℕ} (small : bits < 2 ^ 64)
    (numeric : bits % double.signBit ≤ double.infinity) :
    (Float.ofBits (UInt64.ofNat bits)).toBits.toNat = bits := by
  have same : (UInt64.ofNat bits).toNat = bits := by
    rw [UInt64.toNat_ofNat', Nat.mod_eq_of_lt small]
  have packed := @Float.Model.UnpackedFloat.pack_unpack .binary64 (UInt64.ofNat bits).toBitVec
    (by decide)
  rw [if_neg] at packed
  · exact (congrArg BitVec.toNat packed).trans same
  · rw [isNaNBits_iff, isNaN_iff_beyond]
    change ¬ double.infinity < (UInt64.ofNat bits).toNat % double.signBit
    rw [same]
    exact Nat.not_lt.mpr numeric

theorem ofBits_parts {negative : Bool} {place : ℕ} (within : place ≤ double.infinity) :
    isNegative (Float.ofBits (UInt64.ofNat (withSign double negative place))) = negative ∧
      magnitude (Float.ofBits (UInt64.ofNat (withSign double negative place))) = place := by
  have small : place < double.signBit := Nat.lt_of_le_of_lt within (by decide)
  have kept := toBits_ofBits (withSign_lt small : withSign double negative place < 2 ^ 64)
    (by rwa [withSign_mod _ _ small])
  constructor
  · rw [isNegative, kept, negative_withSign small]
  · rw [magnitude, kept, withSign_mod _ _ small]

theorem abs_exact {x : Float} (numeric : x.isNaN = false) :
    |exact x| = grid double (magnitude x) := by
  rw [exact_eq numeric, abs_signFactor_mul, abs_of_nonneg (grid_nonneg _ _)]

theorem eq_of_abs_exact {x y : Float} (left : x.isNaN = false) (right : y.isNaN = false)
    (sign : isNegative x = isNegative y) (same : |exact x| = |exact y|) : x = y := by
  rw [abs_exact left, abs_exact right] at same
  have magnitudes := (grid_strictMono double).injective same
  exact Float.toBits_inj.mp (UInt64.toNat_inj.mp
    (@bits_inj double _ _ x.toBits.toNat_lt y.toBits.toNat_lt sign magnitudes))

end Double

end Number
end Corpora
