import Corpora.Number.Rounding
import Corpora.Proofs.Number.Nearest

/-!
Rounding to a whole number. A half goes away from zero, so the magnitude is rounded by itself, a
half upward, and the sign is kept. A whole number below the precision is written without loss.
-/

namespace Corpora.Number

/-- A number is another one rounded to a whole number, a half away from zero. -/
structure HalfAway (x whole : Float) : Prop where
  nan : whole.isNaN = x.isNaN
  sign : isNegative whole = isNegative x
  nearest : x.isNaN = false → |exact whole| = round |exact x|

/-- There is one way at most to round a number to a whole one. -/
theorem HalfAway.unique {x one other : Float} (first : HalfAway x one) (second : HalfAway x other) :
    one = other := by
  cases nan : x.isNaN with
  | true =>
      have left := first.nan.trans nan
      have right := second.nan.trans nan
      rw [Float.isNaN_eq_decide_eq_nan, decide_eq_true_iff] at left right
      rw [left, right]
  | false =>
      exact eq_of_abs_exact (first.nan.trans nan) (second.nan.trans nan)
        (first.sign.trans second.sign.symm) ((first.nearest nan).trans (second.nearest nan).symm)

theorem round_shift (significand places : ℕ) :
    round ((significand : ℚ) / 2 ^ places) = roundedShift significand places := by
  have sum : (significand : ℚ) / 2 ^ places + 1 / 2 =
      ((2 * significand + 2 ^ places : ℕ) : ℚ) / (2 ^ (places + 1) : ℕ) := by
    push_cast
    field_simp
    ring
  rw [round_eq, sum, Rat.floor_natCast_div_natCast]
  rfl

theorem exists_place {n : ℕ} (small : n < 2 ^ 53) :
    ∃ place ≤ double.infinity, grid double place = n := by
  rcases Nat.eq_zero_or_pos n with rfl | above
  · exact ⟨0, Nat.zero_le _, by rw [grid_zero, Nat.cast_zero]⟩
  obtain ⟨shift, found⟩ : ∃ shift, Nat.log2 n + shift = 52 :=
    Nat.le.dest (Nat.le_of_lt_succ ((Nat.log2_lt (Nat.ne_of_gt above)).mpr small))
  -- Moved to the left end of a significand, the number has the place of its length.
  have low : double.hidden ≤ n * 2 ^ shift := by
    calc
      double.hidden = 2 ^ Nat.log2 n * 2 ^ shift := by rw [← pow_add, found]; rfl
      _ ≤ n * 2 ^ shift := Nat.mul_le_mul_right _ (Nat.log2_self_le (Nat.ne_of_gt above))
  have high : n * 2 ^ shift < 2 * double.hidden := by
    calc
      n * 2 ^ shift < 2 ^ (Nat.log2 n + 1) * 2 ^ shift :=
        Nat.mul_lt_mul_of_pos_right Nat.lt_log2_self (Nat.two_pow_pos shift)
      _ = 2 * double.hidden := by rw [← pow_add, Nat.add_right_comm, found]; rfl
  have exponent : double.leastExponent + ((Nat.log2 n + 1022 : ℕ) : ℤ) = -(shift : ℤ) := by
    have least : double.leastExponent = -1074 := rfl
    omega
  have hidden : double.hidden = 4503599627370496 := rfl
  have infinity : double.infinity = 2047 * 4503599627370496 := rfl
  refine ⟨(Nat.log2 n + 1022) * double.hidden + n * 2 ^ shift, by rw [hidden] at high ⊢; omega, ?_⟩
  rw [grid_eq (Or.inr low) (Nat.le_of_lt high), exponent, zpow_neg, zpow_natCast, Nat.cast_mul,
    Nat.cast_pow, Nat.cast_ofNat, mul_inv_cancel_right₀ (pow_ne_zero shift two_ne_zero)]

theorem grid_nearest {n : ℕ} (small : n < 2 ^ 53) : grid double (nearest double n 1) = n := by
  obtain ⟨place, among, value⟩ := exists_place small
  have near := @nearest_nearest double n 1 (by decide) Nat.one_pos
  rw [Nat.cast_one, div_one, ← value] at near
  rw [near.eq_of_grid among, value]

theorem roundedShift_lt {significand : ℕ} (small : significand < 2 * double.hidden) (down : ℕ) :
    roundedShift significand (down + 1) < 2 ^ 53 := by
  have some := Nat.two_pow_pos (down + 1)
  have hidden : double.hidden = 4503599627370496 := rfl
  rw [roundedShift, Nat.pow_eq, Nat.pow_eq, Nat.div_lt_iff_lt_mul (Nat.two_pow_pos _),
    Nat.pow_succ 2 (down + 1)]
  omega

theorem roundHalfAway_of_kept {x : Float}
    (kept : roundHalfAwayBits x.toBits.toNat = x.toBits.toNat) : roundHalfAway x = x := by
  rw [roundHalfAway, kept, UInt64.ofNat_toNat, Float.ofBits_toBits]

theorem HalfAway.of_whole {x : Float} {n : ℕ} (whole : x.isNaN = false → |exact x| = n) :
    HalfAway x x where
  nan := rfl
  sign := rfl
  nearest numeric := by rw [whole numeric, round_natCast, Int.cast_natCast]

theorem halfAway_roundHalfAway (x : Float) : HalfAway x (roundHalfAway x) := by
  cases found : decode double x.toBits.toNat with
  | nan =>
      have nan : x.isNaN = true := by
        rw [← Float.ofBits_toBits x, ofBits_isNaN, ← decode_eq_nan, found]
      rw [roundHalfAway_of_kept (by rw [roundHalfAwayBits, found])]
      refine @HalfAway.of_whole x 0 fun numeric => ?_
      rw [nan] at numeric
      cases numeric
  | infinite negative =>
      obtain ⟨-, top⟩ := decode_infinite found
      rw [roundHalfAway_of_kept (by rw [roundHalfAwayBits, found])]
      refine @HalfAway.of_whole x (2 ^ 1024) fun numeric => ?_
      rw [abs_exact numeric, magnitude, top]
      decide +kernel
  | finite negative significand exponent =>
      obtain ⟨sign, small, value⟩ := decode_finite found
      cases exponent with
      | ofNat up =>
          rw [roundHalfAway_of_kept (by rw [roundHalfAwayBits, found])]
          refine @HalfAway.of_whole x (significand * 2 ^ up) fun numeric => ?_
          rw [abs_exact numeric, magnitude, ← value]
          push_cast
          rfl
      | negSucc down =>
          have numeric : x.isNaN = false := by
            rw [isNaN_eq_false_iff, magnitude, ← Nat.not_lt, ← decode_eq_nan, found]
            exact Parts.noConfusion
          have result : roundHalfAway x = Float.ofBits (UInt64.ofNat (withSign double negative
              (nearest double (roundedShift significand (down + 1)) 1))) := by
            rw [roundHalfAway, roundHalfAwayBits, found]
          obtain ⟨negativeSame, place⟩ := @ofBits_parts negative
            (nearest double (roundedShift significand (down + 1)) 1) (nearest_le_infinity _ _ _)
          rw [← result] at negativeSame place
          have whole : (roundHalfAway x).isNaN = false := by
            rw [isNaN_eq_false_iff, place]
            exact nearest_le_infinity _ _ _
          refine ⟨whole.trans numeric.symm, negativeSame.trans sign, fun _ => ?_⟩
          rw [abs_exact whole, place, grid_nearest (roundedShift_lt small down),
            abs_exact numeric, magnitude, ← value, zpow_negSucc, ← div_eq_mul_inv, round_shift,
            Int.cast_natCast]

end Corpora.Number
