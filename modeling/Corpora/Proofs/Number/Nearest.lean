import Corpora.Proofs.Number.Exact

/-!
Rounding to the nearest number of a format. A fraction lies between two neighbours of the grid, and
it is rounded to the nearer one of them, or to the one with even bits if it lies halfway. What lies
beyond the last number of a format is rounded as if the grid went on with infinity, and no further.
-/

namespace Corpora.Number

/-- Bits stand for a number of a format that is nearest to a value, and for the even one if there
are two of them. -/
structure Nearest (format : Format) (value : ℚ) (bits : ℕ) : Prop where
  within : bits ≤ format.infinity
  least : ∀ other ≤ format.infinity, |value - grid format bits| ≤ |value - grid format other|
  even : ∀ other ≤ format.infinity, other ≠ bits →
    |value - grid format other| = |value - grid format bits| → bits % 2 = 0

section Neighbours

variable {format : Format} {value : ℚ} {bits : ℕ}

theorem Nearest.of_apart {near far : ℚ} (within : bits ≤ format.infinity)
    (distance : |value - grid format bits| = near) (shorter : near ≤ far)
    (tie : near = far → bits % 2 = 0) (apart : ∀ other ≠ bits,
      near < |value - grid format other| ∨ far ≤ |value - grid format other|) :
    Nearest format value bits := by
  refine ⟨within, fun other _ => ?_, fun other _ differs same => ?_⟩
  · rw [distance]
    by_cases differs : other = bits
    · rw [differs, distance]
    · exact (apart other differs).elim le_of_lt (le_trans shorter)
  · rw [distance] at same
    rcases apart other differs with less | more
    · exact absurd same less.ne'
    · exact tie (le_antisymm shorter (same ▸ more))

theorem Nearest.below (within : bits ≤ format.infinity) (low : grid format bits ≤ value)
    (near : value - grid format bits ≤ grid format (bits + 1) - value)
    (tie : value - grid format bits = grid format (bits + 1) - value → bits % 2 = 0) :
    Nearest format value bits := by
  have strict := grid_strictMono format
  refine .of_apart within (abs_of_nonneg (sub_nonneg.mpr low)) near tie fun other differs => ?_
  rcases Nat.lt_or_gt_of_ne differs with less | more
  · have lower := strict less
    exact Or.inl (lt_of_lt_of_le (by linarith) (le_abs_self _))
  · have higher := strict.monotone (Nat.succ_le_of_lt more)
    exact Or.inr (le_trans (by linarith) (neg_le_abs _))

theorem Nearest.above (within : bits + 1 ≤ format.infinity) (high : value ≤ grid format (bits + 1))
    (near : grid format (bits + 1) - value ≤ value - grid format bits)
    (tie : grid format (bits + 1) - value = value - grid format bits → (bits + 1) % 2 = 0) :
    Nearest format value (bits + 1) := by
  have strict := grid_strictMono format
  have distance : |value - grid format (bits + 1)| = grid format (bits + 1) - value := by
    rw [abs_of_nonpos (sub_nonpos.mpr high), neg_sub]
  refine .of_apart within distance near tie fun other differs => ?_
  rcases Nat.lt_or_gt_of_ne differs with less | more
  · have lower := strict.monotone (Nat.le_of_lt_succ less)
    exact Or.inr (le_trans (by linarith) (le_abs_self _))
  · have higher := strict more
    exact Or.inl (lt_of_lt_of_le (by linarith) (neg_le_abs _))

theorem Nearest.top (high : grid format format.infinity ≤ value) :
    Nearest format value format.infinity := by
  have lower {other : ℕ} (among : other ≤ format.infinity) :
      grid format other ≤ grid format format.infinity := (grid_strictMono format).monotone among
  have distance {other : ℕ} (among : other ≤ format.infinity) :
      |value - grid format other| = value - grid format other :=
    abs_of_nonneg (by linarith [lower among])
  refine ⟨Nat.le_refl _, fun other among => ?_, fun other among differs same => ?_⟩
  · rw [distance among, distance (Nat.le_refl _)]
    linarith [lower among]
  · rw [distance among, distance (Nat.le_refl _)] at same
    have level : grid format other = grid format format.infinity := by linarith
    exact absurd ((grid_strictMono format).injective level) differs

theorem Nearest.eq_of_grid {place : ℕ} (among : place ≤ format.infinity)
    (nearest : Nearest format (grid format place) bits) : bits = place := by
  have least := nearest.least place among
  rw [sub_self, abs_zero] at least
  have level := sub_eq_zero.mp (abs_eq_zero.mp (le_antisymm least (abs_nonneg _)))
  exact ((grid_strictMono format).injective level).symm

/-- There is one way at most to round a value to nearest. -/
theorem Nearest.unique {one other : ℕ} (first : Nearest format value one)
    (second : Nearest format value other) : one = other := by
  wlog less : one ≤ other generalizing one other
  · exact (this second first (Nat.le_of_not_le less)).symm
  have same : |value - grid format one| = |value - grid format other| :=
    le_antisymm (first.least other second.within) (second.least one first.within)
  by_contra differs
  -- Both are even, so that a third one lies between them, nearer than they are.
  have evenOne := first.even other second.within (Ne.symm differs) same.symm
  have evenOther := second.even one first.within differs same
  have between : one + 1 < other := by omega
  have lower := grid_strictMono format (Nat.lt_succ_self one)
  have higher := grid_strictMono format between
  have near := first.least (one + 1) (by have := second.within; omega)
  rcases abs_cases (value - grid format one) with ⟨left, _⟩ | ⟨left, _⟩ <;>
    rcases abs_cases (value - grid format other) with ⟨right, _⟩ | ⟨right, _⟩ <;>
    rcases abs_cases (value - grid format (one + 1)) with ⟨middle, _⟩ | ⟨middle, _⟩ <;>
    rw [left, right] at same <;> rw [left, middle] at near <;> linarith

end Neighbours

section Fraction

variable {numerator denominator : ℕ}

theorem scaled_pos (some : 0 < denominator) (exponent : ℤ) :
    0 < (scaled numerator denominator exponent).2 := by
  cases exponent with
  | ofNat up => exact Nat.mul_pos some (Nat.two_pow_pos up)
  | negSucc down => exact some

theorem scaled_eq (numerator denominator : ℕ) (exponent : ℤ) :
    ((scaled numerator denominator exponent).1 : ℚ) / (scaled numerator denominator exponent).2 =
      numerator / denominator / 2 ^ exponent := by
  cases exponent with
  | ofNat up =>
      change (numerator : ℚ) / ((denominator * 2 ^ up : ℕ) : ℚ) = _
      rw [Int.ofNat_eq_natCast, zpow_natCast]
      push_cast
      rw [div_div]
  | negSucc down =>
      change ((numerator * 2 ^ (down + 1) : ℕ) : ℚ) / denominator = _
      rw [zpow_negSucc]
      push_cast
      field_simp

theorem floor_bounds (some : 0 < denominator) :
    ((numerator / denominator : ℕ) : ℚ) ≤ numerator / denominator ∧
      (numerator / denominator : ℚ) < (numerator / denominator : ℕ) + 1 := by
  have positive : (0 : ℚ) < denominator := by exact_mod_cast some
  constructor
  · exact Nat.cast_div_le
  · rw [div_lt_iff₀ positive]
    exact_mod_cast Nat.lt_mul_of_div_lt (Nat.lt_succ_self _) some

/-- A quotient rounded is one of the two whole numbers around it, the nearer one, or the even one
if neither is nearer. -/
theorem roundedQuotient_cases {floor : ℕ} (some : 0 < denominator)
    (found : numerator / denominator = floor) :
    (roundedQuotient numerator denominator = floor ∧
      (numerator / denominator : ℚ) - floor ≤ floor + 1 - numerator / denominator ∧
      ((numerator / denominator : ℚ) - floor = floor + 1 - numerator / denominator →
        floor % 2 = 0)) ∨
    (roundedQuotient numerator denominator = floor + 1 ∧
      (floor : ℚ) + 1 - numerator / denominator ≤ numerator / denominator - floor ∧
      ((floor : ℚ) + 1 - numerator / denominator = numerator / denominator - floor →
        (floor + 1) % 2 = 0)) := by
  have positive : (0 : ℚ) < denominator := by exact_mod_cast some
  have parts : (denominator * floor + (numerator % denominator : ℕ) : ℚ) = numerator := by
    rw [← found]
    exact_mod_cast Nat.div_add_mod numerator denominator
  -- Twice the rest against the denominator is twice the fractional part against one.
  have scale : (denominator : ℚ) * (2 * (numerator / denominator - floor) - 1) =
      2 * (numerator % denominator : ℕ) - denominator := by
    field_simp
    linarith
  rcases Nat.lt_trichotomy (2 * (numerator % denominator)) denominator with less | level | more
  · left
    have side : (2 * (numerator % denominator : ℕ) : ℚ) < denominator := by exact_mod_cast less
    have below := neg_of_mul_neg_right (scale.trans_lt (sub_neg.mpr side)) positive.le
    exact ⟨by rw [roundedQuotient, if_pos less, found], by linarith, fun same => by linarith⟩
  · have side : (2 * (numerator % denominator : ℕ) : ℚ) = denominator := by exact_mod_cast level
    have between := (mul_eq_zero.mp (scale.trans (sub_eq_zero.mpr side))).resolve_left positive.ne'
    by_cases even : floor % 2 = 0
    · left
      refine ⟨?_, by linarith, fun _ => even⟩
      simp [roundedQuotient, level, found, even]
    · right
      refine ⟨?_, by linarith, fun _ => by omega⟩
      simp [roundedQuotient, level, found, even]
  · right
    have side : (denominator : ℚ) < 2 * (numerator % denominator : ℕ) := by exact_mod_cast more
    have above := pos_of_mul_pos_right (scale.symm ▸ sub_pos.mpr side) positive.le
    refine ⟨?_, by linarith, fun same => by linarith⟩
    rw [roundedQuotient, if_neg (Nat.lt_asymm more), if_pos more, found]

theorem log2_bounds {n : ℕ} (above : 0 < n) :
    (2 : ℚ) ^ (Nat.log2 n : ℤ) ≤ n ∧ (n : ℚ) < 2 ^ (Nat.log2 n + 1 : ℤ) := by
  have low : 2 ^ Nat.log2 n ≤ n := Nat.log2_self_le (Nat.ne_of_gt above)
  have high : n < 2 ^ (Nat.log2 n + 1) := Nat.lt_log2_self
  exact ⟨by rw [zpow_natCast]; exact_mod_cast low,
    by rw [← Nat.cast_add_one, zpow_natCast]; exact_mod_cast high⟩

theorem order_estimate (above : 0 < numerator) (some : 0 < denominator) :
    (2 : ℚ) ^ ((Nat.log2 numerator : ℤ) - Nat.log2 denominator - 1) ≤ numerator / denominator ∧
      (numerator / denominator : ℚ) <
        2 ^ ((Nat.log2 numerator : ℤ) - Nat.log2 denominator + 1) := by
  obtain ⟨lowUp, highUp⟩ := log2_bounds above
  obtain ⟨lowDown, highDown⟩ := log2_bounds some
  have positive : (0 : ℚ) < denominator := by exact_mod_cast some
  constructor
  · rw [sub_sub, zpow_sub₀ two_ne_zero]
    exact div_le_div₀ (le_trans (two_zpow_pos _).le lowUp) lowUp positive highDown.le
  · rw [sub_add_eq_add_sub, zpow_sub₀ two_ne_zero]
    exact div_lt_div₀ highUp lowDown (two_zpow_pos _).le (two_zpow_pos _)

theorem scaled_lt_iff (some : 0 < denominator) (exponent : ℤ) :
    (scaled numerator denominator exponent).1 < (scaled numerator denominator exponent).2 ↔
      (numerator / denominator : ℚ) < 2 ^ exponent := by
  have positive : (0 : ℚ) < (scaled numerator denominator exponent).2 := by
    exact_mod_cast scaled_pos some exponent
  rw [← div_lt_one (two_zpow_pos exponent), ← scaled_eq, div_lt_one positive, Nat.cast_lt]

theorem binaryOrder_bounds (above : 0 < numerator) (some : 0 < denominator) :
    (2 : ℚ) ^ binaryOrder numerator denominator ≤ numerator / denominator ∧
      (numerator / denominator : ℚ) < 2 ^ (binaryOrder numerator denominator + 1) := by
  obtain ⟨low, high⟩ := order_estimate above some
  have told : binaryOrder numerator denominator =
      if (numerator / denominator : ℚ) < 2 ^ ((Nat.log2 numerator : ℤ) - Nat.log2 denominator)
      then (Nat.log2 numerator : ℤ) - Nat.log2 denominator - 1
      else (Nat.log2 numerator : ℤ) - Nat.log2 denominator :=
    if_congr (scaled_lt_iff some _) rfl rfl
  rw [told]
  split
  · next less => exact ⟨low, by rwa [sub_add_cancel]⟩
  · next reaches => exact ⟨le_of_not_gt reaches, high⟩

theorem two_pow_le_scaled (some : 0 < denominator) {exponent : ℤ} {width : ℕ}
    (reaches : (2 : ℚ) ^ (exponent + width) ≤ numerator / denominator) :
    2 ^ width ≤ (scaled numerator denominator exponent).1 /
      (scaled numerator denominator exponent).2 := by
  have positive : (0 : ℚ) < (scaled numerator denominator exponent).2 := by
    exact_mod_cast scaled_pos some exponent
  rw [Nat.le_div_iff_mul_le (scaled_pos some exponent), ← @Nat.cast_le ℚ, Nat.cast_mul,
    ← le_div_iff₀ positive, scaled_eq, le_div_iff₀ (two_zpow_pos exponent), Nat.cast_pow,
    Nat.cast_ofNat, ← zpow_natCast, ← zpow_add₀ two_ne_zero, add_comm]
  exact reaches

theorem scaled_lt_two_pow (some : 0 < denominator) {exponent : ℤ} {width : ℕ}
    (less : (numerator / denominator : ℚ) < 2 ^ (exponent + width)) :
    (scaled numerator denominator exponent).1 / (scaled numerator denominator exponent).2 <
      2 ^ width := by
  have positive : (0 : ℚ) < (scaled numerator denominator exponent).2 := by
    exact_mod_cast scaled_pos some exponent
  rw [Nat.div_lt_iff_lt_mul (scaled_pos some exponent), ← @Nat.cast_lt ℚ, Nat.cast_mul,
    ← div_lt_iff₀ positive, scaled_eq, div_lt_iff₀ (two_zpow_pos exponent), Nat.cast_pow,
    Nat.cast_ofNat, ← zpow_natCast, ← zpow_add₀ two_ne_zero, add_comm]
  exact less

end Fraction

section Rounded

variable {format : Format} {value : ℚ} {step numerator denominator : ℕ}

theorem hidden_even (wide : 2 ≤ format.precision) : format.hidden % 2 = 0 := by
  obtain ⟨more, told⟩ : ∃ more, format.precision - 1 = more + 1 := ⟨format.precision - 2, by omega⟩
  rw [Format.hidden, told]
  exact Nat.mul_mod_left (2 ^ more) 2

/-- A quotient that is no longer than a significand, and as long as one above the least exponent,
is rounded to nearest. -/
theorem Nearest.of_quotient (wide : 2 ≤ format.precision) (some : 0 < denominator)
    (lower : step = 0 ∨ format.hidden ≤ numerator / denominator)
    (upper : numerator / denominator < 2 * format.hidden)
    (told : value = numerator / denominator * 2 ^ (format.leastExponent + step : ℤ)) :
    Nearest format value
      (min (step * format.hidden + roundedQuotient numerator denominator) format.infinity) := by
  obtain ⟨floor, found⟩ : ∃ floor, numerator / denominator = floor := ⟨_, rfl⟩
  obtain ⟨least, most⟩ := @floor_bounds numerator denominator some
  have cases := roundedQuotient_cases some found
  rw [found] at lower upper least most
  have unit := two_zpow_pos (format.leastExponent + step)
  have low : value - grid format (step * format.hidden + floor) =
      (numerator / denominator - floor) * 2 ^ (format.leastExponent + step : ℤ) := by
    rw [told, grid_eq lower (Nat.le_of_lt upper)]
    ring
  have high : grid format (step * format.hidden + floor + 1) - value =
      (floor + 1 - numerator / denominator) * 2 ^ (format.leastExponent + step : ℤ) := by
    rw [told, Nat.add_assoc, grid_eq (by omega) upper, Nat.cast_add_one]
    ring
  have under : grid format (step * format.hidden + floor) ≤ value :=
    sub_nonneg.mp (low ▸ mul_nonneg (sub_nonneg.mpr least) unit.le)
  have beyond : value ≤ grid format (step * format.hidden + floor + 1) :=
    sub_nonneg.mp (high ▸ mul_nonneg (sub_nonneg.mpr most.le) unit.le)
  have even : step * format.hidden % 2 = 0 := by
    rw [Nat.mul_mod, hidden_even wide, Nat.mul_zero, Nat.zero_mod]
  rcases Nat.lt_or_ge format.infinity
    (step * format.hidden + roundedQuotient numerator denominator) with outside | inside
  · have reached : format.infinity ≤ step * format.hidden + floor := by omega
    rw [Nat.min_eq_right (Nat.le_of_lt outside)]
    exact .top (le_trans ((grid_strictMono format).monotone reached) under)
  · rw [Nat.min_eq_left inside]
    rcases cases with ⟨same, near, tie⟩ | ⟨same, near, tie⟩
    · rw [same] at inside ⊢
      refine .below inside under ?_ fun level => ?_
      · rw [low, high]
        exact mul_le_mul_of_nonneg_right near unit.le
      · rw [low, high] at level
        have floorEven := tie (mul_right_cancel₀ unit.ne' level)
        omega
    · rw [same, ← Nat.add_assoc] at inside ⊢
      refine .above inside beyond ?_ fun level => ?_
      · rw [low, high]
        exact mul_le_mul_of_nonneg_right near unit.le
      · rw [low, high] at level
        have nextEven := tie (mul_right_cancel₀ unit.ne' level)
        omega

end Rounded

section Fractions

variable {format : Format} {numerator denominator : ℕ}

theorem nearest_nearest (wide : 2 ≤ format.precision) (some : 0 < denominator) :
    Nearest format (numerator / denominator) (nearest format numerator denominator) := by
  rcases Nat.eq_zero_or_pos numerator with rfl | above
  · have none : nearest format 0 denominator = 0 := if_pos rfl
    rw [none, Nat.cast_zero, zero_div]
    refine .below (Nat.zero_le _) (grid_zero format).le ?_ fun _ => rfl
    rw [grid_zero, sub_zero, sub_zero]
    exact grid_nonneg format 1
  obtain ⟨low, high⟩ := binaryOrder_bounds above some
  obtain ⟨exponent, chosen⟩ : ∃ exponent, exponent = max format.leastExponent
    (binaryOrder numerator denominator - (format.precision - 1 : ℕ)) := ⟨_, rfl⟩
  obtain ⟨step, counted⟩ : ∃ step : ℕ, exponent = format.leastExponent + step := by
    refine ⟨(exponent - format.leastExponent).toNat, ?_⟩
    rw [Int.toNat_of_nonneg (by omega)]
    ring
  have told : nearest format numerator denominator = min (step * format.hidden +
      roundedQuotient (scaled numerator denominator exponent).1
        (scaled numerator denominator exponent).2) format.infinity := by
    have back : (exponent - format.leastExponent).toNat = step := by omega
    rw [nearest, if_neg (Nat.ne_of_gt above), ← chosen]
    simp only [back]
    rfl
  rw [told]
  refine .of_quotient wide (scaled_pos some exponent) ?_ ?_ ?_
  · rcases Nat.eq_zero_or_pos step with none | some'
    · exact Or.inl none
    · exact Or.inr (two_pow_le_scaled some
        (le_trans (zpow_le_zpow_right₀ one_le_two (by omega)) low))
  · have double : 2 * format.hidden = 2 ^ (format.precision - 1 + 1) := (Nat.pow_succ').symm
    rw [double]
    exact scaled_lt_two_pow some
      (lt_of_lt_of_le high (zpow_le_zpow_right₀ one_le_two (by omega)))
  · rw [scaled_eq, ← counted, div_mul_cancel₀ _ (two_zpow_pos exponent).ne']

end Fractions

theorem convert_nearest {source target : Format} (wide : 2 ≤ target.precision)
    (reach : grid target target.infinity ≤ grid source source.infinity) {bits : ℕ}
    (numeric : bits % source.signBit ≤ source.infinity) : ∃ rounded,
      convert source target bits = withSign target (source.negative bits) rounded ∧
        Nearest target (grid source (bits % source.signBit)) rounded := by
  unfold convert
  cases found : decode source bits with
  | nan => exact absurd ((decode_eq_nan source bits).mp found) (Nat.not_lt.mpr numeric)
  | infinite negative =>
      obtain ⟨rfl, top⟩ := decode_infinite found
      exact ⟨_, rfl, top ▸ .top reach⟩
  | finite negative significand exponent =>
      obtain ⟨rfl, -, value⟩ := decode_finite found
      refine ⟨_, rfl, ?_⟩
      rw [← value]
      cases exponent with
      | ofNat up =>
          have whole := @nearest_nearest target (significand * 2 ^ up) 1 wide Nat.one_pos
          rwa [Nat.cast_one, div_one, Nat.cast_mul, Nat.cast_pow, Nat.cast_ofNat,
            ← zpow_natCast] at whole
      | negSucc down =>
          have fraction := @nearest_nearest target significand (2 ^ (down + 1)) wide
            (Nat.two_pow_pos _)
          rwa [Nat.cast_pow, Nat.cast_ofNat, div_eq_mul_inv, ← zpow_negSucc] at fraction

end Corpora.Number
