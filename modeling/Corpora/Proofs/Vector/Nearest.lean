import Corpora.Proofs.Number.Nearest

/-!
The element nearest to a number of double precision. It has the sign of the number, no other element
is nearer, and where two are as near it is the one with even bits. Infinity is met by what lies
halfway behind the largest element, or further.
-/

namespace Corpora.Element

open Number (exact exactUnpacked grid double single signFactor)

def exact (element : Element) : ℚ :=
  exactUnpacked .binary32 (Float.Model.UnpackedFloat.unpack .binary32 element.bits.toBitVec)

def isNegative (element : Element) : Bool := single.negative element.bits.toNat

def magnitude (element : Element) : ℕ := element.bits.toNat % single.signBit

/-- An element is a number of double precision rounded to nearest, a tie to even. -/
structure IsNearest (x : Float) (element : Element) : Prop where
  nan : element.value.isNaN = x.isNaN
  sign : x.isNaN = false → element.isNegative = Number.isNegative x
  least : x.isNaN = false → ∀ other : Element, other.value.isNaN = false →
    |Number.exact x - element.exact| ≤ |Number.exact x - other.exact|
  even : x.isNaN = false → ∀ other : Element, other.value.isNaN = false →
    other.exact ≠ element.exact →
    |Number.exact x - other.exact| = |Number.exact x - element.exact| →
    element.bits.toNat % 2 = 0

section Parts

variable {element : Element}

theorem isNaN_eq_false_iff (element : Element) :
    element.value.isNaN = false ↔ element.magnitude ≤ single.infinity := by
  rw [← Bool.not_eq_true, value, Number.ofBits32_isNaN, Nat.not_lt, magnitude]

theorem exact_eq (numeric : element.value.isNaN = false) :
    element.exact = signFactor element.isNegative * grid single element.magnitude := by
  have unpacked := Number.pack_isNaN .binary32
    (Float.Model.UnpackedFloat.unpack .binary32 element.bits.toBitVec)
  exact @Number.exact_unpack .binary32 element.bits.toBitVec (unpacked.symm.trans numeric)

theorem exists_element (negative : Bool) {magnitude : ℕ} (within : magnitude ≤ single.infinity) :
    ∃ element : Element, element.isNegative = negative ∧ element.magnitude = magnitude := by
  have small : magnitude < single.signBit := Nat.lt_of_le_of_lt within (by decide)
  have fits : Number.withSign single negative magnitude < 2 ^ 32 := Number.withSign_lt small
  have bits : (UInt32.ofNat (Number.withSign single negative magnitude)).toNat =
      Number.withSign single negative magnitude := by
    rw [UInt32.toNat_ofNat', Nat.mod_eq_of_lt fits]
  refine ⟨⟨UInt32.ofNat (Number.withSign single negative magnitude)⟩, ?_, ?_⟩
  · rw [isNegative, bits, Number.negative_withSign small]
  · rw [Element.magnitude, bits, Number.withSign_mod _ _ small]

theorem eq_of_parts {one other : Element} (sign : one.isNegative = other.isNegative)
    (same : one.magnitude = other.magnitude) : one = other := by
  have bits := UInt32.toNat_inj.mp
    (@Number.bits_inj single _ _ one.bits.toNat_lt other.bits.toNat_lt sign same)
  cases one
  exact congrArg Element.mk bits

theorem bits_even (element : Element) : element.bits.toNat % 2 = element.magnitude % 2 :=
  (Nat.mod_mod_of_dvd element.bits.toNat (by decide : 2 ∣ single.signBit)).symm

end Parts

section Distance

variable {x : Float} {element other : Element}

theorem exact_sub (numeric : x.isNaN = false) (numeric' : element.value.isNaN = false)
    (sign : element.isNegative = Number.isNegative x) : |Number.exact x - element.exact| =
      |grid double (Number.magnitude x) - grid single element.magnitude| := by
  rw [Number.exact_eq numeric, exact_eq numeric', sign, ← mul_sub, Number.abs_signFactor_mul]

theorem magnitude_inj (numeric : element.value.isNaN = false)
    (numeric' : other.value.isNaN = false) (same : element.exact = other.exact) :
    element.magnitude = other.magnitude := by
  have level := congrArg abs same
  rw [exact_eq numeric, exact_eq numeric', Number.abs_signFactor_mul, Number.abs_signFactor_mul,
    abs_of_nonneg (Number.grid_nonneg _ _), abs_of_nonneg (Number.grid_nonneg _ _)] at level
  exact (Number.grid_strictMono single).injective level

theorem exact_sub_across (numeric : x.isNaN = false) (numeric' : element.value.isNaN = false)
    (sign : element.isNegative ≠ Number.isNegative x) : |Number.exact x - element.exact| =
      grid double (Number.magnitude x) + grid single element.magnitude := by
  have opposite : signFactor element.isNegative = -signFactor (Number.isNegative x) := by
    revert sign
    generalize element.isNegative = left
    generalize Number.isNegative x = right
    cases left <;> cases right <;> simp [signFactor]
  have sum : 0 ≤ grid double (Number.magnitude x) + grid single element.magnitude :=
    add_nonneg (Number.grid_nonneg _ _) (Number.grid_nonneg _ _)
  rw [Number.exact_eq numeric, exact_eq numeric', opposite, neg_mul, sub_neg_eq_add, ← mul_add,
    Number.abs_signFactor_mul, abs_of_nonneg sum]

theorem IsNearest.magnitude (nearest : IsNearest x element) (numeric : x.isNaN = false) :
    Number.Nearest single (grid double (Number.magnitude x)) element.magnitude := by
  have numeric' : element.value.isNaN = false := nearest.nan.trans numeric
  have sign := nearest.sign numeric
  refine ⟨(isNaN_eq_false_iff element).mp numeric', fun magnitude among => ?_,
    fun magnitude among differs same => ?_⟩
  · obtain ⟨other, otherSign, rfl⟩ := exists_element (Number.isNegative x) among
    have otherNumeric := (isNaN_eq_false_iff other).mpr among
    rw [← exact_sub numeric numeric' sign, ← exact_sub numeric otherNumeric otherSign]
    exact nearest.least numeric other otherNumeric
  · obtain ⟨other, otherSign, rfl⟩ := exists_element (Number.isNegative x) among
    have otherNumeric := (isNaN_eq_false_iff other).mpr among
    rw [← exact_sub numeric numeric' sign, ← exact_sub numeric otherNumeric otherSign] at same
    rw [← bits_even]
    refine nearest.even numeric other otherNumeric (fun level => differs ?_) same
    exact magnitude_inj otherNumeric numeric' level

/-- Next to a number lies the element with its sign and the magnitude next to its own. -/
theorem IsNearest.of_magnitude (numeric : x.isNaN = false)
    (sign : element.isNegative = Number.isNegative x)
    (nearest : Number.Nearest single (grid double (Number.magnitude x)) element.magnitude) :
    IsNearest x element := by
  have numeric' := (isNaN_eq_false_iff element).mpr nearest.within
  have zero := nearest.least 0 (Nat.zero_le _)
  rw [Number.grid_zero, sub_zero, abs_of_nonneg (Number.grid_nonneg _ _),
    ← exact_sub numeric numeric' sign] at zero
  refine ⟨numeric'.trans numeric.symm, fun _ => sign, fun _ other otherNumeric => ?_,
    fun _ other otherNumeric differs same => ?_⟩
  · by_cases otherSign : other.isNegative = Number.isNegative x
    · rw [exact_sub numeric numeric' sign, exact_sub numeric otherNumeric otherSign]
      exact nearest.least _ ((isNaN_eq_false_iff other).mp otherNumeric)
    · rw [exact_sub_across numeric otherNumeric otherSign]
      exact le_add_of_le_of_nonneg zero (Number.grid_nonneg _ _)
  · rw [bits_even]
    by_cases otherSign : other.isNegative = Number.isNegative x
    · rw [exact_sub numeric numeric' sign, exact_sub numeric otherNumeric otherSign] at same
      refine nearest.even _ ((isNaN_eq_false_iff other).mp otherNumeric) (fun level => ?_) same
      apply differs
      rw [exact_eq otherNumeric, exact_eq numeric', level, otherSign, sign]
    · -- The other one can only be as near if it is a zero, and then this one is not.
      rw [exact_sub_across numeric otherNumeric otherSign] at same
      have gone := Number.grid_nonneg single other.magnitude
      have none : grid single other.magnitude = 0 := by linarith
      refine nearest.even 0 (Nat.zero_le _) (fun level => ?_) ?_
      · apply differs
        rw [exact_eq otherNumeric, exact_eq numeric', none, ← level, Number.grid_zero, mul_zero,
          mul_zero]
      · rw [Number.grid_zero, sub_zero, abs_of_nonneg (Number.grid_nonneg _ _),
          ← exact_sub numeric numeric' sign, ← same, none, add_zero]

end Distance

section Nearest

theorem single_reaches : grid single single.infinity ≤ grid double double.infinity := by
  decide +kernel

theorem nearest_bits {x : Float} (numeric : x.isNaN = false) : ∃ rounded,
    (nearest x).bits.toNat = Number.withSign single (Number.isNegative x) rounded ∧
      Number.Nearest single (grid double (Number.magnitude x)) rounded := by
  obtain ⟨rounded, converted, near⟩ := Number.convert_nearest (by decide) single_reaches
    ((Number.isNaN_eq_false_iff x).mp numeric)
  have small : rounded < single.signBit := Nat.lt_of_le_of_lt near.within (by decide)
  have fits : Number.withSign single (Number.isNegative x) rounded < 2 ^ 32 :=
    Number.withSign_lt small
  refine ⟨rounded, ?_, near⟩
  rw [nearest, converted, UInt32.toNat_ofNat']
  exact Nat.mod_eq_of_lt fits

theorem nearest_isNaN {x : Float} (nan : x.isNaN = true) : (nearest x).value.isNaN = true := by
  have beyond : Number.decode double x.toBits.toNat = .nan := by
    rw [Number.decode_eq_nan, ← Number.ofBits_isNaN, Float.ofBits_toBits, nan]
  rw [value, Number.ofBits32_isNaN, nearest, Number.convert, beyond]
  decide

theorem isNearest_nearest (x : Float) : IsNearest x (nearest x) := by
  cases nan : x.isNaN with
  | true =>
      have never (numeric : x.isNaN = false) : False := Bool.false_ne_true (numeric.symm.trans nan)
      exact ⟨(nearest_isNaN nan).trans nan.symm, fun numeric => (never numeric).elim,
        fun numeric => (never numeric).elim, fun numeric => (never numeric).elim⟩
  | false =>
      obtain ⟨rounded, bits, near⟩ := nearest_bits nan
      have small : rounded < single.signBit := Nat.lt_of_le_of_lt near.within (by decide)
      refine .of_magnitude nan ?_ ?_
      · rw [isNegative, bits, Number.negative_withSign small]
      · rwa [magnitude, bits, Number.withSign_mod _ _ small]

/-- An element is nearest to a number exactly if it is the one that is found. -/
theorem isNearest_iff {x : Float} {element : Element} (numeric : x.isNaN = false) :
    IsNearest x element ↔ element = nearest x := by
  have found := isNearest_nearest x
  constructor
  · intro given
    exact eq_of_parts ((given.sign numeric).trans (found.sign numeric).symm)
      ((given.magnitude numeric).unique (found.magnitude numeric))
  · rintro rfl
    exact isNearest_nearest x

end Nearest

end Corpora.Element
