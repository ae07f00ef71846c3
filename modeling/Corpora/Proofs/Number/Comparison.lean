import Corpora.Number.Binary
import Mathlib

/-!
How floating-point numbers compare. All of them but NaN stand in one line, in which the two zeros
share a place, and a number is less than another one when its place is. NaN compares with nothing.
-/

namespace Corpora.Number

open Float.Model (UnpackedFloat)
open Float.Model.UnpackedFloat (Sign)

/-- The place of a number in the line of all numbers: by sign and kind, then by exponent, then by
significand. -/
def unpackedPlace : UnpackedFloat → ℤ ×ₗ ℤ ×ₗ ℤ
  | .notANumber => toLex (0, toLex (0, 0))
  | .infinity .negative => toLex (-2, toLex (0, 0))
  | .finite .negative significand exponent _ => toLex (-1, toLex (-exponent, -significand))
  | .zero _ => toLex (0, toLex (0, 0))
  | .finite .positive significand exponent _ => toLex (1, toLex (exponent, significand))
  | .infinity .positive => toLex (2, toLex (0, 0))

theorem compare_sign (a b : Sign) :
    compare a b = match a, b with
      | .negative, .positive => .lt
      | .positive, .negative => .gt
      | .negative, .negative => .eq
      | .positive, .positive => .eq := by
  cases a <;> cases b <;> rfl

theorem then_eq_lt_iff (e₁ e₂ : ℤ) (m₁ m₂ : ℕ) :
    (compare e₁ e₂).then (compare m₁ m₂) = .lt ↔ e₁ < e₂ ∨ e₁ = e₂ ∧ m₁ < m₂ := by
  rw [Ordering.then_eq_lt, compare_lt_iff_lt, compare_eq_iff_eq, compare_lt_iff_lt]

theorem then_eq_gt_iff (e₁ e₂ : ℤ) (m₁ m₂ : ℕ) :
    (compare e₁ e₂).then (compare m₁ m₂) = .gt ↔ e₂ < e₁ ∨ e₁ = e₂ ∧ m₂ < m₁ := by
  rw [Ordering.then_eq_gt, compare_gt_iff_gt, compare_eq_iff_eq, compare_gt_iff_gt]

theorem unpacked_lt_iff (a b : UnpackedFloat) :
    a.lt b = true ↔ a.isNaN = false ∧ b.isNaN = false ∧ unpackedPlace a < unpackedPlace b := by
  rcases a with (_ | _) | _ | _ | ⟨_ | _, m₁, e₁, _⟩ <;>
    rcases b with (_ | _) | _ | _ | ⟨_ | _, m₂, e₂, _⟩ <;>
      simp [UnpackedFloat.lt, UnpackedFloat.compare, UnpackedFloat.isNaN, unpackedPlace,
        Prod.Lex.toLex_lt_toLex, compare_sign, then_eq_lt_iff, then_eq_gt_iff]

theorem unpacked_beq_iff (a b : UnpackedFloat) :
    a.beq b = true ↔ a.isNaN = false ∧ b.isNaN = false ∧ unpackedPlace a = unpackedPlace b := by
  rcases a with (_ | _) | _ | _ | ⟨_ | _, m₁, e₁, _⟩ <;>
    rcases b with (_ | _) | _ | _ | ⟨_ | _, m₂, e₂, _⟩ <;>
      simp [UnpackedFloat.beq, UnpackedFloat.compare, UnpackedFloat.isNaN, unpackedPlace,
        compare_sign, Ordering.then_eq_eq]

theorem unpacked_le_eq (a b : UnpackedFloat) : a.le b = (a.lt b || a.beq b) := by
  rw [UnpackedFloat.le, UnpackedFloat.lt, UnpackedFloat.beq]
  cases a.compare b with
  | none => rfl
  | some order => cases order <;> rfl

def place (x : Float) : ℤ ×ₗ ℤ ×ₗ ℤ := unpackedPlace x.toModel.unpack

theorem lt_iff_place (x y : Float) :
    x < y ↔ x.isNaN = false ∧ y.isNaN = false ∧ place x < place y := by
  have modelled : x < y ↔ x.toModel.unpack.lt y.toModel.unpack = true := by
    change (decide (x.toModel < y.toModel)) = true ↔ _
    rw [decide_eq_true_iff]
    rfl
  rw [modelled, unpacked_lt_iff]
  rfl

theorem beq_iff_place (x y : Float) :
    (x == y) = true ↔ x.isNaN = false ∧ y.isNaN = false ∧ place x = place y :=
  unpacked_beq_iff x.toModel.unpack y.toModel.unpack

theorem le_iff_place (x y : Float) :
    x ≤ y ↔ x.isNaN = false ∧ y.isNaN = false ∧ place x ≤ place y := by
  have modelled : x ≤ y ↔ x.toModel.unpack.le y.toModel.unpack = true := by
    change (decide (x.toModel ≤ y.toModel)) = true ↔ _
    rw [decide_eq_true_iff]
    rfl
  rw [modelled, unpacked_le_eq, Bool.or_eq_true, unpacked_lt_iff, unpacked_beq_iff,
    le_iff_lt_or_eq]
  simp only [← and_or_left]
  rfl

end Corpora.Number
