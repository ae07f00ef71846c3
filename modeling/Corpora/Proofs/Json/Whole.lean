import Corpora.Proofs.Json.Written
import Corpora.Proofs.Text.Digits

/-!
Whole numbers as they are written. The digits of a number have no zero in front, and a comma or the
end of an object ends them, so that the number is read back with what stands behind it left over.
-/

namespace Corpora.Json

open Number (digits digitChar digitValue digits_all digits_leading digits_ne_nil ofDigits
  ofDigits_digits fitsSigned64)
open Text (isDigit)

/-- What stands behind the value of a member: another member, or the end of the object. -/
inductive Delimited : Bytes → Prop
  | comma (behind : Bytes) : Delimited (ascii ',' :: behind)
  | brace (behind : Bytes) : Delimited (ascii '}' :: behind)

theorem digit_code {c : Char} (digit : isDigit c = true) : 48 ≤ c.toNat ∧ c.toNat ≤ 57 := by
  simpa [isDigit, Char.le_def, UInt32.le_iff_toNat_le] using digit

theorem toNat_ascii_digit {c : Char} (digit : isDigit c = true) : (ascii c).toNat = c.toNat := by
  have code := digit_code digit
  rw [ascii, UInt8.toNat_ofNat']
  omega

theorem isDigitByte_ascii {c : Char} (digit : isDigit c = true) :
    isDigitByte (ascii c) = true := by
  have code := digit_code digit
  have byte := toNat_ascii_digit digit
  simp only [isDigitByte, Bool.and_eq_true, decide_eq_true_eq, UInt8.le_iff_toNat_le, byte]
  exact code

def digitBytes (n : Nat) : Bytes := (digits n).map ascii

theorem digitBytes_all (n : Nat) : ∀ b ∈ digitBytes n, isDigitByte b = true := by
  intro b member
  obtain ⟨c, written, rfl⟩ := List.mem_map.mp member
  exact isDigitByte_ascii (digits_all n c written)

theorem digitsValue_ascii {cs : List Char} (all : ∀ c ∈ cs, isDigit c = true) :
    digitsValue (cs.map ascii) = ofDigits cs := by
  rw [digitsValue, ofDigits, List.foldl_map]
  generalize 0 = value
  induction cs generalizing value with
  | nil => rfl
  | cons c cs ih =>
      have byte := toNat_ascii_digit (all c List.mem_cons_self)
      rw [List.foldl_cons, List.foldl_cons, byte, digitValue]
      exact ih (fun other member => all other (List.mem_cons_of_mem c member)) _

theorem digitsValue_digitBytes (n : Nat) : digitsValue (digitBytes n) = n := by
  rw [digitBytes, digitsValue_ascii (digits_all n), ofDigits_digits]

theorem digitBytes_no_zero (n : Nat) :
    (decide ((digitBytes n).length > 1) && (digitBytes n).head? == some (ascii '0')) = false := by
  cases n with
  | zero => simp [digitBytes, digits]
  | succ n =>
      obtain ⟨d, rest, found, positive, small⟩ := digits_leading (Nat.succ_pos n)
      have leading : ∀ d < 10, 0 < d → ascii (digitChar d) ≠ ascii '0' := by decide
      simp [digitBytes, found, leading d small positive]

section Parts

variable {rest : Bytes} (ends : Delimited rest)

include ends

theorem someDigits_digitBytes (n : Nat) :
    someDigits (digitBytes n ++ rest) = .ok (digitBytes n, rest) := by
  have all := digitBytes_all n
  have some : digitBytes n ≠ [] := by simp [digitBytes, digits_ne_nil]
  have noneBehind : rest.takeWhile isDigitByte = [] ∧ rest.dropWhile isDigitByte = rest := by
    cases ends <;> exact ⟨rfl, rfl⟩
  rw [someDigits, takeDigits, List.takeWhile_append_of_pos all, List.dropWhile_append_of_pos all,
    noneBehind.1, noneBehind.2, List.append_nil]
  simp [some]

theorem fractionPart_delimited : fractionPart rest = .ok (none, rest) := by
  cases ends <;> rfl

theorem exponentPart_delimited : exponentPart rest = .ok (none, rest) := by
  cases ends <;> rfl

theorem numeralParts_natural (n : Nat) :
    numeralParts (digitBytes n ++ rest) = .ok (⟨false, digitBytes n, none, none⟩, rest) := by
  obtain ⟨first, others, found⟩ := List.exists_cons_of_ne_nil
    (show digitBytes n ≠ [] by simp [digitBytes, digits_ne_nil])
  have noSign : (first == ascii '-') = false := by
    have digit := digitBytes_all n first (found ▸ List.mem_cons_self)
    refine beq_eq_false_iff_ne.mpr fun same => ?_
    rw [same] at digit
    exact absurd digit (by decide)
  have whole := someDigits_digitBytes ends n
  have canonical := digitBytes_no_zero n
  rw [found, List.cons_append] at whole
  rw [found] at canonical
  simp only [numeralParts, found, List.cons_append, noSign, Bool.false_eq_true, ↓reduceIte, whole,
    canonical, fractionPart_delimited ends, exponentPart_delimited ends, bind, Except.bind, pure,
    Except.pure]

theorem numeralParts_negative (n : Nat) :
    numeralParts (ascii '-' :: (digitBytes n ++ rest)) =
      .ok (⟨true, digitBytes n, none, none⟩, rest) := by
  simp only [numeralParts, beq_self_eq_true, ↓reduceIte, someDigits_digitBytes ends,
    digitBytes_no_zero, Bool.false_eq_true, fractionPart_delimited ends,
    exponentPart_delimited ends, bind, Except.bind, pure, Except.pure]

end Parts

theorem written_natural (n : Nat) : written (.int n) = digitBytes n := by
  have text : (Number.ofInt n).toList = digits n := by simp [Number.ofInt, Number.ofNat]
  have low : ∀ c ∈ digits n, c.toNat < 0x80 := fun c member => by
    have code := digit_code (digits_all n c member)
    omega
  rw [int, written, compact, numeralText, text, encode_ascii _ low, digitBytes]

theorem written_negative (n : Nat) :
    written (.int (.negSucc n)) = ascii '-' :: digitBytes (n + 1) := by
  have text : (Number.ofInt (.negSucc n)).toList = '-' :: digits (n + 1) := by
    simp [Number.ofInt, Number.ofNat]
  have low : ∀ c ∈ '-' :: digits (n + 1), c.toNat < 0x80 := by
    intro c member
    rcases List.mem_cons.mp member with rfl | digit
    · decide
    · have code := digit_code (digits_all (n + 1) c digit)
      omega
  rw [int, written, compact, numeralText, text, encode_ascii _ low, digitBytes, List.map_cons]

theorem written_int_head (n : Int) :
    ∃ b behind, written (.int n) = b :: behind ∧ (b == ascii '-' || isDigitByte b) = true := by
  cases n with
  | ofNat n =>
      obtain ⟨b, behind, found⟩ := List.exists_cons_of_ne_nil
        (show digitBytes n ≠ [] by simp [digitBytes, digits_ne_nil])
      have digit := digitBytes_all n b (found ▸ List.mem_cons_self)
      exact ⟨b, behind, (written_natural n).trans found, by rw [digit, Bool.or_true]⟩
  | negSucc n => exact ⟨ascii '-', digitBytes (n + 1), written_negative n, rfl⟩

theorem numeral_written {n : Int} (fits : fitsSigned64 n = true) {rest : Bytes}
    (ends : Delimited rest) : numeral (written (.int n) ++ rest) = .ok (.whole n, rest) := by
  simp only [fitsSigned64, Bool.and_eq_true, decide_eq_true_eq, Nat.pow_eq] at fits
  cases n with
  | ofNat n =>
      have small : n < Nat.pow 2 64 := by
        simp only [Int.ofNat_eq_natCast, Nat.pow_eq] at fits ⊢
        omega
      rw [Int.ofNat_eq_natCast, written_natural, numeral, numeralParts_natural ends]
      simp [NumeralParts.whole?, digitsValue_digitBytes, small, bind, Except.bind, pure, Except.pure]
  | negSucc n =>
      have within : ¬ Nat.pow 2 63 < n + 1 := by
        simp only [Nat.pow_eq]
        omega
      rw [written_negative, List.cons_append, numeral, numeralParts_negative ends]
      simp [NumeralParts.whole?, digitsValue_digitBytes, within, bind, Except.bind, pure,
        Except.pure, Int.negSucc_eq]

end Corpora.Json
