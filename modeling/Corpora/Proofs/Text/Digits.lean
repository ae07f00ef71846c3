import Corpora.Time.Reader

/-!
Runs of decimal digits and the readers of fields. A number written with its digits, or padded to
a width that holds it, is read back, and a field reader stops where the run of digits ends.
-/

namespace Corpora

open Text (isDigit)

namespace Number

theorem isDigit_digitChar {n : Nat} (small : n < 10) : isDigit (digitChar n) = true := by
  revert n
  decide

theorem digitValue_digitChar {n : Nat} (small : n < 10) : digitValue (digitChar n) = n := by
  revert n
  decide

theorem ofDigits_append (front : List Char) (last : Char) :
    ofDigits (front ++ [last]) = 10 * ofDigits front + digitValue last := by
  simp [ofDigits]

theorem digits_all (n : Nat) : ∀ c ∈ digits n, isDigit c = true := by
  induction n using digits.induct with
  | case1 n small =>
      rw [digits, if_pos small]
      simpa using isDigit_digitChar small
  | case2 n large ih =>
      rw [digits, if_neg large]
      intro c member
      rcases List.mem_append.mp member with front | last
      · exact ih c front
      · rw [List.mem_singleton] at last
        subst last
        exact isDigit_digitChar (Nat.mod_lt n (by decide))

theorem digits_ne_nil (n : Nat) : digits n ≠ [] := by
  rw [digits]
  split <;> simp

theorem digits_leading {n : Nat} (positive : 0 < n) :
    ∃ d rest, digits n = digitChar d :: rest ∧ 0 < d ∧ d < 10 := by
  induction n using digits.induct with
  | case1 n small => exact ⟨n, [], by rw [digits, if_pos small], positive, small⟩
  | case2 n large ih =>
      obtain ⟨d, rest, found, bounds⟩ := ih (by omega)
      exact ⟨d, rest ++ [digitChar (n % 10)], by rw [digits, if_neg large, found]; rfl, bounds⟩

theorem ofDigits_digits (n : Nat) : ofDigits (digits n) = n := by
  induction n using digits.induct with
  | case1 n small =>
      rw [digits, if_pos small]
      simp [ofDigits, digitValue_digitChar small]
  | case2 n large ih =>
      rw [digits, if_neg large, ofDigits_append, ih,
        digitValue_digitChar (Nat.mod_lt n (by decide))]
      omega

theorem ofDigits_zeros (count : Nat) (ds : List Char) :
    ofDigits (List.replicate count '0' ++ ds) = ofDigits ds := by
  induction count with
  | zero => rfl
  | succ count ih =>
      rw [List.replicate_succ, List.cons_append]
      simpa [ofDigits, digitValue] using ih

theorem length_padded (width n : Nat) : (padded width n).length = width := by
  induction width generalizing n with
  | zero => rfl
  | succ width ih => simp [padded, ih]

theorem padded_all (width n : Nat) : ∀ c ∈ padded width n, isDigit c = true := by
  induction width generalizing n with
  | zero => simp [padded]
  | succ width ih =>
      intro c member
      rcases List.mem_append.mp member with front | last
      · exact ih (n / 10) c front
      · rw [List.mem_singleton] at last
        subst last
        exact isDigit_digitChar (Nat.mod_lt n (by decide))

theorem ofDigits_padded (width n : Nat) (fits : n < Nat.pow 10 width) :
    ofDigits (padded width n) = n := by
  induction width generalizing n with
  | zero =>
      obtain rfl : n = 0 := Nat.lt_one_iff.mp fits
      rfl
  | succ width ih =>
      have front : n / 10 < Nat.pow 10 width := by
        have grown : Nat.pow 10 (width + 1) = Nat.pow 10 width * 10 := rfl
        omega
      rw [padded, ofDigits_append, ih (n / 10) front,
        digitValue_digitChar (Nat.mod_lt n (by decide))]
      omega

theorem nat?_digits (n : Nat) : nat? (digits n) = some n := by
  rw [nat?, List.all_eq_true.mpr (digits_all n), ofDigits_digits,
    List.isEmpty_eq_false_iff.mpr (digits_ne_nil n)]
  rfl

theorem digits_ne_sign {n : Nat} {sign : Char} {rest : List Char} (other : isDigit sign = false) :
    digits n ≠ sign :: rest := by
  intro same
  have digit := digits_all n sign (same ▸ List.mem_cons_self)
  exact Bool.false_ne_true (other.symm.trans digit)

theorem signed64?_ofInt {n : Int} (fits : fitsSigned64 n = true) :
    signed64? (ofInt n) = some n := by
  cases n with
  | ofNat n =>
      rw [ofInt, ofNat, signed64?, String.toList_ofList]
      split
      · next same => exact absurd same (digits_ne_sign (by decide))
      · next same => exact absurd same (digits_ne_sign (by decide))
      · rw [nat?_digits, Option.map_some, Option.filter_some, if_pos fits]
  | negSucc n =>
      have text : (ofInt (.negSucc n)).toList = '-' :: digits (n + 1) := by
        simp [ofInt, ofNat]
      rw [signed64?, text]
      simp only [nat?_digits, Option.map_some]
      exact (Option.filter_some ..).trans (if_pos fits)

end Number

namespace Time

open Number (ofDigits padded length_padded padded_all ofDigits_padded)

def Ends (rest : List Char) : Prop := ∀ c, rest.head? = some c → isDigit c = false

theorem takeWhile_digits {ds : List Char} (rest : List Char) (all : ∀ c ∈ ds, isDigit c = true)
    (ends : Ends rest) : (ds ++ rest).takeWhile isDigit = ds := by
  rw [List.takeWhile_append_of_pos all]
  cases rest with
  | nil => simp
  | cons c rest => simp [ends c rfl]

theorem allDigitsField_run {ds rest : List Char} (all : ∀ c ∈ ds, isDigit c = true)
    (some : ds ≠ []) (ends : Ends rest) :
    allDigitsField (ds ++ rest) = Option.some (ofDigits ds, rest) := by
  simp [allDigitsField, takeWhile_digits rest all ends, some]

theorem digitsField_padded (least width n : Nat) (rest : List Char) (enough : least ≤ width)
    (fits : n < Nat.pow 10 width) :
    digitsField least width (padded width n ++ rest) = some (n, rest) := by
  have whole : (padded width n).takeWhile isDigit = padded width n := by
    simpa using takeWhile_digits [] (padded_all width n) (by simp [Ends])
  have front : (padded width n ++ rest).take width = padded width n := by
    rw [List.take_append_of_le_length (by simp [length_padded]), List.take_of_length_le]
    simp [length_padded]
  simp [digitsField, front, whole, length_padded, ofDigits_padded width n fits, enough]

end Time
end Corpora
