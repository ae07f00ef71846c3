import Corpora.Proofs.Text.Digits
import Corpora.Proofs.Time.Calendar

/-!
The text of an instant reads back as the instant. Leap seconds are left out, since a second of 60
is written for any of them, and so are years that no instant may have.
-/

namespace Corpora.Time

open Text (isDigit isBlank trimStartChars)
open Number (digits padded digits_all digits_ne_nil ofDigits_digits ofDigits_zeros length_padded
  padded_all ofDigits_padded)

/-- An instant as a clock shows it: within the years of instants, and running past its second only
where a leap second can be. -/
structure Instant.Regular (instant : Instant) : Prop where
  nanos : instant.nanos < 2 * nanosPerSecond
  leap : nanosPerSecond ≤ instant.nanos → instant.secondOfDay % 60 = 59
  year : yearInRange instant.date.year

theorem digit_not_blank {c : Char} (digit : isDigit c = true) : isBlank c = false := by
  have range : 48 ≤ c.toNat ∧ c.toNat ≤ 57 := by
    simpa [isDigit, Char.le_def, UInt32.le_iff_toNat_le] using digit
  simp [isBlank, Text.scatteredBlanks]
  omega

theorem trimStart_of_digit {c : Char} (cs : List Char) (digit : isDigit c = true) :
    trimStartChars (c :: cs) = c :: cs := by
  simp [trimStartChars, digit_not_blank digit]

theorem trimStart_padded (width n : Nat) (rest : List Char) :
    trimStartChars (padded (width + 1) n ++ rest) = padded (width + 1) n ++ rest := by
  have all := padded_all (width + 1) n
  cases found : padded (width + 1) n with
  | nil => simp [padded] at found
  | cons c cs =>
      rw [found] at all
      exact trimStart_of_digit _ (all c List.mem_cons_self)

@[simp]
theorem lenientPair_padded {n : Nat} (rest : List Char) (fits : n < 100) :
    lenientPair (padded 2 n ++ rest) = some (n, rest) := by
  rw [lenientPair, trimStart_padded]
  exact digitsField_padded 1 2 n rest (by decide) fits

theorem yearText_read (year : Int) (rest : List Char) :
    trimStartChars (yearText year ++ '-' :: rest) = yearText year ++ '-' :: rest ∧
      lenientYear (yearText year ++ '-' :: rest) = some (year, '-' :: rest) := by
  unfold yearText
  split
  · next inside =>
    have small : year.toNat < Nat.pow 10 4 := by
      simp at inside
      rw [Nat.pow_eq]
      omega
    refine ⟨trimStart_padded 3 year.toNat _, ?_⟩
    have read := digitsField_padded 1 4 year.toNat ('-' :: rest) (by decide) small
    have all := padded_all 4 year.toNat
    cases found : padded 4 year.toNat with
    | nil => simp [padded] at found
    | cons c cs =>
        rw [found] at read all
        have digit := all c List.mem_cons_self
        have noMinus : c ≠ '-' := by
          intro same
          subst same
          exact absurd digit (by decide)
        have noPlus : c ≠ '+' := by
          intro same
          subst same
          exact absurd digit (by decide)
        have back : (year.toNat : Int) = year := by
          simp at inside
          omega
        rw [List.cons_append] at read ⊢
        unfold lenientYear
        split
        · next same => exact absurd (List.cons.inj same).1 noMinus
        · next same => exact absurd (List.cons.inj same).1 noPlus
        · simp [read, back]
  · next outside =>
    have zerosAll : ∀ c ∈ List.replicate (4 - (digits year.natAbs).length) '0' ++
        digits year.natAbs, isDigit c = true := by
      intro c member
      rcases List.mem_append.mp member with zero | digit
      · rw [List.eq_of_mem_replicate zero]
        decide
      · exact digits_all _ c digit
    have run : allDigitsField ((List.replicate (4 - (digits year.natAbs).length) '0' ++
        digits year.natAbs) ++ '-' :: rest) = some (year.natAbs, '-' :: rest) := by
      rw [allDigitsField_run zerosAll (by simp [digits_ne_nil]) (by simp [Ends]; decide),
        ofDigits_zeros, ofDigits_digits]
    by_cases before : year < 0
    · have back : -(year.natAbs : Int) = year := by omega
      simp only [before, ↓reduceIte, List.cons_append]
      constructor
      · rfl
      · simp only [lenientYear, run, Option.map_some, back]
    · have back : (year.natAbs : Int) = year := by omega
      simp only [before, ↓reduceIte, List.cons_append]
      constructor
      · rfl
      · simp only [lenientYear, run, Option.map_some, back]

theorem fraction_run (width n : Nat) (fits : n < Nat.pow 10 (width + 1)) (short : width + 1 ≤ 9) :
    fractionField ('.' :: (padded (width + 1) n ++ ['Z'])) =
      some (n * Nat.pow 10 (9 - (width + 1)), ['Z']) := by
  have ends : Ends ['Z'] := by
    intro c first
    obtain rfl : 'Z' = c := by simpa using first
    decide
  have all := padded_all (width + 1) n
  have run := allDigitsField_run all (by simp [padded]) ends
  have whole : (padded (width + 1) n).take 9 = padded (width + 1) n :=
    List.take_of_length_le (by simpa [length_padded] using short)
  simp [fractionField, run, takeWhile_digits _ all ends, whole, length_padded,
    ofDigits_padded _ _ fits]

theorem fractionText_read (nanos : Nat) (small : nanos < nanosPerSecond) :
    fractionField (fractionText nanos ++ ['Z']) = some (nanos, ['Z']) := by
  unfold nanosPerSecond at small
  unfold fractionText
  split
  · next zero =>
    subst zero
    rfl
  split
  · next whole =>
    have read := fraction_run 2 (nanos / 1000000) (by rw [Nat.pow_eq]; omega) (by decide)
    rw [List.cons_append, read]
    congr 2
    rw [Nat.pow_eq]
    omega
  split
  · next whole =>
    have read := fraction_run 5 (nanos / 1000) (by rw [Nat.pow_eq]; omega) (by decide)
    rw [List.cons_append, read]
    congr 2
    rw [Nat.pow_eq]
    omega
  · have read := fraction_run 8 nanos (by rw [Nat.pow_eq]; omega) (by decide)
    rw [List.cons_append, read]
    congr 2
    rw [Nat.pow_eq]
    omega

@[simp]
theorem lenientLiteral_self (c : Char) (rest : List Char) (solid : isBlank c = false) :
    lenientLiteral c (c :: rest) = some ((), rest) := by
  simp [lenientLiteral, literalField, trimStartChars, solid]

theorem separator_T (rest : List Char) : separatorField ('T' :: rest) = some ((), rest) := rfl

theorem offset_Z : lenientOffset (trimStartChars ['Z']) = some (0, []) := by decide

namespace Instant

variable {instant : Instant}

theorem Regular.date_bounds (regular : instant.Regular) :
    instant.date.month < 100 ∧ instant.date.day < 100 := by
  have bounds := Date.valid_bounds (ofDays_valid (instant.seconds / secondsPerDay) regular.year)
  simp only [date]
  omega

theorem secondOfDay_lt (instant : Instant) : instant.secondOfDay < 86400 := by
  simp only [secondOfDay, secondsPerDay]
  omega

-- Whether second 60 is meant is told by the nanoseconds alone.
theorem Regular.second_cases (regular : instant.Regular) :
    (instant.nanos < nanosPerSecond ∧ instant.second = instant.secondOfDay % 60 ∧
        instant.nanos % nanosPerSecond = instant.nanos) ∨
      (instant.second = 60 ∧ instant.secondOfDay % 60 = 59 ∧
        instant.nanos % nanosPerSecond + nanosPerSecond = instant.nanos) := by
  have bound := regular.nanos
  by_cases leap : nanosPerSecond ≤ instant.nanos
  · have late := regular.leap leap
    refine Or.inr ⟨?_, late, ?_⟩ <;>
      simp only [second, late, nanosPerSecond] at bound leap ⊢ <;> omega
  · refine Or.inl ⟨Nat.lt_of_not_le leap, ?_, ?_⟩ <;>
      simp only [second, nanosPerSecond] at leap ⊢ <;> omega

theorem Regular.written (regular : instant.Regular) :
    Written.instant? ⟨instant.date.year, instant.date.month, instant.date.day, instant.hour,
      instant.minute, instant.second, instant.nanos % nanosPerSecond, 0⟩ = some instant := by
  have valid := ofDays_valid (instant.seconds / secondsPerDay) regular.year
  have inDay := secondOfDay_lt instant
  have hours : ¬ instant.secondOfDay / 3600 > 23 := by omega
  have minutes : ¬ instant.secondOfDay / 60 % 60 > 59 := by omega
  have clock : (((instant.secondOfDay / 3600 : Nat) : Int) * 3600 +
      ((instant.secondOfDay / 60 % 60 : Nat) : Int) * 60 +
      ((instant.secondOfDay % 60 : Nat) : Int) - 0) = instant.secondOfDay := by omega
  have whole : instant.seconds / secondsPerDay * secondsPerDay + instant.secondOfDay =
      instant.seconds := by
    simp only [secondOfDay, secondsPerDay]
    omega
  have back : Instant.ofDate instant.date instant.secondOfDay instant.nanos = instant := by
    simp only [ofDate, date, toDays_ofDays, whole]
  have sound : Date.valid ⟨instant.date.year, instant.date.month, instant.date.day⟩ = true := valid
  rcases regular.second_cases with ⟨_, second, nanos⟩ | ⟨second, late, nanos⟩
  · have seconds : ¬ instant.secondOfDay % 60 > 60 := by omega
    have noLeap : instant.secondOfDay % 60 ≠ 60 := by omega
    simp only [Written.instant?, second, nanos, hour, minute, sound, hours, minutes, seconds, noLeap,
      clock, back, regular.year, decide_false, Bool.or_false, Bool.not_true, beq_iff_eq, ↓reduceIte]
    simp
  · rw [late] at clock
    simp only [Written.instant?, second, nanos, hour, minute, sound, hours, minutes, decide_false,
      Bool.or_false, Bool.not_true, beq_self_eq_true, ↓reduceIte]
    rw [clock, back]
    simp [regular.year]

theorem regular_epoch : epoch.Regular := ⟨by decide, by decide, by decide⟩

theorem lenient?_text (regular : instant.Regular) : lenient? instant.text = some instant := by
  have bounds := regular.date_bounds
  have inDay := secondOfDay_lt instant
  have hours : instant.hour < 100 := by
    simp only [hour]
    omega
  have minutes : instant.minute < 100 := by
    simp only [minute]
    omega
  have seconds : instant.second < 100 := by
    rcases regular.second_cases with ⟨_, shown, _⟩ | ⟨shown, _⟩ <;> omega
  have fraction : instant.nanos % nanosPerSecond < nanosPerSecond := Nat.mod_lt _ (by decide)
  have read := fun rest => yearText_read instant.date.year rest
  simp only [lenient?, text, String.toList_ofList, dateText, timeText, List.append_assoc,
    List.cons_append, (read _).1, (read _).2, bind, Option.bind]
  simp only [lenientLiteral_self '-' _ (by decide), lenientLiteral_self ':' _ (by decide),
    lenientPair_padded _ bounds.1, lenientPair_padded _ bounds.2, lenientPair_padded _ hours,
    lenientPair_padded _ minutes, lenientPair_padded _ seconds, separator_T,
    fractionText_read _ fraction, offset_Z]
  simp [trimStartChars, regular.written]

end Instant
end Corpora.Time
