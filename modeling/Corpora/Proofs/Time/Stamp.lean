import Corpora.Proofs.Time.Instant

/-!
Stamps of RFC 3339 are read as the instants that they name: any date of four digits of a year, any
number of digits behind the second, and any offset from Universal Time.
-/

namespace Corpora.Time

open Text (isDigit)
open Number (padded nat? ofDigits length_padded padded_all ofDigits_padded)

inductive Zone where
  | universal (letter : Char) (known : letter = 'Z' ∨ letter = 'z')
  | offset (west : Bool) (hours minutes : Nat) (inDay : hours ≤ 23) (inHour : minutes ≤ 59)

namespace Zone

def seconds : Zone → Int
  | universal _ _ => 0
  | offset west hours minutes _ _ =>
      let distance : Int := hours * 3600 + minutes * 60
      if west then -distance else distance

def chars : Zone → List Char
  | universal letter _ => [letter]
  | offset west hours minutes _ _ =>
      (if west then '-' else '+') :: (padded 2 hours ++ ':' :: padded 2 minutes)

end Zone

/-- A date and a time with the digits of a fraction. Second 60 is the leap second after 59. -/
structure Stamp where
  date : Date
  separator : Char
  hour : Nat
  minute : Nat
  second : Nat
  fraction : List Char
  zone : Zone
  early : 0 ≤ date.year
  late : date.year ≤ 9999
  dated : date.valid = true
  separated : isDateSeparator separator = true
  inDay : hour ≤ 23
  inHour : minute ≤ 59
  inMinute : second ≤ 60
  counted : ∀ c ∈ fraction, isDigit c = true

namespace Stamp

variable (stamp : Stamp)

def fractionChars : List Char := if stamp.fraction = [] then [] else '.' :: stamp.fraction

def text : String :=
  String.ofList (padded 4 stamp.date.year.toNat ++ '-' :: (padded 2 stamp.date.month ++
    '-' :: (padded 2 stamp.date.day ++ stamp.separator :: (padded 2 stamp.hour ++
      ':' :: (padded 2 stamp.minute ++ ':' :: (padded 2 stamp.second ++
        (stamp.fractionChars ++ stamp.zone.chars)))))))

def nanos : Nat :=
  ofDigits (stamp.fraction.take 9) * Nat.pow 10 (9 - (stamp.fraction.take 9).length)

def instant : Instant :=
  Instant.ofDate stamp.date
    (stamp.hour * 3600 + stamp.minute * 60 + min stamp.second 59 - stamp.zone.seconds)
    (stamp.nanos + if stamp.second = 60 then nanosPerSecond else 0)

end Stamp

section Fields

theorem literalField_self (c : Char) (rest : List Char) :
    literalField c (c :: rest) = some ((), rest) := by
  rw [literalField, if_pos rfl]

theorem padded_two {n : Nat} (fits : n < 100) :
    ∃ first second, padded 2 n = [first, second] ∧ nat? [first, second] = some n := by
  have all := List.all_eq_true.mpr (padded_all 2 n)
  have value := ofDigits_padded 2 n fits
  refine ⟨_, _, rfl, ?_⟩
  change nat? (padded 2 n) = some n
  have filled : (padded 2 n).isEmpty = false := rfl
  rw [nat?, all, value, filled]
  rfl

theorem zone_ends (zone : Zone) (c : Char) (first : zone.chars.head? = some c) :
    isDigit c = false ∧ c ≠ '.' := by
  cases zone with
  | universal letter known =>
      cases first
      rcases known with rfl | rfl <;> decide
  | offset west hours minutes inDay inHour =>
      cases first
      cases west <;> decide

theorem fractionField_stamp (stamp : Stamp) :
    fractionField (stamp.fractionChars ++ stamp.zone.chars) =
      some (stamp.nanos, stamp.zone.chars) := by
  have ends : Ends stamp.zone.chars := fun c first => (zone_ends stamp.zone c first).1
  rw [Stamp.fractionChars, Stamp.nanos]
  split
  · next none =>
    rw [none, List.nil_append, fractionField]
    · rfl
    · intro rest dot
      exact (zone_ends stamp.zone '.' (by rw [dot]; rfl)).2 rfl
  · next some =>
    have run := allDigitsField_run stamp.counted some ends
    rw [List.cons_append, fractionField, takeWhile_digits _ stamp.counted ends, run]
    rfl

theorem offsetField_zone (zone : Zone) :
    offsetField (fun rest => (literalField ':' rest).map (·.2)) zone.chars =
      some (zone.seconds, []) := by
  cases zone with
  | universal letter known => rcases known with rfl | rfl <;> rfl
  | offset west hours minutes inDay inHour =>
      obtain ⟨h₁, h₂, shownHours, readHours⟩ := @padded_two hours (by omega)
      obtain ⟨m₁, m₂, shownMinutes, readMinutes⟩ := @padded_two minutes (by omega)
      have small : ¬ minutes ≥ 60 := by omega
      rw [Zone.chars, shownHours, shownMinutes]
      cases west <;>
        simp [offsetField, Zone.seconds, literalField, readHours, readMinutes, small]

end Fields

section Range

theorem toDays_bounds {date : Date} (early : 0 ≤ date.year) (late : date.year ≤ 9999)
    (dated : date.valid = true) : -719528 ≤ date.toDays ∧ date.toDays ≤ 2932896 := by
  have bounds := Date.valid_bounds dated
  simp only [Date.toDays, epochShift, daysInCycle]
  split <;> split <;> omega

theorem yearInRange_ofDays {days : Int} (low : -719529 ≤ days) (high : days ≤ 2932897) :
    yearInRange (Date.ofDays days).year = true := by
  obtain ⟨yearLow, yearHigh, _, _⟩ := MarchDay.ofNumber_exists days
  have cycle : (MarchDay.ofNumber days).cycle = (days + epochShift) / daysInCycle := rfl
  rw [ofDays_eq, yearInRange, Bool.and_eq_true, decide_eq_true_eq, decide_eq_true_eq]
  simp only [epochShift, daysInCycle] at cycle
  simp only [MarchDay.date]
  split <;> omega

end Range

namespace Stamp

variable (stamp : Stamp)

def written : Written :=
  ⟨stamp.date.year, stamp.date.month, stamp.date.day, stamp.hour, stamp.minute, stamp.second,
    stamp.nanos, stamp.zone.seconds⟩

theorem zone_bounds (zone : Zone) : -86400 < zone.seconds ∧ zone.seconds < 86400 := by
  cases zone with
  | universal letter known => simp [Zone.seconds]
  | offset west hours minutes inDay inHour =>
      simp only [Zone.seconds]
      split <;> omega

theorem instant_inRange : yearInRange stamp.instant.date.year = true := by
  obtain ⟨low, high⟩ := toDays_bounds stamp.early stamp.late stamp.dated
  obtain ⟨west, east⟩ := zone_bounds stamp.zone
  have inDay := stamp.inDay
  have inHour := stamp.inHour
  refine yearInRange_ofDays ?_ ?_ <;>
    simp only [instant, Instant.ofDate, secondsPerDay] <;> omega

theorem instant?_written : stamp.written.instant? = some stamp.instant := by
  obtain ⟨west, east⟩ := zone_bounds stamp.zone
  have hours : ¬ stamp.hour > 23 := Nat.not_lt.mpr stamp.inDay
  have minutes : ¬ stamp.minute > 59 := Nat.not_lt.mpr stamp.inHour
  have seconds : ¬ stamp.second > 60 := Nat.not_lt.mpr stamp.inMinute
  have near : ¬ stamp.zone.seconds.natAbs ≥ 86400 := by omega
  have dated : Date.valid ⟨stamp.date.year, stamp.date.month, stamp.date.day⟩ = true := stamp.dated
  have inRange := stamp.instant_inRange
  by_cases leap : stamp.second = 60
  · have named : stamp.instant = Instant.ofDate stamp.date
        (stamp.hour * 3600 + stamp.minute * 60 + 59 - stamp.zone.seconds)
        (stamp.nanos + nanosPerSecond) := by
      simp [instant, leap]
    rw [named] at inRange ⊢
    simpa [Written.instant?, written, dated, hours, minutes, leap, near] using inRange
  · have last : min stamp.second 59 = stamp.second := by omega
    have named : stamp.instant = Instant.ofDate stamp.date
        (stamp.hour * 3600 + stamp.minute * 60 + stamp.second - stamp.zone.seconds)
        stamp.nanos := by
      simp [instant, leap, last]
    rw [named] at inRange ⊢
    simpa [Written.instant?, written, dated, hours, minutes, seconds, near, leap] using inRange

/-- A stamp is read as the instant that it names. -/
theorem strict?_text : Instant.strict? stamp.text = some stamp.instant := by
  have year : stamp.date.year.toNat < Nat.pow 10 4 := by
    have early := stamp.early
    have late := stamp.late
    rw [Nat.pow_eq]
    omega
  have back : (stamp.date.year.toNat : Int) = stamp.date.year := Int.toNat_of_nonneg stamp.early
  have bounds := Date.valid_bounds stamp.dated
  have month : stamp.date.month < 100 := by omega
  have day : stamp.date.day < 100 := by omega
  have hour : stamp.hour < 100 := Nat.lt_of_le_of_lt stamp.inDay (by decide)
  have minute : stamp.minute < 100 := Nat.lt_of_le_of_lt stamp.inHour (by decide)
  have second : stamp.second < 100 := Nat.lt_of_le_of_lt stamp.inMinute (by decide)
  have pair {n : Nat} (fits : n < 100) (rest : List Char) :
      digitsField 2 2 (padded 2 n ++ rest) = some (n, rest) :=
    digitsField_padded 2 2 n rest (Nat.le_refl 2) fits
  have separated (rest : List Char) :
      separatorField (stamp.separator :: rest) = some ((), rest) := by
    rw [separatorField, if_pos stamp.separated]
  rw [Instant.strict?, text, String.toList_ofList, digitsField_padded 4 4 _ _ (Nat.le_refl 4) year]
  simp only [bind, Option.bind, literalField_self, separated, pair month, pair day, pair hour,
    pair minute, pair second, fractionField_stamp, offsetField_zone, back]
  exact stamp.instant?_written

end Stamp

end Corpora.Time
