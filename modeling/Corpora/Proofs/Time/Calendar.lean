import Corpora.Time.Calendar

/-!
The date of a day number exists, and its day number is the one it came from. A cycle of 400 years
is cut into years by one quotient; that the quotient is the right year is the arithmetic core.
-/

namespace Corpora.Time

def daysBeforeYear (year : Int) : Int := 365 * year + year / 4 - year / 100 + year / 400

def yearOfCycleDay (day : Int) : Int := (day - day / 1460 + day / 36524 - day / 146096) / 365

-- The last day of the cycle belongs to no century of 36524 days and is taken apart. Within a
-- century the correction by `day / 1460` counts the leap days before the year, or one too many.
theorem yearOfCycleDay_window (day : Int) (low : 0 ≤ day) (high : day ≤ 146096) :
    daysBeforeYear (yearOfCycleDay day) ≤ day ∧
      day < daysBeforeYear (yearOfCycleDay day + 1) := by
  unfold daysBeforeYear
  by_cases last : day = 146096
  · subst last
    decide
  obtain ⟨year, found⟩ : ∃ year, year = yearOfCycleDay day := ⟨_, rfl⟩
  obtain ⟨century, cut⟩ : ∃ century, century = day / 36524 := ⟨_, rfl⟩
  have noEnd : day / 146096 = 0 := by omega
  rw [← found]
  rw [yearOfCycleDay, noEnd, ← cut] at found
  have centuries : century = 0 ∨ century = 1 ∨ century = 2 ∨ century = 3 := by omega
  have hundreds : year / 100 = century := by
    rcases centuries with rfl | rfl | rfl | rfl <;> omega
  have places : year % 4 = 0 ∨ year % 4 = 1 ∨ year % 4 = 2 ∨ year % 4 = 3 := by omega
  have least : year / 4 ≤ day / 1460 := by omega
  have inCycle : year / 400 = 0 := by omega
  refine ⟨by omega, ?_⟩
  rcases places with place | place | place | place
  · have most : day / 1460 ≤ year / 4 := by
      rcases centuries with rfl | rfl | rfl | rfl <;> omega
    omega
  · have most : day / 1460 ≤ year / 4 := by
      rcases centuries with rfl | rfl | rfl | rfl <;> omega
    omega
  · have most : day / 1460 ≤ year / 4 := by
      rcases centuries with rfl | rfl | rfl | rfl <;> omega
    omega
  · have most : day / 1460 ≤ year / 4 + 1 := by
      rcases centuries with rfl | rfl | rfl | rfl <;> omega
    by_cases turn : (year + 1) % 100 = 0
    · rcases centuries with rfl | rfl | rfl | rfl <;> omega
    · have same : (year + 1) / 100 = century := by omega
      omega

theorem yearOfCycleDay_bounds (day : Int) (low : 0 ≤ day) (high : day ≤ 146096) :
    0 ≤ yearOfCycleDay day ∧ yearOfCycleDay day ≤ 399 := by
  unfold yearOfCycleDay
  omega

/-- A day in years from March to February: the cycle, the year of it and the day of the year. -/
structure MarchDay where
  cycle : Int
  year : Int
  day : Int

namespace MarchDay

structure Exists (found : MarchDay) : Prop where
  year_low : 0 ≤ found.year
  year_high : found.year ≤ 399
  day_low : 0 ≤ found.day
  day_high : found.day < daysBeforeYear (found.year + 1) - daysBeforeYear found.year

def number (found : MarchDay) : Int :=
  found.cycle * daysInCycle + daysBeforeYear found.year + found.day - epochShift

def ofNumber (days : Int) : MarchDay :=
  let shifted := days + epochShift
  let cycle := shifted / daysInCycle
  let dayOfCycle := shifted - cycle * daysInCycle
  let year := yearOfCycleDay dayOfCycle
  ⟨cycle, year, dayOfCycle - daysBeforeYear year⟩

def date (found : MarchDay) : Date :=
  let month := (5 * found.day + 2) / 153
  let year := found.year + found.cycle * 400
  ⟨if month < 10 then year else year + 1,
    (if month < 10 then month + 3 else month - 9).toNat,
    (found.day - (153 * month + 2) / 5 + 1).toNat⟩

theorem ofNumber_exists (days : Int) : (ofNumber days).Exists := by
  have low : 0 ≤ (days + epochShift) - (days + epochShift) / daysInCycle * daysInCycle := by
    simp only [epochShift, daysInCycle]
    omega
  have high : (days + epochShift) - (days + epochShift) / daysInCycle * daysInCycle ≤ 146096 := by
    simp only [epochShift, daysInCycle]
    omega
  have bounds := yearOfCycleDay_bounds _ low high
  have window := yearOfCycleDay_window _ low high
  refine ⟨bounds.1, bounds.2, ?_, ?_⟩ <;> simp only [ofNumber] <;> omega

theorem number_ofNumber (days : Int) : (ofNumber days).number = days := by
  simp only [number, ofNumber]
  omega

theorem Exists.day_le {found : MarchDay} (sound : found.Exists) : found.day ≤ 365 := by
  have last := sound.day_high
  simp only [daysBeforeYear] at last
  omega

end MarchDay

theorem ofDays_eq (days : Int) : Date.ofDays days = (MarchDay.ofNumber days).date := by
  have sound := MarchDay.ofNumber_exists days
  have low := sound.year_low
  have high := sound.year_high
  have dayLow := sound.day_low
  have dayHigh := sound.day_le
  simp only [MarchDay.ofNumber, yearOfCycleDay, daysBeforeYear] at low high dayLow dayHigh
  have inCycle : ∀ year : Int, 0 ≤ year → year ≤ 399 → year / 400 = 0 := by omega
  simp only [inCycle _ low high, Int.add_zero] at dayLow dayHigh
  simp only [Date.ofDays, MarchDay.date, MarchDay.ofNumber, yearOfCycleDay, daysBeforeYear,
    inCycle _ low high, Int.add_zero]
  generalize (days + epochShift) - (days + epochShift) / daysInCycle * daysInCycle = dayOfCycle at *
  generalize (dayOfCycle - dayOfCycle / 1460 + dayOfCycle / 36524 - dayOfCycle / 146096) / 365 =
    year at *
  generalize dayOfCycle - (365 * year + year / 4 - year / 100) = day at *
  congr 1
  by_cases early : (5 * day + 2) / 153 < 10
  · have late : ¬ (5 * day + 2) / 153 + 3 ≤ 2 := by omega
    simp [early, late]
  · have late : (5 * day + 2) / 153 - 9 ≤ 2 := by omega
    simp [early, late]

namespace MarchDay

variable {found : MarchDay}

theorem toDays_date (sound : found.Exists) : found.date.toDays = found.number := by
  have low := sound.year_low
  have high := sound.year_high
  have dayLow := sound.day_low
  have dayHigh := sound.day_le
  have inCycle : (found.year + found.cycle * 400) / 400 = found.cycle := by omega
  have noTurn : found.year / 400 = 0 := by omega
  obtain ⟨month, cut⟩ : ∃ month, month = (5 * found.day + 2) / 153 := ⟨_, rfl⟩
  simp only [Date.toDays, date, number, ← cut]
  by_cases early : month < 10
  · have year : ¬ (month + 3).toNat ≤ 2 := by omega
    have place : (month + 3).toNat > 2 := by omega
    simp only [early, ↓reduceIte, year, place, inCycle, daysBeforeYear, noTurn]
    omega
  · have year : (month - 9).toNat ≤ 2 := by omega
    have place : ¬ (month - 9).toNat > 2 := by omega
    simp only [early, ↓reduceIte, year, place, Int.add_sub_cancel, inCycle, daysBeforeYear, noTurn]
    omega

-- The 366th day of a year that starts in March is the leap day of the year that follows.
theorem Exists.leap (sound : found.Exists) (last : found.day = 365) :
    isLeapYear (found.year + found.cycle * 400 + 1) := by
  have low := sound.year_low
  have high := sound.year_high
  have window := sound.day_high
  simp only [daysBeforeYear] at window
  simp only [isLeapYear, Bool.or_eq_true, Bool.and_eq_true, beq_iff_eq, bne_iff_ne]
  omega

theorem date_valid (sound : found.Exists) (inRange : yearInRange found.date.year) :
    found.date.valid := by
  have dayLow := sound.day_low
  have dayHigh := sound.day_le
  have leap := sound.leap
  simp only [Date.valid, inRange, Bool.and_true, Bool.and_eq_true, decide_eq_true_eq]
  obtain ⟨month, cut⟩ : ∃ month, month = (5 * found.day + 2) / 153 := ⟨_, rfl⟩
  simp only [date, ← cut]
  have months : month = 0 ∨ month = 1 ∨ month = 2 ∨ month = 3 ∨ month = 4 ∨ month = 5 ∨
      month = 6 ∨ month = 7 ∨ month = 8 ∨ month = 9 ∨ month = 10 ∨ month = 11 := by omega
  by_cases leapYear : isLeapYear (found.year + found.cycle * 400 + 1)
  · rcases months with rfl | rfl | rfl | rfl | rfl | rfl | rfl | rfl | rfl | rfl | rfl | rfl
    all_goals simp [daysInMonth, leapYear]
    all_goals omega
  · have short : found.day ≠ 365 := fun last => leapYear (leap last)
    rcases months with rfl | rfl | rfl | rfl | rfl | rfl | rfl | rfl | rfl | rfl | rfl | rfl
    all_goals simp [daysInMonth, leapYear]
    all_goals omega

end MarchDay

theorem toDays_ofDays (days : Int) : (Date.ofDays days).toDays = days := by
  rw [ofDays_eq, MarchDay.toDays_date (MarchDay.ofNumber_exists days), MarchDay.number_ofNumber]

theorem ofDays_valid (days : Int) (inRange : yearInRange (Date.ofDays days).year) :
    (Date.ofDays days).valid := by
  rw [ofDays_eq] at inRange ⊢
  exact MarchDay.date_valid (MarchDay.ofNumber_exists days) inRange

theorem Date.valid_bounds {date : Date} (valid : date.valid = true) :
    (1 ≤ date.month ∧ date.month ≤ 12) ∧ 1 ≤ date.day ∧ date.day ≤ 31 := by
  simp only [Date.valid, Bool.and_eq_true, decide_eq_true_eq] at valid
  have days : daysInMonth date.year date.month ≤ 31 := by
    unfold daysInMonth
    repeat' split
    all_goals decide
  omega

end Corpora.Time
