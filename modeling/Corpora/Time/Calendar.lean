/-!
The proleptic Gregorian calendar: dates and the number of days since 1970-01-01. Years run from
March to February inside a cycle of 400 years, which puts the leap day at the end.
-/

namespace Corpora.Time

structure Date where
  year : Int
  month : Nat
  day : Nat
  deriving Repr, DecidableEq

def isLeapYear (year : Int) : Bool :=
  (year % 4 == 0 && year % 100 != 0) || year % 400 == 0

def daysInMonth (year : Int) (month : Nat) : Nat :=
  if month == 2 then (if isLeapYear year then 29 else 28)
  else if [4, 6, 9, 11].contains month then 30
  else 31

def yearInRange (year : Int) : Bool := -262143 ≤ year && year ≤ 262142

def Date.valid (date : Date) : Bool :=
  1 ≤ date.month && date.month ≤ 12 && 1 ≤ date.day &&
    date.day ≤ daysInMonth date.year date.month && yearInRange date.year

/-- Days before 1970-01-01 in the calendar of years that start on the first of March of year 0. -/
def epochShift : Int := 719468

def daysInCycle : Int := 146097

def Date.toDays (date : Date) : Int :=
  let year := if date.month ≤ 2 then date.year - 1 else date.year
  let cycle := year / 400
  let yearOfCycle := year - cycle * 400
  let monthFromMarch : Int := if date.month > 2 then (date.month : Int) - 3 else date.month + 9
  let dayOfYear := (153 * monthFromMarch + 2) / 5 + date.day - 1
  let dayOfCycle := yearOfCycle * 365 + yearOfCycle / 4 - yearOfCycle / 100 + dayOfYear
  cycle * daysInCycle + dayOfCycle - epochShift

def Date.ofDays (days : Int) : Date :=
  let shifted := days + epochShift
  let cycle := shifted / daysInCycle
  let dayOfCycle := shifted - cycle * daysInCycle
  let yearOfCycle :=
    (dayOfCycle - dayOfCycle / 1460 + dayOfCycle / 36524 - dayOfCycle / 146096) / 365
  let dayOfYear := dayOfCycle - (365 * yearOfCycle + yearOfCycle / 4 - yearOfCycle / 100)
  let monthFromMarch := (5 * dayOfYear + 2) / 153
  let day := dayOfYear - (153 * monthFromMarch + 2) / 5 + 1
  let month := if monthFromMarch < 10 then monthFromMarch + 3 else monthFromMarch - 9
  let year := yearOfCycle + cycle * 400
  ⟨if month ≤ 2 then year + 1 else year, month.toNat, day.toNat⟩

end Corpora.Time
