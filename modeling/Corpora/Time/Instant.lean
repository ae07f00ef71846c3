import Corpora.Number.Decimal
import Corpora.Time.Calendar

/-!
Instants of Universal Time and their texts. `Instant.text` is the form in which the program
writes an instant: date, `T`, time, and a fraction of 0, 3, 6 or 9 digits, the fewest that are
exact. A leap second is the second before it with `nanos` of 10^9 and more, and shows as `:60`.
-/

namespace Corpora.Time

open Number (digits padded ofNat)

structure Instant where
  seconds : Int
  nanos : Nat
  deriving Repr, DecidableEq

def secondsPerDay : Int := 86400

def nanosPerSecond : Nat := 1000000000

namespace Instant

def epoch : Instant := ⟨0, 0⟩

def ofDate (date : Date) (secondOfDay : Int) (nanos : Nat) : Instant :=
  ⟨date.toDays * secondsPerDay + secondOfDay, nanos⟩

def date (instant : Instant) : Date := Date.ofDays (instant.seconds / secondsPerDay)

def secondOfDay (instant : Instant) : Nat := (instant.seconds % secondsPerDay).toNat

def hour (instant : Instant) : Nat := instant.secondOfDay / 3600

def minute (instant : Instant) : Nat := instant.secondOfDay / 60 % 60

def second (instant : Instant) : Nat :=
  instant.secondOfDay % 60 + instant.nanos / nanosPerSecond

end Instant

/-- Four digits for the years 0 to 9999; beyond them a sign and at least four digits. -/
def yearText (year : Int) : List Char :=
  if 0 ≤ year && year ≤ 9999 then padded 4 year.toNat
  else
    let ds := digits year.natAbs
    (if year < 0 then '-' else '+') :: (List.replicate (4 - ds.length) '0' ++ ds)

/-- The fraction of a second with the fewest of 0, 3, 6 or 9 digits. -/
def fractionText (nanos : Nat) : List Char :=
  if nanos = 0 then []
  else if nanos % 1000000 = 0 then '.' :: padded 3 (nanos / 1000000)
  else if nanos % 1000 = 0 then '.' :: padded 6 (nanos / 1000)
  else '.' :: padded 9 nanos

namespace Instant

def dateText (instant : Instant) : List Char :=
  yearText instant.date.year ++ '-' :: padded 2 instant.date.month ++
    '-' :: padded 2 instant.date.day

def timeText (instant : Instant) : List Char :=
  padded 2 instant.hour ++ ':' :: padded 2 instant.minute ++ ':' :: padded 2 instant.second ++
    fractionText (instant.nanos % nanosPerSecond)

def text (instant : Instant) : String :=
  String.ofList (instant.dateText ++ 'T' :: instant.timeText ++ ['Z'])

def compactDate (instant : Instant) : String :=
  String.ofList (yearText instant.date.year ++ padded 2 instant.date.month ++
    padded 2 instant.date.day)

def compactText (instant : Instant) : String :=
  String.ofList (instant.compactDate.toList ++ 'T' :: padded 2 instant.hour ++
    padded 2 instant.minute ++ padded 2 instant.second ++ ['Z'])

end Instant
end Corpora.Time
