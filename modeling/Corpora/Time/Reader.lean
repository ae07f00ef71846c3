import Corpora.Text.Blank
import Corpora.Time.Instant

/-!
Reading instants. `Instant.lenient?` takes fields of fewer digits, blanks between them and an
offset without a colon; `Instant.strict?` takes the fixed form of RFC 3339 alone.
-/

namespace Corpora.Time

open Text (isDigit isBlank trimStartChars)
open Number (nat? ofDigits)

abbrev Field (α : Type) := List Char → Option (α × List Char)

def digitsField (least most : Nat) : Field Nat := fun cs =>
  let ds := (cs.take most).takeWhile isDigit
  if ds.length < least then none else some (ofDigits ds, cs.drop ds.length)

def allDigitsField : Field Nat := fun cs =>
  let ds := cs.takeWhile isDigit
  if ds.isEmpty then none else some (ofDigits ds, cs.drop ds.length)

def literalField (c : Char) : Field Unit
  | d :: rest => if c = d then some ((), rest) else none
  | [] => none

def isDateSeparator (c : Char) : Bool := c == 't' || c == 'T' || c == ' '

def separatorField : Field Unit
  | c :: rest => if isDateSeparator c then some ((), rest) else none
  | [] => none

/-- An optional fraction of a second in nanoseconds; digits behind the ninth are dropped. -/
def fractionField : Field Nat
  | '.' :: rest => do
      let (_, behind) ← allDigitsField rest
      let ds := (rest.takeWhile isDigit).take 9
      some (ofDigits ds * Nat.pow 10 (9 - ds.length), behind)
  | cs => some (0, cs)

/-- The offset from Universal Time in seconds: `Z`, or a sign, two digits of hours, what
`between` skips, and two digits of minutes. -/
def offsetField (between : List Char → Option (List Char)) : Field Int
  | 'Z' :: rest => some (0, rest)
  | 'z' :: rest => some (0, rest)
  | sign :: h₁ :: h₂ :: rest => do
      let negative ← if sign = '+' then some false
        else if sign = '-' || sign = '\u2212' then some true else none
      let hours ← nat? [h₁, h₂]
      match ← between rest with
      | m₁ :: m₂ :: rest =>
          let minutes ← nat? [m₁, m₂]
          if minutes ≥ 60 then none
          else
            let offset : Int := hours * 3600 + minutes * 60
            some (if negative then -offset else offset, rest)
      | _ => none
  | _ => none

structure Written where
  year : Int
  month : Nat
  day : Nat
  hour : Nat
  minute : Nat
  second : Nat
  nanos : Nat
  offset : Int

/-- The instant, if every field is in its range. Second 60 is the leap second after 59. -/
def Written.instant? (fields : Written) : Option Instant :=
  let date : Date := ⟨fields.year, fields.month, fields.day⟩
  if !date.valid || fields.hour > 23 || fields.minute > 59 || fields.second > 60 ||
      fields.offset.natAbs ≥ 86400 then none
  else
    let leap := fields.second == 60
    let second := if leap then 59 else fields.second
    let nanos := if leap then fields.nanos + nanosPerSecond else fields.nanos
    let instant := Instant.ofDate date
      (fields.hour * 3600 + fields.minute * 60 + second - fields.offset) nanos
    if yearInRange instant.date.year then some instant else none

def lenientYear : Field Int
  | '-' :: rest => (allDigitsField rest).map fun (n, behind) => (-(n : Int), behind)
  | '+' :: rest => (allDigitsField rest).map fun (n, behind) => ((n : Int), behind)
  | cs => (digitsField 1 4 cs).map fun (n, behind) => ((n : Int), behind)

def lenientPair : Field Nat := fun cs => digitsField 1 2 (trimStartChars cs)

def lenientLiteral (c : Char) : Field Unit := fun cs => literalField c (trimStartChars cs)

/-- `UTC` in any case, or an offset whose parts colons and blanks may separate. -/
def lenientOffset : Field Int := fun cs =>
  if (cs.take 3).map Text.upperChar = ['U', 'T', 'C'] then some (0, cs.drop 3)
  else offsetField (fun rest => some (rest.dropWhile fun c => c = ':' || isBlank c)) cs

namespace Instant

def lenient? (text : String) : Option Instant := do
  let (year, cs) ← lenientYear (trimStartChars text.toList)
  let (_, cs) ← lenientLiteral '-' cs
  let (month, cs) ← lenientPair cs
  let (_, cs) ← lenientLiteral '-' cs
  let (day, cs) ← lenientPair cs
  let (_, cs) ← separatorField cs
  let (hour, cs) ← lenientPair cs
  let (_, cs) ← lenientLiteral ':' cs
  let (minute, cs) ← lenientPair cs
  let (_, cs) ← lenientLiteral ':' cs
  let (second, cs) ← lenientPair cs
  let (nanos, cs) ← fractionField cs
  let (offset, cs) ← lenientOffset (trimStartChars cs)
  if !(trimStartChars cs).isEmpty then none
  else Written.instant? ⟨year, month, day, hour, minute, second, nanos, offset⟩

def strict? (text : String) : Option Instant := do
  let (year, cs) ← digitsField 4 4 text.toList
  let (_, cs) ← literalField '-' cs
  let (month, cs) ← digitsField 2 2 cs
  let (_, cs) ← literalField '-' cs
  let (day, cs) ← digitsField 2 2 cs
  let (_, cs) ← separatorField cs
  let (hour, cs) ← digitsField 2 2 cs
  let (_, cs) ← literalField ':' cs
  let (minute, cs) ← digitsField 2 2 cs
  let (_, cs) ← literalField ':' cs
  let (second, cs) ← digitsField 2 2 cs
  let (nanos, cs) ← fractionField cs
  let (offset, cs) ← offsetField (fun rest => (literalField ':' rest).map (·.2)) cs
  if !cs.isEmpty then none
  else Written.instant? ⟨year, month, day, hour, minute, second, nanos, offset⟩

end Instant
end Corpora.Time
