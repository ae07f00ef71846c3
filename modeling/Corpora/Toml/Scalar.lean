import Corpora.Number.Binary
import Corpora.Number.Decimal
import Corpora.Time.Calendar
import Corpora.Toml.Text

/-!
Numbers, dates and words of TOML.
-/

namespace Corpora.Toml

open Text (isDigit)
open Number (ofDigits digitValue)

/-- A scalar of TOML. Dates and times are told apart from the rest and not looked into. -/
inductive Scalar where
  | string (value : String)
  | integer (value : Int)
  | float (bits : Nat)
  | boolean (value : Bool)
  | dateTime
  deriving Repr, DecidableEq

/-- One or more digits of a kind, single underscores between them; the underscores are left
out. -/
def digitRun (isKind : Char → Bool) : (fuel : Nat) → Part (List Char)
  | 0, _ => none
  | fuel + 1, c :: rest =>
      if !isKind c then none
      else
        match rest with
        | '_' :: behind => (digitRun isKind fuel behind).map fun (ds, rest) => (c :: ds, rest)
        | d :: _ =>
            if isKind d then (digitRun isKind fuel rest).map fun (ds, rest) => (c :: ds, rest)
            else some ([c], rest)
        | [] => some ([c], [])
  | _, [] => none

def digits (isKind : Char → Bool) (cs : List Char) : Option (List Char × List Char) :=
  digitRun isKind (cs.length + 1) cs

def takeSign : List Char → Bool × List Char
  | '-' :: rest => (true, rest)
  | '+' :: rest => (false, rest)
  | cs => (false, cs)

def decimalDigits : Part (List Char)
  | '0' :: rest => some (['0'], rest)
  | cs => digits isDigit cs

structure FloatTail where
  fraction : List Char
  exponent : Int

def exponent? : List Char → Option (Option (Int × List Char))
  | c :: rest =>
      if c = 'e' || c = 'E' then do
        let (negative, rest) := takeSign rest
        let (ds, rest) ← digits isDigit rest
        let value : Int := ofDigits ds
        return some (if negative then -value else value, rest)
      else some none
  | [] => some none

def floatTail : Part FloatTail := fun cs => do
  match cs with
  | '.' :: rest =>
      let (fraction, rest) ← digits isDigit rest
      match ← exponent? rest with
      | some (exponent, rest) => return (⟨fraction, exponent⟩, rest)
      | none => return (⟨fraction, 0⟩, rest)
  | cs =>
      match ← exponent? cs with
      | some (exponent, rest) => return (⟨[], exponent⟩, rest)
      | none => none

def word (text : String) (cs : List Char) : Option (List Char) :=
  text.toList.foldlM (fun rest c => expectChar c rest) cs

def specialFloat : Part Scalar := fun cs =>
  let (negative, rest) := takeSign cs
  match word "inf" rest with
  | some rest =>
      some (.float (Number.withSign Number.double negative Number.double.infinity), rest)
  | none => (word "nan" rest).map fun rest => (.float (Number.double.infinity + 1), rest)

def float : Part Scalar := fun cs => do
  let (negative, rest) := takeSign cs
  let (whole, rest) ← decimalDigits rest
  let (tail, rest) ← floatTail rest
  let bits := Number.ofDecimal Number.double negative (ofDigits (whole ++ tail.fraction))
    (tail.exponent - tail.fraction.length)
  if bits % Number.double.signBit = Number.double.infinity then none else some (.float bits, rest)

def radixInteger (radix : Nat) (isKind : Char → Bool) : Part Scalar := fun cs => do
  let (ds, rest) ← digits isKind cs
  let value := ds.foldl (fun value c => radix * value + (Text.hexValue? c).getD 0) 0
  if value < Nat.pow 2 63 then some (.integer value, rest) else none

def integer : Part Scalar := fun cs =>
  match cs with
  | '0' :: 'x' :: rest => radixInteger 16 (fun c => (Text.hexValue? c).isSome) rest
  | '0' :: 'o' :: rest => radixInteger 8 (fun c => '0' ≤ c && c ≤ '7') rest
  | '0' :: 'b' :: rest => radixInteger 2 (fun c => c == '0' || c == '1') rest
  | cs => do
      let (negative, rest) := takeSign cs
      let (ds, rest) ← decimalDigits rest
      let value : Int := if negative then -(ofDigits ds : Int) else ofDigits ds
      if Number.fitsSigned64 value then some (.integer value, rest) else none

def fixedDigits (count least most : Nat) : Part Nat := fun cs =>
  let ds := cs.take count
  if ds.length = count && ds.all isDigit && least ≤ ofDigits ds && ofDigits ds ≤ most then
    some (ofDigits ds, cs.drop count)
  else none

def date : Part Unit := fun cs => do
  let (year, rest) ← fixedDigits 4 0 9999 cs
  let (month, rest) ← fixedDigits 2 1 12 (← expectChar '-' rest)
  let (_, rest) ← fixedDigits 2 1 (Time.daysInMonth year month) (← expectChar '-' rest)
  return ((), rest)

def time : Part Unit := fun cs => do
  let (_, rest) ← fixedDigits 2 0 23 cs
  let (_, rest) ← fixedDigits 2 0 59 (← expectChar ':' rest)
  let (_, rest) ← fixedDigits 2 0 60 (← expectChar ':' rest)
  match rest with
  | '.' :: rest =>
      let fraction := rest.takeWhile isDigit
      if fraction.isEmpty then none else return ((), rest.drop fraction.length)
  | rest => return ((), rest)

def skipOffset : List Char → Option (List Char)
  | 'Z' :: rest => some rest
  | 'z' :: rest => some rest
  | sign :: rest =>
      if sign = '+' || sign = '-' then do
        let (_, rest) ← fixedDigits 2 0 23 rest
        let (_, rest) ← fixedDigits 2 0 59 (← expectChar ':' rest)
        return rest
      else some (sign :: rest)
  | [] => some []

def dateTime : Part Scalar := fun cs =>
  match date cs with
  | some (_, rest) =>
      match rest with
      | separator :: behind =>
          if separator = 'T' || separator = 't' || separator = ' ' then
            match time behind with
            | some (_, rest) => (skipOffset rest).map (Scalar.dateTime, ·)
            | none => some (.dateTime, rest)
          else some (.dateTime, rest)
      | [] => some (.dateTime, [])
  | none => (time cs).map fun (_, rest) => (.dateTime, rest)

def numeric (cs : List Char) : Option (Scalar × List Char) :=
  match dateTime cs with
  | some found => some found
  | none =>
      match float cs with
      | some found => some found
      | none =>
          match specialFloat cs with
          | some found => some found
          | none => integer cs

def scalar : Part Scalar := fun cs =>
  match cs with
  | '"' :: _ => (string cs).map fun (text, rest) => (.string text, rest)
  | '\'' :: _ => (string cs).map fun (text, rest) => (.string text, rest)
  | 't' :: _ => (word "true" cs).map (Scalar.boolean true, ·)
  | 'f' :: _ => (word "false" cs).map (Scalar.boolean false, ·)
  | _ => numeric cs

end Corpora.Toml
