import Corpora.Json.Basic
import Corpora.Text.Hex

/-!
The tokens of JSON, read off the front of a list of bytes. A reader gives its value together
with the bytes behind it, or the kind of fault that stopped it.
-/

namespace Corpora.Json

open Text (hexValue?)

inductive Fault where
  | malformed
  | mismatched
  deriving Repr, DecidableEq

def ascii (c : Char) : UInt8 := UInt8.ofNat c.toNat

def isBlankByte (b : UInt8) : Bool :=
  b == 0x20 || b == 0x09 || b == 0x0A || b == 0x0D

def skipBlanks (bytes : Bytes) : Bytes := bytes.dropWhile isBlankByte

def expect (b : UInt8) : Bytes → Except Fault Bytes
  | c :: rest => if b == c then .ok rest else .error .malformed
  | [] => .error .malformed

def expectWord (word : String) (bytes : Bytes) : Except Fault Bytes :=
  (Text.Utf8.encode word).foldlM (fun rest b => expect b rest) bytes

def hexByteValue? (b : UInt8) : Option Nat := hexValue? (Char.ofNat b.toNat)

def hexUnit? (a b c d : UInt8) : Option Nat := do
  let a ← hexByteValue? a
  let b ← hexByteValue? b
  let c ← hexByteValue? c
  let d ← hexByteValue? d
  return ((a * 16 + b) * 16 + c) * 16 + d

def shortEscape? (b : UInt8) : Option UInt8 :=
  if b == ascii '"' || b == ascii '\\' || b == ascii '/' then some b
  else if b == ascii 'b' then some 0x08
  else if b == ascii 'f' then some 0x0C
  else if b == ascii 'n' then some 0x0A
  else if b == ascii 'r' then some 0x0D
  else if b == ascii 't' then some 0x09
  else none

def isLeadingSurrogate (unit : Nat) : Bool := 0xD800 ≤ unit && unit < 0xDC00

def isTrailingSurrogate (unit : Nat) : Bool := 0xDC00 ≤ unit && unit < 0xE000

def pushChar (code : Nat) (found : Bytes) : Bytes :=
  (String.utf8EncodeChar (Char.ofNat code)).reverse ++ found

/-- The bytes of a string up to its closing quote, in reverse order. Two escapes that form a
surrogate pair give one character; a lone surrogate is a fault. -/
def stringBytes : Bytes → Bytes → Except Fault (Bytes × Bytes)
  | [], _ => .error .malformed
  | b :: rest, found =>
      if b == ascii '"' then .ok (found, rest)
      else if b == ascii '\\' then
        match rest with
        | e :: rest =>
            if e == ascii 'u' then
              match rest with
              | a :: b :: c :: d :: rest =>
                  match hexUnit? a b c d with
                  | none => .error .malformed
                  | some unit =>
                      if isLeadingSurrogate unit then
                        match rest with
                        | s :: u :: a :: b :: c :: d :: rest =>
                            match hexUnit? a b c d with
                            | none => .error .malformed
                            | some second =>
                                if s == ascii '\\' && u == ascii 'u' &&
                                    isTrailingSurrogate second then
                                  stringBytes rest (pushChar
                                    (0x10000 + (unit - 0xD800) * 0x400 + (second - 0xDC00)) found)
                                else .error .malformed
                        | _ => .error .malformed
                      else if isTrailingSurrogate unit then .error .malformed
                      else stringBytes rest (pushChar unit found)
              | _ => .error .malformed
            else match shortEscape? e with
              | some plain => stringBytes rest (plain :: found)
              | none => .error .malformed
        | [] => .error .malformed
      else if b < 0x20 then .error .malformed
      else stringBytes rest (b :: found)

def stringBody (bytes : Bytes) : Except Fault (String × Bytes) := do
  let (found, rest) ← stringBytes bytes []
  match Text.Utf8.decode? found.reverse with
  | some text => .ok (text, rest)
  | none => .error .malformed

/-- Passes over a string behind its opening quote, whatever bytes and surrogates it holds. -/
def skipString : Bytes → Except Fault Bytes
  | [] => .error .malformed
  | b :: rest =>
      if b == ascii '"' then .ok rest
      else if b == ascii '\\' then
        match rest with
        | e :: rest =>
            if e == ascii 'u' then
              match rest with
              | a :: b :: c :: d :: rest =>
                  if (hexUnit? a b c d).isSome then skipString rest else .error .malformed
              | _ => .error .malformed
            else if (shortEscape? e).isSome then skipString rest
            else .error .malformed
        | [] => .error .malformed
      else if b < 0x20 then .error .malformed
      else skipString rest

def isDigitByte (b : UInt8) : Bool := 0x30 ≤ b && b ≤ 0x39

structure NumeralParts where
  negative : Bool
  whole : Bytes
  fraction : Option Bytes
  exponent : Option (Bool × Bytes)

def takeDigits (bytes : Bytes) : Bytes × Bytes :=
  (bytes.takeWhile isDigitByte, bytes.dropWhile isDigitByte)

def someDigits (bytes : Bytes) : Except Fault (Bytes × Bytes) :=
  let (ds, rest) := takeDigits bytes
  if ds.isEmpty then .error .malformed else .ok (ds, rest)

def fractionPart (bytes : Bytes) : Except Fault (Option Bytes × Bytes) :=
  match bytes with
  | b :: rest =>
      if b == ascii '.' then (someDigits rest).map fun (ds, rest) => (some ds, rest)
      else .ok (none, bytes)
  | [] => .ok (none, bytes)

def exponentPart (bytes : Bytes) : Except Fault (Option (Bool × Bytes) × Bytes) :=
  match bytes with
  | b :: rest =>
      if b == ascii 'e' || b == ascii 'E' then
        let (negative, rest) : Bool × Bytes := match rest with
          | s :: behind =>
              if s == ascii '-' then (true, behind)
              else if s == ascii '+' then (false, behind)
              else (false, rest)
          | [] => (false, rest)
        (someDigits rest).map fun (ds, rest) => (some (negative, ds), rest)
      else .ok (none, bytes)
  | [] => .ok (none, bytes)

def numeralParts (bytes : Bytes) : Except Fault (NumeralParts × Bytes) := do
  let (negative, bytes) : Bool × Bytes := match bytes with
    | b :: rest => if b == ascii '-' then (true, rest) else (false, bytes)
    | [] => (false, bytes)
  let (whole, rest) ← someDigits bytes
  if whole.length > 1 && whole.head? == some (ascii '0') then throw .malformed
  let (fraction, rest) ← fractionPart rest
  let (exponent, rest) ← exponentPart rest
  return (⟨negative, whole, fraction, exponent⟩, rest)

def digitsValue (ds : Bytes) : Nat := ds.foldl (fun value b => 10 * value + (b.toNat - 48)) 0

/-- The value of a number without fraction and exponent, if an integer of 64 bits holds it.
`-0` is no integer. -/
def NumeralParts.whole? (parts : NumeralParts) : Option Int :=
  if parts.fraction.isSome || parts.exponent.isSome then none
  else
    let n := digitsValue parts.whole
    if parts.negative then
      if n = 0 || n > Nat.pow 2 63 then none else some (-(n : Int))
    else if n < Nat.pow 2 64 then some n else none

def NumeralParts.bits (parts : NumeralParts) : Nat :=
  let fraction := parts.fraction.getD []
  let exponent : Int := match parts.exponent with
    | some (true, ds) => -(digitsValue ds : Int)
    | some (false, ds) => digitsValue ds
    | none => 0
  Number.ofDecimal Number.double parts.negative (digitsValue (parts.whole ++ fraction))
    (exponent - fraction.length)

def numeral (bytes : Bytes) : Except Fault (Numeral × Bytes) := do
  let (parts, rest) ← numeralParts bytes
  match parts.whole? with
  | some n => return (.whole n, rest)
  | none =>
      let bits := parts.bits
      if bits % Number.double.signBit = Number.double.infinity then throw .malformed
      return (.real (Float.ofBits (UInt64.ofNat bits)), rest)

end Corpora.Json
