import Corpora.Text.Utf8

/-!
Hexadecimal digits: bytes as pairs of lower-case digits, and single digits of either case.
-/

namespace Corpora.Text

def hexDigit (n : Nat) : Char :=
  if n < 10 then Char.ofNat (48 + n) else Char.ofNat (87 + n)

def upperHexDigit (n : Nat) : Char :=
  if n < 10 then Char.ofNat (48 + n) else Char.ofNat (55 + n)

def hexValue? (c : Char) : Option Nat :=
  if '0' ≤ c && c ≤ '9' then some (c.toNat - 48)
  else if 'a' ≤ c && c ≤ 'f' then some (c.toNat - 87)
  else if 'A' ≤ c && c ≤ 'F' then some (c.toNat - 55)
  else none

def hexByte (b : UInt8) : List Char := [hexDigit (b.toNat / 16), hexDigit (b.toNat % 16)]

def hex (bytes : Bytes) : String := String.ofList (bytes.flatMap hexByte)

def hexNumber (width n : Nat) : String :=
  String.ofList ((List.range width).reverse.map fun place => hexDigit (n / Nat.pow 16 place % 16))

def unhexChars : List Char → Bytes → Option Bytes
  | [], found => some found.reverse
  | [_], _ => none
  | high :: low :: rest, found =>
      match hexValue? high, hexValue? low with
      | some h, some l => unhexChars rest (UInt8.ofNat (16 * h + l) :: found)
      | _, _ => none

def unhex? (text : String) : Option Bytes := unhexChars text.toList []

end Corpora.Text
