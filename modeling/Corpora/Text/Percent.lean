import Corpora.Text.Ascii
import Corpora.Text.Hex

/-!
Percent encoding. Letters, digits and `-._~` stay as they are; every other byte of the UTF-8 form
becomes a percent sign and two upper-case hexadecimal digits. Decoding keeps a percent sign that
no two digits follow.
-/

namespace Corpora.Text.Percent

def isUnreserved (b : UInt8) : Bool :=
  let c := Char.ofNat b.toNat
  isAlphanumeric c || c == '-' || c == '_' || c == '.' || c == '~'

def encodeByte (b : UInt8) : List Char :=
  if isUnreserved b then [Char.ofNat b.toNat]
  else ['%', upperHexDigit (b.toNat / 16), upperHexDigit (b.toNat % 16)]

def encodeBytes (bytes : Bytes) : List Char := bytes.flatMap encodeByte

def encode (text : String) : String := String.ofList (encodeBytes (Utf8.encode text))

def triple? (sign high low : UInt8) : Option UInt8 := do
  if sign != 0x25 then none
  let h ← hexValue? (Char.ofNat high.toNat)
  let l ← hexValue? (Char.ofNat low.toNat)
  return UInt8.ofNat (16 * h + l)

def decodeBytes : Bytes → Bytes
  | sign :: high :: low :: rest =>
      match triple? sign high low with
      | some b => b :: decodeBytes rest
      | none => sign :: decodeBytes (high :: low :: rest)
  | b :: rest => b :: decodeBytes rest
  | [] => []

def decode? (text : String) : Option String := Utf8.decode? (decodeBytes (Utf8.encode text))

end Corpora.Text.Percent
