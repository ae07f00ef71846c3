/-!
Texts as bytes in UTF-8. `decode?` reads exactly what `encode` writes; `decodeLossy` reads any
bytes and puts U+FFFD in place of each maximal piece that is no part of a well-formed sequence.
-/

namespace Corpora

abbrev Bytes := List UInt8

namespace Text.Utf8

def encode (text : String) : Bytes := text.toByteArray.data.toList

def decode? (bytes : Bytes) : Option String := String.fromUTF8? ⟨bytes.toArray⟩

theorem decode?_encode (text : String) : decode? (encode text) = some text := by
  have valid := text.isValidUTF8
  simp [decode?, encode, String.fromUTF8?, valid, String.fromUTF8]

def isTail (b : UInt8) : Bool := 0x80 ≤ b && b ≤ 0xBF

def secondRange (lead : UInt8) : UInt8 × UInt8 :=
  if lead == 0xE0 then (0xA0, 0xBF)
  else if lead == 0xED then (0x80, 0x9F)
  else if lead == 0xF0 then (0x90, 0xBF)
  else if lead == 0xF4 then (0x80, 0x8F)
  else (0x80, 0xBF)

def isSecond (lead second : UInt8) : Bool :=
  (secondRange lead).1 ≤ second && second ≤ (secondRange lead).2

/-- How many bytes a sequence with this lead byte has; `0` for a byte that leads none. -/
def sequenceLength (lead : UInt8) : Nat :=
  if lead < 0x80 then 1
  else if 0xC2 ≤ lead && lead ≤ 0xDF then 2
  else if 0xE0 ≤ lead && lead ≤ 0xEF then 3
  else if 0xF0 ≤ lead && lead ≤ 0xF4 then 4
  else 0

def continuation (lead : UInt8) (following : Bytes) : Nat :=
  match following with
  | second :: rest =>
      if sequenceLength lead ≤ 1 || !isSecond lead second then 0
      else 1 + ((rest.take (sequenceLength lead - 2)).takeWhile isTail).length
  | [] => 0

/-- Cuts bytes into maximal pieces: a complete sequence as `some`, a broken one as `none`. -/
def pieces : Bytes → List (Option Bytes) → List (Option Bytes)
  | [], found => found.reverse
  | lead :: rest, found =>
      let extra := continuation lead rest
      let piece := if extra + 1 == sequenceLength lead then
        some (lead :: rest.take extra) else none
      pieces (rest.drop extra) (piece :: found)
  termination_by bytes => bytes.length
  decreasing_by simp only [List.length_drop, List.length_cons]; omega

def decodeLossy (bytes : Bytes) : String :=
  match decode? bytes with
  | some text => text
  | none => String.join ((pieces bytes []).map fun piece =>
      ((piece.bind decode?).getD "\uFFFD"))

end Text.Utf8
end Corpora
