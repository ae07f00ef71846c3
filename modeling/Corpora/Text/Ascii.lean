/-!
Letter case and character classes of ASCII. No character outside ASCII has a case here.
-/

namespace Corpora.Text

def isLowerLetter (c : Char) : Bool := 'a' ≤ c && c ≤ 'z'

def isUpperLetter (c : Char) : Bool := 'A' ≤ c && c ≤ 'Z'

def isDigit (c : Char) : Bool := '0' ≤ c && c ≤ '9'

def isAlphanumeric (c : Char) : Bool := isLowerLetter c || isUpperLetter c || isDigit c

/-- The small letter of a capital of ASCII; any other character is kept. -/
def lowerChar (c : Char) : Char :=
  if isUpperLetter c then Char.ofNat (c.toNat + 32) else c

def upperChar (c : Char) : Char :=
  if isLowerLetter c then Char.ofNat (c.toNat - 32) else c

def lower (text : String) : String := String.ofList (text.toList.map lowerChar)

def upper (text : String) : String := String.ofList (text.toList.map upperChar)

def sameIgnoringCase (left right : String) : Bool := lower left == lower right

end Corpora.Text
