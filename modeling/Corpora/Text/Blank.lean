/-!
Blank characters and trimming. A blank is a character of the Unicode property
`White_Space`; trimming removes blanks from the ends of a text and from nowhere else.
-/

namespace Corpora.Text

def scatteredBlanks : List Nat :=
  [0x20, 0x85, 0xA0, 0x1680, 0x2028, 0x2029, 0x202F, 0x205F, 0x3000]

def isBlank (c : Char) : Bool :=
  (0x09 ≤ c.toNat && c.toNat ≤ 0x0D) || (0x2000 ≤ c.toNat && c.toNat ≤ 0x200A) ||
    scatteredBlanks.contains c.toNat

def trimStartChars (cs : List Char) : List Char := cs.dropWhile isBlank

def trimEndChars (cs : List Char) : List Char := (cs.reverse.dropWhile isBlank).reverse

def trimChars (cs : List Char) : List Char := trimEndChars (trimStartChars cs)

def trim (text : String) : String := String.ofList (trimChars text.toList)

end Corpora.Text
