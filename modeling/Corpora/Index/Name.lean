import Corpora.Text.Ascii

/-!
Names of indices. A name is also the name of the bucket that holds the index, so it keeps to the
common part of both: 1 to 63 small letters, digits and hyphens with no hyphen at an end.
-/

namespace Corpora.Index

open Text (isLowerLetter isDigit)

def maxNameLength : Nat := 63

def isNameLetter (c : Char) : Bool := isLowerLetter c || isDigit c

def isNameChar (c : Char) : Bool := isNameLetter c || c == '-'

def validNameChars (cs : List Char) : Bool :=
  match cs.head?, cs.getLast? with
  | some first, some last =>
      cs.length ≤ maxNameLength && isNameLetter first && isNameLetter last && cs.all isNameChar
  | _, _ => false

def isValidName (name : String) : Bool := validNameChars name.toList

end Corpora.Index
