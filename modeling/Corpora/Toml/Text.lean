import Corpora.Text.Ascii
import Corpora.Text.Hex

/-!
Strings and comments of TOML, read off the front of a list of characters. Basic strings have
escapes and literal strings have none; each form may run over several lines between tripled
quotes, where an escaped line end takes the blanks behind it away.
-/

namespace Corpora.Toml

open Text (hexValue? isAlphanumeric)

abbrev Part (α : Type) := List Char → Option (α × List Char)

def isSpace (c : Char) : Bool := c == ' ' || c == '\t'

def skipSpaces (cs : List Char) : List Char := cs.dropWhile isSpace

def expectChar (c : Char) : List Char → Option (List Char)
  | d :: rest => if c = d then some rest else none
  | [] => none

def lineEnd? : List Char → Option (List Char)
  | '\n' :: rest => some rest
  | '\r' :: '\n' :: rest => some rest
  | _ => none

def isCommentChar (c : Char) : Bool := c == '\t' || (0x20 ≤ c.toNat && c.toNat != 0x7F)

def skipComment : List Char → List Char
  | '#' :: rest => rest.dropWhile isCommentChar
  | cs => cs

def lineTail (cs : List Char) : Option (List Char) :=
  match skipComment (skipSpaces cs) with
  | [] => some []
  | rest => lineEnd? rest

/-- Skips blanks, comments and line ends. A comment has to end with its line. -/
def skipLines : (fuel : Nat) → List Char → Option (List Char)
  | 0, cs => some cs
  | fuel + 1, cs =>
      match skipSpaces cs with
      | '#' :: rest =>
          match rest.dropWhile isCommentChar with
          | [] => some []
          | rest =>
              match lineEnd? rest with
              | some rest => skipLines fuel rest
              | none => none
      | cs =>
          match lineEnd? cs with
          | some rest => skipLines fuel rest
          | none => some cs

def hexDigits : (count : Nat) → Nat → Part Nat
  | 0, value, cs => some (value, cs)
  | count + 1, value, c :: rest =>
      match hexValue? c with
      | some digit => hexDigits count (16 * value + digit) rest
      | none => none
  | _, _, [] => none

def charOf? (code : Nat) : Option Char := if code.isValidChar then some (Char.ofNat code) else none

def escape : Part Char
  | 'b' :: rest => some ('\x08', rest)
  | 't' :: rest => some ('\t', rest)
  | 'n' :: rest => some ('\n', rest)
  | 'f' :: rest => some ('\x0c', rest)
  | 'r' :: rest => some ('\r', rest)
  | '"' :: rest => some ('"', rest)
  | '\\' :: rest => some ('\\', rest)
  | 'u' :: rest => do
      let (code, rest) ← hexDigits 4 0 rest
      return (← charOf? code, rest)
  | 'U' :: rest => do
      let (code, rest) ← hexDigits 8 0 rest
      return (← charOf? code, rest)
  | _ => none

def isPlain (c : Char) : Bool := isCommentChar c

def basicString : (fuel : Nat) → List Char → Part String
  | 0, _, _ => none
  | _ + 1, found, '"' :: rest => some (String.ofList found.reverse, rest)
  | fuel + 1, found, '\\' :: rest => do
      let (c, rest) ← escape rest
      basicString fuel (c :: found) rest
  | fuel + 1, found, c :: rest => if isPlain c then basicString fuel (c :: found) rest else none
  | _, _, [] => none

def literalString : List Char → Part String
  | found, '\'' :: rest => some (String.ofList found.reverse, rest)
  | found, c :: rest => if isPlain c then literalString (c :: found) rest else none
  | _, [] => none

/-- The end of a string between tripled quotes: up to two more quotes belong to the string. -/
def tripleEnd? (quote : Char) (found : List Char) (cs : List Char) : Option (String × List Char) :=
  let quotes := (cs.takeWhile (· = quote)).length
  if quotes < 3 then none
  else
    let inner := min (quotes - 3) 2
    some (String.ofList (found.reverse ++ List.replicate inner quote), cs.drop (inner + 3))

def escapedLineEnd? (cs : List Char) : Option (List Char) := do
  let rest ← lineEnd? (skipSpaces cs)
  return skip rest.length rest
where
  skip : (fuel : Nat) → List Char → List Char
    | 0, cs => cs
    | fuel + 1, cs =>
        match lineEnd? (skipSpaces cs) with
        | some rest => skip fuel rest
        | none => skipSpaces cs

def basicLines : (fuel : Nat) → List Char → Part String
  | 0, _, _ => none
  | fuel + 1, found, cs =>
      match tripleEnd? '"' found cs with
      | some ended => some ended
      | none =>
          match lineEnd? cs with
          | some rest => basicLines fuel ('\n' :: found) rest
          | none =>
              match cs with
              | '\\' :: rest =>
                  match escapedLineEnd? rest with
                  | some rest => basicLines fuel found rest
                  | none => do
                      let (c, rest) ← escape rest
                      basicLines fuel (c :: found) rest
              | c :: rest => if isPlain c then basicLines fuel (c :: found) rest else none
              | [] => none

def literalLines : (fuel : Nat) → List Char → Part String
  | 0, _, _ => none
  | fuel + 1, found, cs =>
      match tripleEnd? '\'' found cs with
      | some ended => some ended
      | none =>
          match lineEnd? cs with
          | some rest => literalLines fuel ('\n' :: found) rest
          | none =>
              match cs with
              | c :: rest => if isPlain c then literalLines fuel (c :: found) rest else none
              | [] => none

def skipFirstLineEnd (cs : List Char) : List Char := (lineEnd? cs).getD cs

def string : Part String
  | '"' :: '"' :: '"' :: rest => basicLines (rest.length + 1) [] (skipFirstLineEnd rest)
  | '\'' :: '\'' :: '\'' :: rest => literalLines (rest.length + 1) [] (skipFirstLineEnd rest)
  | '"' :: rest => basicString (rest.length + 1) [] rest
  | '\'' :: rest => literalString [] rest
  | _ => none

def isBareKeyChar (c : Char) : Bool := isAlphanumeric c || c == '-' || c == '_'

def keySegment : Part String
  | '"' :: rest => basicString (rest.length + 1) [] rest
  | '\'' :: rest => literalString [] rest
  | cs =>
      let word := cs.takeWhile isBareKeyChar
      if word.isEmpty then none else some (String.ofList word, cs.drop word.length)

def keyPath : (fuel : Nat) → Part (List String)
  | 0, _ => none
  | fuel + 1, cs => do
      let (segment, rest) ← keySegment (skipSpaces cs)
      match skipSpaces rest with
      | '.' :: rest =>
          let (segments, rest) ← keyPath fuel rest
          return (segment :: segments, rest)
      | rest => return ([segment], rest)

/-- How deep arrays and tables may nest, and how many segments a key may have. -/
def nestingLimit : Nat := 80

def key (cs : List Char) : Option (List String × List Char) := do
  let (path, rest) ← keyPath (cs.length + 1) cs
  if path.length < nestingLimit then return (path, rest) else none

end Corpora.Toml
