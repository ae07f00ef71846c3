import Corpora.Json.Basic
import Corpora.Text.Hex

/-!
Writing JSON: a compact form without blanks and a form indented by two spaces. In strings the
quote, the backslash and the control characters are escaped, and nothing else is.
-/

namespace Corpora.Json

open Text (hexDigit)

def escapeChar (c : Char) : List Char :=
  if c = '"' then ['\\', '"']
  else if c = '\\' then ['\\', '\\']
  else if c.toNat = 0x08 then ['\\', 'b']
  else if c.toNat = 0x0C then ['\\', 'f']
  else if c = '\n' then ['\\', 'n']
  else if c = '\r' then ['\\', 'r']
  else if c = '\t' then ['\\', 't']
  else if c.toNat < 0x20 then
    ['\\', 'u', '0', '0', hexDigit (c.toNat / 16), hexDigit (c.toNat % 16)]
  else [c]

def quote (text : String) : List Char := '"' :: (text.toList.flatMap escapeChar ++ ['"'])

/-- A number; what is not finite is written as `null`. -/
def numeralText : Numeral → List Char
  | .whole n => (Number.ofInt n).toList
  | .real x => ((Number.jsonText? x.toBits.toNat).getD "null").toList

mutual

def compact : Json → List Char
  | .null => "null".toList
  | .bool value => (if value then "true" else "false").toList
  | .number value => numeralText value
  | .string value => quote value
  | .array items => '[' :: (compactItems items ++ [']'])
  | .object members => '{' :: (compactMembers members ++ ['}'])

def compactItems : List Json → List Char
  | [] => []
  | [item] => compact item
  | item :: rest => compact item ++ ',' :: compactItems rest

def compactMembers : List (String × Json) → List Char
  | [] => []
  | [(key, value)] => quote key ++ ':' :: compact value
  | (key, value) :: rest => quote key ++ ':' :: (compact value ++ ',' :: compactMembers rest)

end

def compactText (value : Json) : String := String.ofList (compact value)

def newLine (depth : Nat) : List Char := '\n' :: List.replicate (2 * depth) ' '

mutual

def pretty (depth : Nat) : Json → List Char
  | .null => "null".toList
  | .bool value => (if value then "true" else "false").toList
  | .number value => numeralText value
  | .string value => quote value
  | .array [] => "[]".toList
  | .array items => '[' :: (prettyItems (depth + 1) items ++ newLine depth ++ [']'])
  | .object [] => ['{', '}']
  | .object members => '{' :: (prettyMembers (depth + 1) members ++ newLine depth ++ ['}'])

def prettyItems (depth : Nat) : List Json → List Char
  | [] => []
  | [item] => newLine depth ++ pretty depth item
  | item :: rest => newLine depth ++ pretty depth item ++ ',' :: prettyItems depth rest

def prettyMembers (depth : Nat) : List (String × Json) → List Char
  | [] => []
  | [(key, value)] => newLine depth ++ quote key ++ ':' :: ' ' :: pretty depth value
  | (key, value) :: rest =>
      newLine depth ++ quote key ++ ':' :: ' ' :: (pretty depth value ++
        ',' :: prettyMembers depth rest)

end

def prettyText (value : Json) : String := String.ofList (pretty 0 value)

end Corpora.Json
