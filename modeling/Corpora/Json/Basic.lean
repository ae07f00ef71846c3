import Corpora.Number.Text

/-!
JSON values. An object keeps its members in the order in which it is written; `Json.ofMembers`
builds the form that reading gives, with sorted keys and the last of equal keys.
-/

namespace Corpora

/-- A JSON number: a whole number of a signed or unsigned integer of 64 bits, or another one. -/
inductive Numeral where
  | whole (n : Int)
  | real (x : Float)
  deriving DecidableEq

inductive Json where
  | null
  | bool (value : Bool)
  | number (value : Numeral)
  | string (value : String)
  | array (items : List Json)
  | object (members : List (String × Json))

namespace Json

def nat (n : Nat) : Json := .number (.whole n)

def int (n : Int) : Json := .number (.whole n)

def real (x : Float) : Json := .number (.real x)

def insertMember (key : String) (value : Json) :
    List (String × Json) → List (String × Json)
  | [] => [(key, value)]
  | (other, held) :: rest =>
      if key < other then (key, value) :: (other, held) :: rest
      else if key = other then (key, value) :: rest
      else (other, held) :: insertMember key value rest

/-- The object with these members, sorted by key; of equal keys the last one counts. -/
def ofMembers (members : List (String × Json)) : Json :=
  .object (members.foldl (fun sorted (key, value) => insertMember key value sorted) [])

def get? (key : String) : Json → Option Json
  | .object members => members.lookup key
  | _ => none

def string? : Json → Option String
  | .string value => some value
  | _ => none

def array? : Json → Option (List Json)
  | .array items => some items
  | _ => none

def isNull : Json → Bool
  | .null => true
  | _ => false

def float? : Json → Option Float
  | .number (.whole n) => some (Float.ofInt n)
  | .number (.real x) => some x
  | _ => none

def unsigned? : Json → Option Nat
  | .number (.whole n) => if 0 ≤ n then some n.toNat else none
  | _ => none

end Json
end Corpora
