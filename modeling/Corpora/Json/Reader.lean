import Corpora.Json.Scanner

/-!
Reading JSON values. Values nest at most `deepest` levels; a value that is passed over
unread may nest deeper, and neither its numbers nor its strings are looked into.
-/

namespace Corpora.Json

def deepest : Nat := 127

abbrev Decoder (α : Type) := Nat → Bytes → Except Fault (α × Bytes)

def arrayItems (item : Bytes → Except Fault (α × Bytes)) :
    (fuel : Nat) → Bool → List α → Bytes → Except Fault (List α × Bytes)
  | 0, _, _, _ => .error .malformed
  | fuel + 1, first, found, bytes =>
      match skipBlanks bytes with
      | [] => .error .malformed
      | b :: rest =>
          if b == ascii ']' then
            .ok (found.reverse, rest)
          else if first then do
            let (value, rest) ← item (b :: rest)
            arrayItems item fuel false (value :: found) rest
          else if b == ascii ',' then
            if (skipBlanks rest).head? == some (ascii ']') then .error .malformed
            else do
              let (value, rest) ← item rest
              arrayItems item fuel false (value :: found) rest
          else .error .malformed

def nextKey (first : Bool) (bytes : Bytes) : Except Fault (Option String × Bytes) :=
  let key (bytes : Bytes) : Except Fault (Option String × Bytes) := do
    let (name, rest) ← stringBody (← expect (ascii '"') (skipBlanks bytes))
    return (some name, rest)
  match skipBlanks bytes with
  | [] => .error .malformed
  | b :: rest =>
      if b == ascii '}' then .ok (none, rest)
      else if first then key (b :: rest)
      else if b == ascii ',' then key rest
      else .error .malformed

def expectColon (bytes : Bytes) : Except Fault Bytes := expect (ascii ':') (skipBlanks bytes)

def objectMembers (member : σ → String → Bytes → Except Fault (σ × Bytes)) :
    (fuel : Nat) → Bool → σ → Bytes → Except Fault (σ × Bytes)
  | 0, _, _, _ => .error .malformed
  | fuel + 1, first, state, bytes => do
      match ← nextKey first bytes with
      | (none, rest) => return (state, rest)
      | (some key, rest) =>
          let (state, rest) ← member state key rest
          objectMembers member fuel false state rest

/-- A value of any type; of equal keys in an object the last one counts. -/
def value : Decoder Json
  | depth, bytes =>
      match skipBlanks bytes with
      | [] => .error .malformed
      | b :: rest =>
          if b == ascii 'n' then (expectWord "ull" rest).map (Json.null, ·)
          else if b == ascii 't' then (expectWord "rue" rest).map (Json.bool true, ·)
          else if b == ascii 'f' then (expectWord "alse" rest).map (Json.bool false, ·)
          else if b == ascii '"' then (stringBody rest).map fun (s, rest) => (.string s, rest)
          else if b == ascii '-' || isDigitByte b then
            (numeral (b :: rest)).map fun (n, rest) => (.number n, rest)
          else match depth with
            | 0 => .error .malformed
            | depth + 1 =>
                if b == ascii '[' then
                  (arrayItems (value depth) (rest.length + 1) true [] rest).map
                    fun (items, rest) => (.array items, rest)
                else if b == ascii '{' then
                  let member (sorted : List (String × Json)) (key : String) (bytes : Bytes) :
                      Except Fault (List (String × Json) × Bytes) := do
                    let (held, rest) ← value depth (← expectColon bytes)
                    return (insertMember key held sorted, rest)
                  (objectMembers member (rest.length + 1) true [] rest).map
                    fun (members, rest) => (.object members, rest)
                else .error .malformed

inductive Passing where
  | before
  | behind
  | opened

/-- Passes over one value; `closers` are the brackets that close what is open. -/
def skipLoop : (fuel : Nat) → Passing → List UInt8 → Bytes → Except Fault Bytes
  | 0, _, _, _ => .error .malformed
  | fuel + 1, place, closers, bytes =>
      let keyed (closers : List UInt8) (bytes : Bytes) : Except Fault Bytes := do
        if closers.head? == some (ascii '}') then
          expectColon (← skipString (← expect (ascii '"') (skipBlanks bytes)))
        else return bytes
      match place with
      | .behind =>
          match closers with
          | [] => .ok bytes
          | closer :: outer =>
              match skipBlanks bytes with
              | [] => .error .malformed
              | b :: rest =>
                  if b == closer then skipLoop fuel .behind outer rest
                  else if b == ascii ',' then do
                    skipLoop fuel .before closers (← keyed closers rest)
                  else .error .malformed
      | .opened =>
          match skipBlanks bytes with
          | [] => .error .malformed
          | b :: rest =>
              if closers.head? == some b then skipLoop fuel .behind closers.tail rest
              else do skipLoop fuel .before closers (← keyed closers (b :: rest))
      | .before =>
          match skipBlanks bytes with
          | [] => .error .malformed
          | b :: rest =>
              if b == ascii '[' then skipLoop fuel .opened (ascii ']' :: closers) rest
              else if b == ascii '{' then skipLoop fuel .opened (ascii '}' :: closers) rest
              else do
                let rest ←
                  if b == ascii 'n' then expectWord "ull" rest
                  else if b == ascii 't' then expectWord "rue" rest
                  else if b == ascii 'f' then expectWord "alse" rest
                  else if b == ascii '"' then skipString rest
                  else if b == ascii '-' || isDigitByte b then
                    (numeralParts (b :: rest)).map (·.2)
                  else .error .malformed
                skipLoop fuel .behind closers rest

def skipValue (bytes : Bytes) : Except Fault Bytes :=
  skipLoop (2 * bytes.length + 2) .before [] bytes

def decode (decoder : Decoder α) (bytes : Bytes) : Except Fault α := do
  let (found, rest) ← decoder deepest bytes
  if (skipBlanks rest).isEmpty then return found else throw .malformed

def parse? (bytes : Bytes) : Option Json := (decode value bytes).toOption

end Corpora.Json
