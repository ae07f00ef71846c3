import Corpora.Json.Reader

/-!
Readers of typed JSON. A value of another type than the expected one is a mismatch, unless its
text is malformed where the reader has to look at it. A record may be written as an object, with
unknown keys passed over, or as an array of its fields in order.
-/

namespace Corpora.Json.Decoder

/-- The fault of meeting a value of another type. A scalar is read before it is refused; an array
or object is refused at its bracket. -/
def mismatch (bytes : Bytes) : Fault :=
  match skipBlanks bytes with
  | [] => .malformed
  | b :: rest =>
      let after {α : Type} : Except Fault α → Fault
        | .ok _ => .mismatched
        | .error fault => fault
      if b == ascii 'n' then after (expectWord "ull" rest)
      else if b == ascii 't' then after (expectWord "rue" rest)
      else if b == ascii 'f' then after (expectWord "alse" rest)
      else if b == ascii '"' then after (stringBody rest)
      else if b == ascii '-' || isDigitByte b then after (numeral (b :: rest))
      else if b == ascii '[' || b == ascii '{' then .mismatched
      else .malformed

def text : Decoder String := fun _ bytes =>
  match skipBlanks bytes with
  | b :: rest => if b == ascii '"' then stringBody rest else .error (mismatch bytes)
  | [] => .error .malformed

def parsed (read : String → Option α) : Decoder α := fun depth bytes => do
  let (found, rest) ← text depth bytes
  match read found with
  | some value => return (value, rest)
  | none => throw .mismatched

def anyNumeral : Decoder Numeral := fun _ bytes =>
  match skipBlanks bytes with
  | b :: rest =>
      if b == ascii '-' || isDigitByte b then numeral (b :: rest)
      else .error (mismatch bytes)
  | [] => .error .malformed

def signed : Decoder Int := fun depth bytes => do
  match ← anyNumeral depth bytes with
  | (.whole n, rest) =>
      if Number.fitsSigned64 n then return (n, rest) else throw .mismatched
  | (.real _, _) => throw .mismatched

def float : Decoder Float := fun depth bytes => do
  match ← anyNumeral depth bytes with
  | (.whole n, rest) => return (Float.ofInt n, rest)
  | (.real x, rest) => return (x, rest)

def nullable (inner : Decoder α) : Decoder (Option α) := fun depth bytes =>
  match skipBlanks bytes with
  | b :: rest =>
      if b == ascii 'n' then (expectWord "ull" rest).map (none, ·)
      else (inner depth bytes).map fun (value, rest) => (some value, rest)
  | [] => .error .malformed

def list (inner : Decoder α) : Decoder (List α) := fun depth bytes =>
  match skipBlanks bytes with
  | [] => .error .malformed
  | b :: rest =>
      if b == ascii '[' then
        match depth with
        | 0 => .error .malformed
        | depth + 1 => arrayItems (inner depth) (rest.length + 1) true [] rest
      else .error (mismatch bytes)

def nothing : Decoder Unit := fun _ bytes =>
  match skipBlanks bytes with
  | b :: rest =>
      if b == ascii 'n' then (expectWord "ull" rest).map ((), ·) else .error (mismatch bytes)
  | [] => .error .malformed

/-- One of several named values: its name, or an object of its name and `null`. -/
def variant (named : String → Option α) : Decoder α := fun depth bytes =>
  match skipBlanks bytes with
  | [] => .error .malformed
  | b :: rest =>
      if b == ascii '"' then parsed named depth bytes
      else if b == ascii '{' then
        match depth with
        | 0 => .error .malformed
        | depth + 1 => do
            let (value, rest) ← parsed named depth rest
            let (_, rest) ← nothing depth (← expectColon rest)
            return (value, ← expect (ascii '}') (skipBlanks rest))
      else .error .malformed

/-- A field of a record that is read into a state `σ`. A `required` field may not be missing from
a record that is written as an array. -/
structure RecordField (σ : Type) where
  name : String
  filled : σ → Bool
  read : σ → Decoder σ
  required : Bool

def field (name : String) (get : σ → Option α) (put : α → σ → σ) (inner : Decoder α)
    (required : Bool) : RecordField σ where
  name := name
  filled state := (get state).isSome
  read state depth bytes := (inner depth bytes).map fun (value, rest) => (put value state, rest)
  required := required

/-- One member of a record: a second value for a field is a mismatch, and a member without a
field is passed over. -/
def recordMember (fields : List (RecordField σ)) (depth : Nat) (state : σ) (key : String)
    (bytes : Bytes) : Except Fault (σ × Bytes) := do
  match fields.find? (·.name == key) with
  | some field =>
      if field.filled state then throw .mismatched
      field.read state depth (← expectColon bytes)
  | none => return (state, ← skipValue (← expectColon bytes))

def recordItems (depth : Nat) : List (RecordField σ) → Bool → σ → Bytes → Except Fault (σ × Bytes)
  | [], _, state, bytes => return (state, ← expect (ascii ']') (skipBlanks bytes))
  | field :: fields, first, state, bytes =>
      match skipBlanks bytes with
      | [] => .error .malformed
      | b :: rest =>
          if b == ascii ']' then
            if field.required then .error .mismatched
            else recordItems depth fields first state (b :: rest)
          else do
            let item ← if first then pure (b :: rest)
              else if b == ascii ',' then
                if (skipBlanks rest).head? == some (ascii ']') then throw .malformed
                else pure rest
              else throw .malformed
            let (state, rest) ← field.read state depth item
            recordItems depth fields false state rest

/-- A record, from its fields and the state before any of them is read; `finish` refuses a state
in which a field is missing. -/
def record (fields : List (RecordField σ)) (start : σ) (finish : σ → Option α) : Decoder α :=
  fun depth bytes =>
    match skipBlanks bytes with
    | [] => .error .malformed
    | b :: rest =>
        let finished : σ × Bytes → Except Fault (α × Bytes) := fun (state, rest) =>
          match finish state with
          | some found => .ok (found, rest)
          | none => .error .mismatched
        match depth with
        | 0 => .error (if b == ascii '{' || b == ascii '[' then .malformed else mismatch bytes)
        | depth + 1 =>
            if b == ascii '{' then
              objectMembers (recordMember fields depth) (rest.length + 1) true start rest
                >>= finished
            else if b == ascii '[' then recordItems depth fields true start rest >>= finished
            else .error (mismatch bytes)

end Corpora.Json.Decoder
