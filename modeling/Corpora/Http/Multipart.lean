import Corpora.Http.MediaType
import Corpora.Text.Blank

/-!
Multipart forms: parts between boundaries, each with headers of its own. `Form.next` reads one
part off the front, so that what follows the part that is asked for is never looked at; `Form.body`
writes the body that holds given parts.
-/

namespace Corpora.Http

structure Part where
  name : Option String
  filename : Option String
  contentType : Option String
  data : Bytes
  deriving Repr, DecidableEq

namespace Form

def lineEnd : Bytes := [0x0D, 0x0A]

def dashes : Bytes := [0x2D, 0x2D]

def boundary? (contentType : String) : Option String := do
  let type_ ← MediaType.ofHeader? contentType
  if type_.kind == "multipart" && type_.subtype == "form-data" then
    type_.parameter? "boundary"
  else none

def isHeaderNameByte (b : UInt8) : Bool :=
  let c := Char.ofNat b.toNat
  Text.isAlphanumeric c || "!#$%&'*+-.^_\x60|~".toList.contains c

def isValueByte (b : UInt8) : Bool := (b ≥ 0x20 && b != 0x7F) || b == 0x09

def isGap (b : UInt8) : Bool := b == 0x20 || b == 0x09

def trimGaps (bytes : Bytes) : Bytes :=
  ((bytes.dropWhile isGap).reverse.dropWhile isGap).reverse

def line (bytes : Bytes) : Bytes × Bytes :=
  let content := bytes.takeWhile (· != 0x0A)
  let rest := bytes.drop (content.length + 1)
  (if content.getLast? == some 0x0D then content.dropLast else content, rest)

def headerOf? (content : Bytes) : Option (String × Bytes) :=
  let name := content.takeWhile isHeaderNameByte
  match name.isEmpty, content.drop name.length with
  | false, 0x3A :: value =>
      if value.all isValueByte then
        some (Text.lower (String.ofList (name.map fun b => Char.ofNat b.toNat)), trimGaps value)
      else none
  | _, _ => none

def mostHeaders : Nat := 32

def headers? : (room : Nat) → Bytes → Option (List (String × Bytes))
  | room, bytes =>
      match line bytes with
      | ([], _) => some []
      | (content, rest) =>
          match room with
          | 0 => none
          | room + 1 => do
              let found ← headerOf? content
              let more ← headers? room rest
              return found :: more

def lastHeader? (headers : List (String × Bytes)) (name : String) : Option Bytes :=
  (headers.reverse.find? fun header => header.1 == name).map Prod.snd

/-- A value between quotes, up to the first quote without a backslash in front of it. -/
def quoted? : Bytes → Option Bytes
  | [] => none
  | 0x5C :: b :: rest => (quoted? rest).map fun value => 0x5C :: b :: value
  | b :: rest => if b == 0x22 then some [] else (quoted? rest).map (b :: ·)

/-- The value of a parameter that starts the text or follows a blank or semicolon. -/
def attribute? (start : Bytes) : (before : Option UInt8) → Bytes → Option Bytes
  | _, [] => none
  | before, b :: rest =>
      let separated := match before with
        | none => true
        | some c => c == 0x3B || c == 0x20 || (0x09 ≤ c && c ≤ 0x0D && c != 0x0B)
      match if separated then Text.stripStart? start (b :: rest) else none with
      | some (0x22 :: value) => quoted? value
      | some value => some (value.takeWhile (· != 0x3B))
      | none => attribute? start (some b) rest

def dispositionText? (headers : List (String × Bytes)) (start : String) : Option String := do
  let value ← lastHeader? headers "content-disposition"
  Text.Utf8.decode? (← attribute? (Text.Utf8.encode start) none value)

def partOf (headers : List (String × Bytes)) (data : Bytes) : Part where
  name := dispositionText? headers "name="
  filename := dispositionText? headers "filename="
  contentType := do
    let value ← Text.Utf8.decode? (← lastHeader? headers "content-type")
    return (← MediaType.ofHeader? value).text
  data := data

inductive Found where
  | part (part : Part) (rest : Bytes)
  | finished
  | malformed

def next (boundary : Bytes) (bytes : Bytes) : Found :=
  match Text.stripStart? (dashes ++ boundary) bytes with
  | none => .malformed
  | some behind =>
      if behind.take 2 == dashes then .finished
      else match Text.stripStart? lineEnd (behind.dropWhile isGap) with
        | none => .malformed
        | some head =>
            match Text.splitFirst? (lineEnd ++ lineEnd) head with
            | none => .malformed
            | some (block, content) =>
                match headers? mostHeaders (block ++ lineEnd ++ lineEnd) with
                | none => .malformed
                | some headers =>
                    match Text.splitFirst? (lineEnd ++ dashes ++ boundary) content with
                    | none => .malformed
                    | some (data, rest) => .part (partOf headers data) (dashes ++ boundary ++ rest)

theorem length_next {boundary bytes rest : Bytes} {part : Part}
    (found : next boundary bytes = .part part rest) : rest.length < bytes.length := by
  simp only [next] at found
  split at found
  · simp at found
  · next behind opened =>
    split at found
    · simp at found
    · split at found
      · simp at found
      · next head started =>
        split at found
        · simp at found
        · next block content divided =>
          split at found
          · simp at found
          · split at found
            · simp at found
            · next data later closed =>
              simp only [Found.part.injEq] at found
              obtain ⟨-, rfl⟩ := found
              have whole := congrArg List.length (Text.stripStart?_eq_some.mp opened)
              have gap := (List.dropWhile_suffix (l := behind) isGap).length_le
              have inner := congrArg List.length (Text.stripStart?_eq_some.mp started)
              have headed := congrArg List.length (Text.splitFirst?_eq divided)
              have ended := congrArg List.length (Text.splitFirst?_eq closed)
              simp only [List.length_append, lineEnd, dashes, List.length_cons,
                List.length_nil] at whole inner headed ended ⊢
              omega

def firstNamed (boundary : Bytes) (name : String) (bytes : Bytes) :
    Except Unit (Option Part) :=
  match _found : next boundary bytes with
  | .malformed => .error ()
  | .finished => .ok none
  | .part part rest =>
      if part.name == some name then .ok (some part) else firstNamed boundary name rest
  termination_by bytes.length
  decreasing_by exact length_next _found

/-- The first part of a name in a body; what stands before the first boundary is passed over. -/
def find (boundary : String) (name : String) (body : Bytes) : Except Unit (Option Part) :=
  let boundary := Text.Utf8.encode boundary
  match Text.splitFirst? (dashes ++ boundary) body with
  | none => .error ()
  | some (_, rest) => firstNamed boundary name (dashes ++ boundary ++ rest)

def headerText (part : Part) : String :=
  "Content-Disposition: form-data" ++
    (match part.name with
      | some name => "; name=\"" ++ name ++ "\""
      | none => "") ++
    (match part.filename with
      | some filename => "; filename=\"" ++ filename ++ "\""
      | none => "") ++ "\r\n" ++
    (match part.contentType with
      | some type_ => "Content-Type: " ++ type_ ++ "\r\n"
      | none => "") ++ "\r\n"

def body (boundary : String) (parts : List Part) : Bytes :=
  let mark := dashes ++ Text.Utf8.encode boundary
  (parts.flatMap fun part =>
    mark ++ lineEnd ++ Text.Utf8.encode (headerText part) ++ part.data ++ lineEnd) ++
    mark ++ dashes ++ lineEnd

end Form
end Corpora.Http
