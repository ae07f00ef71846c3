import Corpora.Proofs.S3.Sending

/-!
What a request is about, as a store reads it off the path. A path is signed before its dots are
taken out. So a request is about what its call was meant for if there are no dots to take out, and
if the key is not empty, since the path to an empty key is the path to its bucket.
-/

namespace Corpora.S3

open Text (splitAt)
open Text.Percent (asciiBytes decode? decodeBytes)
open Wire (Authority Sent pathText)

section Decoding

theorem encode_joined (piece rest : List Char) :
    Text.Utf8.encode (String.ofList (piece ++ ['/'] ++ rest)) =
      Text.Utf8.encode (String.ofList piece) ++ 0x2F :: Text.Utf8.encode (String.ofList rest) := by
  have slash : String.utf8EncodeChar '/' = [0x2F] := by decide
  rw [Text.Utf8.encode_ofList, Text.Utf8.encode_ofList, Text.Utf8.encode_ofList,
    List.flatMap_append, List.flatMap_append, List.flatMap_singleton, slash, List.append_assoc,
    List.singleton_append]

theorem asciiBytes_joined (piece rest : List Char) :
    asciiBytes (piece ++ ['/'] ++ rest) = asciiBytes piece ++ 0x2F :: asciiBytes rest := by
  simp [asciiBytes]

theorem decodeBytes_intercalate (segments : List (List Char)) :
    decodeBytes (asciiBytes (['/'].intercalate (segments.map encodeChars))) =
      Text.Utf8.encode (String.ofList (['/'].intercalate segments)) := by
  induction segments with
  | nil => rfl
  | cons segment segments ih =>
      cases segments with
      | nil =>
          have read := Text.Percent.decodeBytes_encode (String.ofList segment)
          rw [Text.Percent.encode_encode] at read
          simpa [encodeChars] using read
      | cons next segments =>
          rw [List.map_cons] at ih
          rw [List.map_cons, List.map_cons, List.intercalate_cons_cons, asciiBytes_joined,
            encodeChars, Text.Percent.decodeBytes_encode_append,
            Text.Percent.decodeBytes_cons (by decide), ih, List.intercalate_cons_cons,
            encode_joined]

theorem decodeBytes_pathText (segments : List (List Char)) :
    decodeBytes (asciiBytes (pathText (segments.map encodeChars))) =
      Text.Utf8.encode (String.ofList (pathText segments)) := by
  have front := encode_joined [] (['/'].intercalate segments)
  have text : asciiBytes (pathText (segments.map encodeChars)) =
      0x2F :: asciiBytes (['/'].intercalate (segments.map encodeChars)) := rfl
  rw [text, Text.Percent.decodeBytes_cons (by decide), decodeBytes_intercalate]
  exact front.symm

theorem low_of_chars {shown : List Char}
    (chars : ∀ c ∈ shown, c = '/' ∨ Text.Percent.isEncodedChar c = true) :
    ∀ c ∈ shown, c.toNat < 0x80 := by
  intro c member
  rcases chars c member with rfl | encoded
  · decide
  · have bounds := Text.Percent.isEncodedChar_bounds encoded
    omega

theorem intercalate_chars (segments : List (List Char)) :
    ∀ c ∈ ['/'].intercalate (segments.map encodeChars),
      c = '/' ∨ Text.Percent.isEncodedChar c = true := by
  intro c member
  rcases Wire.mem_intercalate member with same | ⟨piece, among, inside⟩
  · exact Or.inl same
  · obtain ⟨segment, _, rfl⟩ := List.mem_map.mp among
    exact Or.inr (Text.Percent.encode_chars _ c inside)

theorem decode?_ofList {shown plain : List Char}
    (chars : ∀ c ∈ shown, c = '/' ∨ Text.Percent.isEncodedChar c = true)
    (bytes : decodeBytes (asciiBytes shown) = Text.Utf8.encode (String.ofList plain)) :
    decode? (String.ofList shown) = some (String.ofList plain) := by
  rw [decode?, Text.Percent.encode_ascii (low_of_chars chars), bytes, Text.Utf8.decode?_encode]

theorem decode?_intercalate (segments : List (List Char)) :
    decode? (String.ofList (['/'].intercalate (segments.map encodeChars))) =
      some (String.ofList (['/'].intercalate segments)) :=
  decode?_ofList (intercalate_chars segments) (decodeBytes_intercalate segments)

end Decoding

namespace Address

section Reading

/-- The address of a key in a bucket; without a key it is the bucket's, without a name for that
the service's. -/
def within (name key : String) : Address :=
  if key.isEmpty then (if name.isEmpty then .service else .bucket name) else .object name key

def ofSegments? : List (List Char) → Option Address
  | [] => none
  | name :: rest => do
      let name ← decode? (String.ofList name)
      let key ← decode? (String.ofList (['/'].intercalate rest))
      return within name key

def ofPath? (path : String) : Option Address := ofSegments? (splitAt '/' path.toList).tail

def text : Address → String
  | service => "/"
  | bucket name => "/" ++ name
  | object container key => "/" ++ container ++ "/" ++ key

/-- Neither the name of the bucket nor the key that an address points at is empty. -/
def Filled : Address → Prop
  | service => True
  | bucket name => name ≠ ""
  | object _ key => key ≠ ""

theorem text_eq (address : Address) : address.text = String.ofList (pathText address.segments) := by
  apply String.toList_inj.mp
  cases address with
  | service => rfl
  | bucket name => simp [text, segments, pathText]
  | object container key =>
      obtain ⟨piece, pieces, split⟩ := @Text.splitAt_cons '/' key.toList
      have key := @Text.intercalate_splitAt '/' key.toList
      rw [split] at key
      simp [text, segments, pathText, split, List.intercalate_cons_cons, key]

theorem decode?_path (address : Address) : decode? address.path = some address.text := by
  rw [path_eq, text_eq]
  exact decode?_ofList (Wire.pathText_chars address.encoded)
    (decodeBytes_pathText address.segments)

theorem ofPath?_path_cons {address : Address} {name : List Char} {rest : List (List Char)}
    (shape : address.segments = name :: rest) :
    ofPath? address.path =
      some (within (String.ofList name) (String.ofList (['/'].intercalate rest))) := by
  have free : ∀ segment ∈ address.segments.map encodeChars, '/' ∉ segment :=
    fun segment member => (address.encoded segment member).no_slash
  have first := decode?_intercalate [name]
  rw [List.map_singleton, List.intercalate_singleton, List.intercalate_singleton] at first
  rw [ofPath?, path_eq, String.toList_ofList,
    Wire.splitAt_pathText address.segments_ne_nil free, List.tail_cons, shape, List.map_cons,
    ofSegments?]
  simp only [first, decode?_intercalate, Option.bind_eq_bind, Option.bind_some]
  rfl

theorem ofPath?_path_iff {address : Address} :
    ofPath? address.path = some address ↔ address.Filled := by
  cases address with
  | service =>
      rw [ofPath?_path_cons rfl]
      exact iff_of_true rfl trivial
  | bucket name =>
      rw [ofPath?_path_cons rfl, Option.some_inj, String.ofList_toList]
      by_cases empty : name = ""
      · subst empty
        simp [within, Filled]
      · simp [within, Filled, empty]
  | object container key =>
      rw [ofPath?_path_cons rfl, Option.some_inj, Text.intercalate_splitAt, String.ofList_toList,
        String.ofList_toList]
      by_cases empty : key = ""
      · subst empty
        by_cases unnamed : container = "" <;> simp [within, Filled, unnamed]
      · simp [within, Filled, empty]

end Reading

end Address

section Reaching

/-- A request is about what its call was meant for: its path is the one that was signed, it is
decoded to the bucket and the key, and it points at them. -/
structure Client.Reaches (client : Client) (now : Time.Instant) (call : Call) (request : Sent) :
    Prop where
  signed : request.url.path = (client.signed now call).path
  decoded : decode? request.url.path = some call.address.text
  found : Address.ofPath? request.url.path = some call.address

variable {scheme : String} {authority : Authority scheme} {client : Client} {now : Time.Instant}
  {call : Call} {request : Sent}

theorem request?_able (now : Time.Instant) (here : client.At scheme authority)
    (able : client.able = true) :
    client.request? now call = if call.contentType.all Http.isHeaderValue then
      some (client.departed now call authority) else none := by
  rw [request?_departed here now, headers_able now call, able, Bool.true_and]

theorem request?_bare (now : Time.Instant) (here : client.At scheme authority)
    (able : client.able = true) (bare : call.contentType = none) :
    client.request? now call = some (client.departed now call authority) := by
  rw [request?_able now here able, bare]
  rfl

theorem path_of_sent (here : client.At scheme authority)
    (sent : client.request? now call = some request) : request.url.path = call.address.sentPath := by
  rw [request?_departed here now, Option.ite_none_right_eq_some, Option.some_inj] at sent
  rw [← sent.2]
  rfl

/-- What is sent reaches its address exactly if that has no dots and is filled. -/
theorem reaches_iff (here : client.At scheme authority)
    (sent : client.request? now call = some request) :
    client.Reaches now call request ↔ call.address.Undotted ∧ call.address.Filled := by
  have path := path_of_sent here sent
  constructor
  · intro reaches
    have whole : call.address.sentPath = call.address.path := path ▸ reaches.signed
    refine ⟨Address.sentPath_eq_iff.mp whole, Address.ofPath?_path_iff.mp ?_⟩
    rw [← whole, ← path]
    exact reaches.found
  · rintro ⟨undotted, filled⟩
    rw [Address.sentPath_eq_iff.mpr undotted] at path
    constructor
    · exact path
    · rw [path]
      exact call.address.decode?_path
    · rw [path]
      exact Address.ofPath?_path_iff.mpr filled

end Reaching

end Corpora.S3
