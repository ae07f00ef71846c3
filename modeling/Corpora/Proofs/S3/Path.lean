import Corpora.Index.Name
import Corpora.Proofs.S3.Addressing

/-!
Paths are unambiguous. A path is spelled with slashes, unreserved characters and triples of a percent
sign and two digits. Cut at its first two slashes and decoded it gives the name of the bucket and the
key, whatever slashes the key has, so two addresses with names have the same path only if they are the
same.
-/

namespace Corpora.S3

open Text (splitAt splitFirst?)
open Text.Percent (decodeBytes encodeByte encodeBytes isUnreserved)

section Spelling

def isUnreservedChar (c : Char) : Bool :=
  Text.isAlphanumeric c || c == '-' || c == '_' || c == '.' || c == '~'

def isUpperHexDigit (c : Char) : Bool := Text.isDigit c || ('A' ≤ c && c ≤ 'F')

/-- Texts of slashes, unreserved characters and encoded bytes. -/
inductive Spelled : List Char → Prop where
  | done : Spelled []
  | slash {text : List Char} (later : Spelled text) : Spelled ('/' :: text)
  | unreserved {c : Char} {text : List Char} (char : isUnreservedChar c = true)
      (later : Spelled text) : Spelled (c :: text)
  | triple {high low : Char} {text : List Char}
      (digits : isUpperHexDigit high = true ∧ isUpperHexDigit low = true) (later : Spelled text) :
      Spelled ('%' :: high :: low :: text)

variable {text : List Char}

theorem isUpperHexDigit_digit {n : Nat} (small : n < 16) :
    isUpperHexDigit (Text.upperHexDigit n) = true := by
  revert n
  decide

theorem Spelled.encodeByte (b : UInt8) (later : Spelled text) :
    Spelled (encodeByte b ++ text) := by
  have small := b.toNat_lt
  by_cases plain : isUnreserved b = true
  · rw [Text.Percent.encodeByte, if_pos plain]
    exact .unreserved plain later
  · rw [Text.Percent.encodeByte, if_neg plain]
    exact .triple ⟨isUpperHexDigit_digit (by omega), isUpperHexDigit_digit (by omega)⟩ later

theorem Spelled.encodeBytes (bytes : Bytes) (later : Spelled text) :
    Spelled (encodeBytes bytes ++ text) := by
  induction bytes with
  | nil => exact later
  | cons b bytes ih =>
      rw [Text.Percent.encodeBytes, List.flatMap_cons, List.append_assoc]
      exact ih.encodeByte b

theorem Spelled.encodeChars (cs : List Char) (later : Spelled text) :
    Spelled (encodeChars cs ++ text) := by
  rw [encodeChars_eq, ← Text.Percent.encodeBytes_eq]
  exact later.encodeBytes _

theorem spelled_intercalate (segments : List (List Char)) :
    Spelled (['/'].intercalate (segments.map encodeChars)) := by
  induction segments with
  | nil => exact .done
  | cons segment segments ih =>
      cases segments with
      | nil => simpa using Spelled.done.encodeChars segment
      | cons next segments =>
          rw [List.map_cons, List.map_cons, List.intercalate_cons_cons, List.append_assoc]
          exact ih.slash.encodeChars segment

theorem Address.spelled (address : Address) : Spelled address.path.toList := by
  rw [Address.path_eq, String.toList_ofList]
  exact (spelled_intercalate address.segments).slash

end Spelling

section Reading

def cutAtSlashes : Nat → List Char → List (List Char)
  | 0, text => [text]
  | count + 1, text => match splitFirst? ['/'] text with
      | some (piece, rest) => piece :: cutAtSlashes count rest
      | none => [text]

def decoded (text : List Char) : Bytes := decodeBytes (Text.Utf8.encode (String.ofList text))

theorem cutAtSlashes_piece {piece : List Char} (whole : '/' ∉ piece) (count : Nat)
    (rest : List Char) :
    cutAtSlashes (count + 1) (piece ++ '/' :: rest) = piece :: cutAtSlashes count rest := by
  have found := @Text.splitFirst?_here _ _ '/' [] piece rest whole
  rw [List.singleton_append] at found
  rw [cutAtSlashes, found]

theorem cutAtSlashes_whole {text : List Char} (whole : '/' ∉ text) (count : Nat) :
    cutAtSlashes count text = [text] := by
  cases count with
  | zero => rfl
  | succ count =>
      have nowhere := (Text.passes_of_absent [] whole).absent (List.cons_ne_nil _ _)
      rw [cutAtSlashes, nowhere]

theorem decoded_intercalate (segments : List (List Char)) :
    decoded (['/'].intercalate (segments.map encodeChars)) =
      Text.Utf8.encode (String.ofList (['/'].intercalate segments)) := by
  rw [decoded, Text.Percent.encode_ascii (low_of_chars (intercalate_chars segments)),
    decodeBytes_intercalate]

namespace Address

/-- The bytes of what an address names: nothing, a bucket, or a bucket and a key. -/
def names : Address → List Bytes
  | service => [[]]
  | bucket name => [Text.Utf8.encode name]
  | object container key => [Text.Utf8.encode container, Text.Utf8.encode key]

theorem decoded_name (name : String) :
    decoded (encodeChars name.toList) = Text.Utf8.encode name := by
  have read := decoded_intercalate [name.toList]
  rwa [List.map_singleton, List.intercalate_singleton, List.intercalate_singleton,
    String.ofList_toList] at read

theorem cut_path (address : Address) :
    (cutAtSlashes 2 address.path.toList).map decoded = [] :: address.names := by
  have free (name : String) : '/' ∉ encodeChars name.toList :=
    Wire.Encoded.no_slash (Text.Percent.encode_chars _)
  have front (rest : List Char) : cutAtSlashes 2 ('/' :: rest) = [] :: cutAtSlashes 1 rest :=
    @cutAtSlashes_piece [] List.not_mem_nil 1 rest
  have nothing : decoded [] = [] := rfl
  rw [path_eq, String.toList_ofList, Wire.pathText, front, List.map_cons, nothing]
  cases address with
  | service => rfl
  | bucket name =>
      rw [segments, List.map_singleton, List.intercalate_singleton, cutAtSlashes_whole (free name),
        List.map_singleton, decoded_name]
      rfl
  | object container key =>
      have keyText := decoded_intercalate (splitAt '/' key.toList)
      rw [Text.intercalate_splitAt, String.ofList_toList] at keyText
      obtain ⟨piece, pieces, split⟩ := @Text.splitAt_cons '/' key.toList
      rw [split, List.map_cons] at keyText
      rw [segments, split, List.map_cons, List.map_cons, List.intercalate_cons_cons,
        List.append_assoc, List.singleton_append, cutAtSlashes_piece (free container),
        List.map_cons, decoded_name, cutAtSlashes, List.map_singleton, keyText]
      rfl

def named : Address → Bool
  | service => true
  | bucket name => Index.isValidName name
  | object container _ => Index.isValidName container

theorem encode_ne_nil {name : String} (valid : Index.isValidName name = true) :
    Text.Utf8.encode name ≠ [] := by
  intro empty
  have none : Text.Utf8.encode name = Text.Utf8.encode "" := empty
  rw [Text.Utf8.encode_inj.mp none] at valid
  exact absurd valid (by decide)

theorem eq_of_names {address other : Address} (valid : address.named = true)
    (validOther : other.named = true) (same : address.names = other.names) : address = other := by
  cases address with
  | service =>
      cases other with
      | service => rfl
      | bucket name => exact absurd (List.cons.inj same).1.symm (encode_ne_nil validOther)
      | object container key => cases congrArg List.length same
  | bucket name =>
      cases other with
      | service => exact absurd (List.cons.inj same).1 (encode_ne_nil valid)
      | bucket other => rw [Text.Utf8.encode_inj.mp (List.cons.inj same).1]
      | object container key => cases congrArg List.length same
  | object container key =>
      cases other with
      | service => cases congrArg List.length same
      | bucket name => cases congrArg List.length same
      | object other later =>
          obtain ⟨bucket, behind⟩ := List.cons.inj same
          rw [Text.Utf8.encode_inj.mp bucket, Text.Utf8.encode_inj.mp (List.cons.inj behind).1]

end Address

end Reading

/-- The path to an address is spelled with slashes, unreserved characters and encoded bytes. Cut at
its first two slashes and decoded, it gives the bucket and the bytes of the key, so no other address
has the same path. -/
theorem path_unambiguous {address : Address} (valid : address.named = true) :
    Spelled address.path.toList ∧
    (cutAtSlashes 2 address.path.toList).map decoded = [] :: address.names ∧
    ∀ other : Address, other.named = true → other.path = address.path → other = address := by
  refine ⟨address.spelled, address.cut_path, fun other validOther same => ?_⟩
  have read := other.cut_path
  rw [same, address.cut_path] at read
  exact (Address.eq_of_names valid validOther (List.cons.inj read).2).symm

/-- A key with an empty segment, a slash at its end, a percent sign and a character beyond ASCII. -/
def slashedNote : Address := .object "docs" "a//100%\u00E9/"

theorem slashed_path_unambiguous :
    slashedNote.named = true ∧ slashedNote.path = "/docs/a//100%25%C3%A9/" ∧
    Spelled "/docs/a//100%25%C3%A9/".toList ∧
    (cutAtSlashes 2 "/docs/a//100%25%C3%A9/".toList).map decoded = [] :: slashedNote.names ∧
    ∀ other : Address, other.named = true → other.path = "/docs/a//100%25%C3%A9/" →
      other = slashedNote := by
  have valid : slashedNote.named = true := by decide
  have path : slashedNote.path = "/docs/a//100%25%C3%A9/" := by decide
  have unambiguous := path_unambiguous valid
  rw [path] at unambiguous
  exact ⟨valid, path, unambiguous⟩

end Corpora.S3
