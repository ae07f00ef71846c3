import Corpora.Json.Reader
import Corpora.Json.Writer
import Corpora.Proofs.Text.Encoding

/-!
A quoted text reads back as itself, whatever characters it holds and whatever follows it. Each
character goes through its escaped form alone, so the reader follows the writer by characters.
-/

namespace Corpora.Json

open Text (hexDigit)
open Text.Utf8 (encode encode_eq_flatMap encodeChar_ascii encodeChar_high flatMap_ascii)

def IsPlain (b : UInt8) : Prop := b ≠ ascii '"' ∧ b ≠ ascii '\\' ∧ 0x20 ≤ b.toNat

theorem stringBytes_plain (bytes rest found : Bytes) (plain : ∀ b ∈ bytes, IsPlain b) :
    stringBytes (bytes ++ rest) found = stringBytes rest (bytes.reverse ++ found) := by
  induction bytes generalizing found with
  | nil => rfl
  | cons b bytes ih =>
      rcases plain b List.mem_cons_self with ⟨noQuote, noBackslash, large⟩
      have printable : ¬ b < 0x20 := by
        rw [UInt8.lt_iff_toNat_lt]
        exact Nat.not_lt.mpr large
      have tail := ih (b :: found) fun other member => plain other (List.mem_cons_of_mem b member)
      rw [List.cons_append, stringBytes.eq_def]
      simp [noQuote, noBackslash, printable, tail]

theorem plain_encodeChar (c : Char) (noQuote : c ≠ '"') (noBackslash : c ≠ '\\')
    (printable : 0x20 ≤ c.toNat) : ∀ b ∈ String.utf8EncodeChar c, IsPlain b := by
  intro b member
  by_cases low : c.toNat < 0x80
  · rw [encodeChar_ascii c low, List.mem_singleton] at member
    subst member
    have code : (UInt8.ofNat c.toNat).toNat = c.toNat := by simp; omega
    refine ⟨?_, ?_, by omega⟩
    · intro same
      have := congrArg UInt8.toNat same
      rw [code] at this
      exact noQuote (Char.toNat_inj.mp this)
    · intro same
      have := congrArg UInt8.toNat same
      rw [code] at this
      exact noBackslash (Char.toNat_inj.mp this)
  · have high := encodeChar_high c (by omega) b member
    refine ⟨?_, ?_, by omega⟩ <;>
    · intro same
      subst same
      revert high
      decide

-- The four hexadecimal digits of a control character start with two zeros.
theorem hexUnit_control :
    ∀ n < 0x20, hexUnit? (ascii '0') (ascii '0') (ascii (hexDigit (n / 16)))
      (ascii (hexDigit (n % 16))) = some n ∧
      isLeadingSurrogate n = false ∧ isTrailingSurrogate n = false := by
  decide

theorem encode_ascii (cs : List Char) (low : ∀ c ∈ cs, c.toNat < 0x80) :
    cs.flatMap String.utf8EncodeChar = cs.map ascii :=
  flatMap_ascii low

theorem hexDigit_ascii : ∀ n < 16, (hexDigit n).toNat < 0x80 := by decide

theorem stringBytes_short (c e : Char) (rest found : Bytes) (low : c.toNat < 0x80)
    (noUnit : ascii e ≠ ascii 'u') (short : shortEscape? (ascii e) = some (ascii c)) :
    stringBytes (ascii '\\' :: ascii e :: rest) found =
      stringBytes rest ((String.utf8EncodeChar c).reverse ++ found) := by
  have single : String.utf8EncodeChar c = [ascii c] := encodeChar_ascii c low
  rw [stringBytes.eq_def, single]
  simp [noUnit, short, show ascii '\\' ≠ ascii '"' by decide]

theorem stringBytes_control (c : Char) (rest found : Bytes) (control : c.toNat < 0x20) :
    stringBytes (['\\', 'u', '0', '0', hexDigit (c.toNat / 16), hexDigit (c.toNat % 16)].map ascii
      ++ rest) found = stringBytes rest ((String.utf8EncodeChar c).reverse ++ found) := by
  rcases hexUnit_control c.toNat control with ⟨unit, leads, trails⟩
  have back : Char.ofNat c.toNat = c := Char.ofNat_toNat c
  rw [List.map_cons, List.cons_append, stringBytes.eq_def]
  simp [unit, leads, trails, pushChar, back, show ascii '\\' ≠ ascii '"' by decide]

theorem stringBytes_escapeChar (c : Char) (rest found : Bytes) :
    stringBytes ((escapeChar c).flatMap String.utf8EncodeChar ++ rest) found =
      stringBytes rest ((String.utf8EncodeChar c).reverse ++ found) := by
  unfold escapeChar
  split
  · next same =>
    subst same
    exact stringBytes_short '"' '"' rest found (by decide) (by decide) (by decide)
  split
  · next _ same =>
    subst same
    exact stringBytes_short '\\' '\\' rest found (by decide) (by decide) (by decide)
  split
  · next _ _ code =>
    have same : c = '\x08' := Char.toNat_inj.mp code
    subst same
    exact stringBytes_short '\x08' 'b' rest found (by decide) (by decide) (by decide)
  split
  · next _ _ _ code =>
    have same : c = '\x0c' := Char.toNat_inj.mp code
    subst same
    exact stringBytes_short '\x0c' 'f' rest found (by decide) (by decide) (by decide)
  split
  · next same =>
    subst same
    exact stringBytes_short '\n' 'n' rest found (by decide) (by decide) (by decide)
  split
  · next same =>
    subst same
    exact stringBytes_short '\r' 'r' rest found (by decide) (by decide) (by decide)
  split
  · next same =>
    subst same
    exact stringBytes_short '\t' 't' rest found (by decide) (by decide) (by decide)
  split
  · next control =>
    have high := hexDigit_ascii (c.toNat / 16) (by omega)
    have low := hexDigit_ascii (c.toNat % 16) (by omega)
    rw [encode_ascii]
    · exact stringBytes_control c rest found control
    · intro digit member
      simp only [List.mem_cons, List.not_mem_nil, or_false] at member
      rcases member with rfl | rfl | rfl | rfl | rfl | rfl
      all_goals first | decide | assumption
  · next noQuote noBackslash _ _ _ _ _ control =>
    have plain := plain_encodeChar c noQuote noBackslash (by omega)
    simpa using stringBytes_plain (String.utf8EncodeChar c) rest found plain

theorem stringBytes_escaped (cs : List Char) (rest found : Bytes) :
    stringBytes ((cs.flatMap escapeChar).flatMap String.utf8EncodeChar ++ ascii '"' :: rest) found =
      .ok ((cs.flatMap String.utf8EncodeChar).reverse ++ found, rest) := by
  induction cs generalizing found with
  | nil =>
      rw [List.flatMap_nil, List.flatMap_nil, List.nil_append, stringBytes.eq_def]
      simp
  | cons c cs ih =>
      rw [List.flatMap_cons, List.flatMap_append, List.append_assoc, stringBytes_escapeChar, ih]
      simp

def closing (text : String) : Bytes :=
  (text.toList.flatMap escapeChar).flatMap String.utf8EncodeChar ++ [ascii '"']

theorem quote_bytes (text : String) :
    (quote text).flatMap String.utf8EncodeChar = ascii '"' :: closing text := by
  simp [quote, closing, encodeChar_ascii, ascii]

theorem stringBytes_closing (text : String) (rest : Bytes) :
    stringBytes (closing text ++ rest) [] = .ok ((encode text).reverse, rest) := by
  rw [closing, List.append_assoc, List.singleton_append, stringBytes_escaped, List.append_nil,
    encode_eq_flatMap]

theorem stringBody_closing (text : String) (rest : Bytes) :
    stringBody (closing text ++ rest) = .ok (text, rest) := by
  simp [stringBody, stringBytes_closing, bind, Except.bind, Text.Utf8.decode?_encode]

end Corpora.Json
