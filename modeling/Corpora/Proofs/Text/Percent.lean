import Corpora.Proofs.Text.Encoding
import Corpora.Text.Percent

/-!
Percent-encoded texts. Decoding one gives back the bytes that were encoded. It is made of
unreserved characters and percent signs only, and it looks like `.` or `..`, in whatever letters
and encodings of a dot, only if it stands for them.
-/

namespace Corpora.Text.Percent

def isEncodedChar (c : Char) : Bool :=
  isAlphanumeric c || c == '-' || c == '_' || c == '.' || c == '~' || c == '%'

theorem isEncodedChar_bounds {c : Char} (encoded : isEncodedChar c = true) :
    0x20 < c.toNat ∧ c.toNat < 0x7F := by
  simp only [isEncodedChar, isAlphanumeric, isLowerLetter, isUpperLetter, isDigit, Bool.or_eq_true,
    Bool.and_eq_true, decide_eq_true_eq, beq_iff_eq, Char.le_def, UInt32.le_iff_toNat_le] at encoded
  rcases encoded with ((((letter | rfl) | rfl) | rfl) | rfl) | rfl
  · simp at letter
    omega
  all_goals decide

theorem isEncodedChar_upperHexDigit {n : Nat} (small : n < 16) :
    isEncodedChar (upperHexDigit n) = true := by
  revert n
  decide

theorem isEncodedChar_unreserved {b : UInt8} (unreserved : isUnreserved b = true) :
    isEncodedChar (Char.ofNat b.toNat) = true := by
  simp only [isUnreserved] at unreserved
  simp [isEncodedChar, unreserved]

theorem encodeByte_chars (b : UInt8) : ∀ c ∈ encodeByte b, isEncodedChar c = true := by
  have small := b.toNat_lt
  intro c member
  by_cases unreserved : isUnreserved b = true
  · rw [encodeByte, if_pos unreserved, List.mem_singleton] at member
    exact member ▸ isEncodedChar_unreserved unreserved
  · rw [encodeByte, if_neg unreserved] at member
    simp only [List.mem_cons, List.not_mem_nil, or_false] at member
    rcases member with rfl | rfl | rfl
    · decide
    · exact isEncodedChar_upperHexDigit (by omega)
    · exact isEncodedChar_upperHexDigit (by omega)

theorem encode_chars (text : String) : ∀ c ∈ (encode text).toList, isEncodedChar c = true := by
  intro c member
  rw [encode, String.toList_ofList, encodeBytes, List.mem_flatMap] at member
  obtain ⟨b, _, found⟩ := member
  exact encodeByte_chars b c found

def asciiBytes (cs : List Char) : Bytes := cs.map fun c => UInt8.ofNat c.toNat

theorem encode_ascii {cs : List Char} (low : ∀ c ∈ cs, c.toNat < 0x80) :
    Utf8.encode (String.ofList cs) = asciiBytes cs := by
  rw [Utf8.encode_ofList]
  exact Utf8.flatMap_ascii low

theorem toNat_ofNat {n : Nat} (small : n < 0xD800) : (Char.ofNat n).toNat = n := by
  have valid : n.isValidChar := Or.inl small
  unfold Char.ofNat
  rw [dif_pos valid]
  unfold Char.ofNatAux Char.toNat
  simp

theorem byte_of_char (b : UInt8) : UInt8.ofNat (Char.ofNat b.toNat).toNat = b := by
  have small := b.toNat_lt
  rw [toNat_ofNat (by omega), UInt8.ofNat_toNat]

theorem decodeBytes_cons {b : UInt8} (literal : b ≠ 0x25) (rest : Bytes) :
    decodeBytes (b :: rest) = b :: decodeBytes rest := by
  match rest with
  | [] => rfl
  | [_] => rfl
  | high :: low :: rest => simp [decodeBytes, triple?, literal]

-- A reader of paths looks for dots in small letters, so decoding is followed for the text as it is
-- and for the text in small letters alike.
/-- A change of letters that the reader of encoded bytes takes for no change. -/
structure KeepsTriples (change : Char → Char) : Prop where
  sign : change '%' = '%'
  digit : ∀ n < 16,
    hexValue? (Char.ofNat (UInt8.ofNat (change (upperHexDigit n)).toNat).toNat) = some n
  literal : ∀ b, isUnreserved b = true → UInt8.ofNat (change (Char.ofNat b.toNat)).toNat ≠ 0x25

theorem keepsTriples_id : KeepsTriples id where
  sign := rfl
  digit := by decide
  literal := by
    intro b unreserved percent
    rw [id, byte_of_char] at percent
    subst percent
    exact absurd unreserved (by decide)

theorem byte_of_lowerChar {b after : UInt8} (noLetter : after.toNat < 97)
    (same : UInt8.ofNat (lowerChar (Char.ofNat b.toNat)).toNat = after) : b = after := by
  rw [lowerChar] at same
  split at same
  · next capital =>
    have capital : 65 ≤ (Char.ofNat b.toNat).toNat ∧ (Char.ofNat b.toNat).toNat ≤ 90 := by
      simpa [isUpperLetter, Char.le_def, UInt32.le_iff_toNat_le] using capital
    have codes := congrArg UInt8.toNat same
    rw [toNat_ofNat (by omega), UInt8.toNat_ofNat'] at codes
    omega
  · rwa [byte_of_char] at same

theorem keepsTriples_lowerChar : KeepsTriples lowerChar where
  sign := by decide
  digit := by decide
  literal := by
    intro b unreserved percent
    obtain rfl := byte_of_lowerChar (by decide) percent
    exact absurd unreserved (by decide)

section Change

variable {change : Char → Char} (keeps : KeepsTriples change)

def changed (change : Char → Char) (b : UInt8) : UInt8 :=
  if isUnreserved b then UInt8.ofNat (change (Char.ofNat b.toNat)).toNat else b

include keeps

theorem decodeBytes_encodeByte (b : UInt8) (rest : Bytes) :
    decodeBytes (asciiBytes ((encodeByte b).map change) ++ rest) =
      changed change b :: decodeBytes rest := by
  have small := b.toNat_lt
  by_cases unreserved : isUnreserved b = true
  · rw [encodeByte, if_pos unreserved, changed, if_pos unreserved]
    exact decodeBytes_cons (keeps.literal b unreserved) rest
  · rw [encodeByte, if_neg unreserved, changed, if_neg unreserved]
    have high := keeps.digit (b.toNat / 16) (by omega)
    have low := keeps.digit (b.toNat % 16) (by omega)
    have whole : 16 * (b.toNat / 16) + b.toNat % 16 = b.toNat := Nat.div_add_mod b.toNat 16
    have sign : UInt8.ofNat (change '%').toNat = 0x25 := by
      rw [keeps.sign]
      rfl
    have read : triple? 0x25 (UInt8.ofNat (change (upperHexDigit (b.toNat / 16))).toNat)
        (UInt8.ofNat (change (upperHexDigit (b.toNat % 16))).toNat) = some b := by
      unfold triple?
      rw [if_neg (by decide), high, low]
      simp only [Option.bind_eq_bind, Option.bind_some, whole, UInt8.ofNat_toNat]
      rfl
    simp only [asciiBytes, List.map_cons, List.map_nil, List.cons_append, List.nil_append, sign,
      decodeBytes, read]

theorem decodeBytes_encodeBytes (bytes rest : Bytes) :
    decodeBytes (asciiBytes ((encodeBytes bytes).map change) ++ rest) =
      bytes.map (changed change) ++ decodeBytes rest := by
  induction bytes with
  | nil => rfl
  | cons b bytes ih =>
      rw [encodeBytes, List.flatMap_cons, List.map_append, asciiBytes, List.map_append,
        List.append_assoc, ← asciiBytes, decodeBytes_encodeByte keeps, ← asciiBytes, ← encodeBytes,
        ih, List.map_cons, List.cons_append]

theorem decodeBytes_encodeBytes_all (bytes : Bytes) :
    decodeBytes (asciiBytes ((encodeBytes bytes).map change)) = bytes.map (changed change) := by
  have whole := decodeBytes_encodeBytes keeps bytes []
  rwa [List.append_nil, decodeBytes, List.append_nil] at whole

end Change

theorem encodeBytes_low (text : String) : ∀ c ∈ encodeBytes (Utf8.encode text), c.toNat < 0x80 := by
  intro c member
  have encoded := encode_chars text c (by rwa [encode, String.toList_ofList])
  have bounds := isEncodedChar_bounds encoded
  omega

theorem encodeBytes_eq (text : String) : encodeBytes (Utf8.encode text) = (encode text).toList := by
  rw [encode, String.toList_ofList]

theorem encode_encode (text : String) :
    Utf8.encode (encode text) = asciiBytes (encode text).toList := by
  rw [encode, encode_ascii (encodeBytes_low text), String.toList_ofList]

theorem changed_id : changed id = id := by
  funext b
  simp [changed, byte_of_char]

theorem decodeBytes_encode_append (text : String) (rest : Bytes) :
    decodeBytes (asciiBytes (encode text).toList ++ rest) =
      Utf8.encode text ++ decodeBytes rest := by
  have read := decodeBytes_encodeBytes keepsTriples_id (Utf8.encode text) rest
  rwa [changed_id, List.map_id, List.map_id, encodeBytes_eq] at read

theorem decodeBytes_encode (text : String) :
    decodeBytes (Utf8.encode (encode text)) = Utf8.encode text := by
  have read := decodeBytes_encode_append text []
  rwa [List.append_nil, decodeBytes, List.append_nil, ← encode_encode] at read

/-- An encoded text that looks like an encoding of dots in small letters stands for dots. -/
theorem eq_dots_of_lower {text : String} {shown : List Char} {count : Nat}
    (looks : (encode text).toList.map lowerChar = shown)
    (dots : decodeBytes (asciiBytes shown) = List.replicate count 0x2E) :
    text = String.ofList (List.replicate count '.') := by
  have read := decodeBytes_encodeBytes_all keepsTriples_lowerChar (Utf8.encode text)
  rw [encode, String.toList_ofList] at looks
  rw [looks, dots] at read
  have bytes : Utf8.encode text = List.replicate count 0x2E := by
    refine List.eq_replicate_iff.mpr ⟨by simpa using (congrArg List.length read).symm, ?_⟩
    intro b member
    have dot : changed lowerChar b ∈ List.replicate count 0x2E := read ▸ List.mem_map_of_mem member
    have same := List.eq_of_mem_replicate dot
    rw [changed] at same
    split at same
    · exact byte_of_lowerChar (by decide) same
    · exact same
  have whole : Utf8.encode (String.ofList (List.replicate count '.')) =
      List.replicate count 0x2E := by
    rw [encode_ascii (by simp), asciiBytes, List.map_replicate]
    rfl
  exact Utf8.encode_inj.mp (bytes.trans whole.symm)

end Corpora.Text.Percent
