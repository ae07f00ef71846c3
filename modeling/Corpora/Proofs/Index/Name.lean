import Corpora.Index.Name
import Corpora.Proofs.Text.Percent
import Corpora.Proofs.Text.Search
import Mathlib.Computability.RegularExpressions

/-!
Names of indices as a regular expression. The check of a name decides this expression, on the
characters of the name and on its bytes alike, and what matches is one segment of a path as it is.
-/

namespace Corpora.Index

section Grammar

def oneOf (cs : List Char) : RegularExpression Char := (cs.map .char).sum

def optional (piece : RegularExpression Char) : RegularExpression Char := piece + 1

def atMost (n : Nat) (piece : RegularExpression Char) : RegularExpression Char := optional piece ^ n

def charRange (first last : Char) : List Char :=
  (List.range' first.toNat (last.toNat + 1 - first.toNat)).map Char.ofNat

def nameLetters : List Char := charRange 'a' 'z' ++ charRange '0' '9'

def nameChars : List Char := nameLetters ++ ['-']

/-- The expression `[a-z0-9]([a-z0-9-]{0,61}[a-z0-9])?`. -/
def nameGrammar : RegularExpression Char :=
  oneOf nameLetters * optional (atMost 61 (oneOf nameChars) * oneOf nameLetters)

variable {cs text : List Char}

theorem mem_mul {first second : RegularExpression Char} :
    text ∈ (first * second).matches' ↔
      ∃ before ∈ first.matches', ∃ behind ∈ second.matches', before ++ behind = text := Iff.rfl

theorem mem_optional {piece : RegularExpression Char} :
    text ∈ (optional piece).matches' ↔ text ∈ piece.matches' ∨ text = [] := Iff.rfl

theorem mem_oneOf : text ∈ (oneOf cs).matches' ↔ ∃ c ∈ cs, text = [c] := by
  induction cs with
  | nil => exact ⟨fun found => absurd found (Language.notMem_zero text), by simp⟩
  | cons first cs ih =>
      have either : text ∈ (oneOf (first :: cs)).matches' ↔
          text = [first] ∨ text ∈ (oneOf cs).matches' := Iff.rfl
      rw [either, ih]
      simp

theorem mem_atMost {n : Nat} :
    text ∈ (atMost n (oneOf cs)).matches' ↔ text.length ≤ n ∧ ∀ c ∈ text, c ∈ cs := by
  induction n generalizing text with
  | zero =>
      have bare : text ∈ (atMost 0 (oneOf cs)).matches' ↔ text = [] := Iff.rfl
      rw [bare, Nat.le_zero, List.length_eq_zero_iff]
      exact ⟨by rintro rfl; simp, And.left⟩
  | succ n ih =>
      have step : text ∈ (atMost (n + 1) (oneOf cs)).matches' ↔
          ∃ before ∈ (atMost n (oneOf cs)).matches', ∃ behind ∈ (optional (oneOf cs)).matches',
            before ++ behind = text := Iff.rfl
      rw [step]
      constructor
      · rintro ⟨before, early, behind, late, rfl⟩
        obtain ⟨short, known⟩ := ih.mp early
        rcases mem_optional.mp late with single | rfl
        · obtain ⟨last, listed, rfl⟩ := mem_oneOf.mp single
          simp only [List.length_append, List.length_singleton, Nat.add_le_add_iff_right, short,
            List.mem_append, List.mem_singleton, true_and]
          rintro c (inside | rfl)
          · exact known c inside
          · exact listed
        · rw [List.append_nil]
          exact ⟨Nat.le_succ_of_le short, known⟩
      · rintro ⟨short, known⟩
        rcases List.eq_nil_or_concat' text with rfl | ⟨before, last, rfl⟩
        · exact ⟨[], ih.mpr ⟨Nat.zero_le n, known⟩, [], mem_optional.mpr (.inr rfl), rfl⟩
        · have fits : before.length ≤ n := by simpa using short
          refine ⟨before, ih.mpr ⟨fits, fun c inside => known c ?_⟩, [last],
            mem_optional.mpr (.inl (mem_oneOf.mpr ⟨last, known last ?_, rfl⟩)), rfl⟩
          · exact List.mem_append_left _ inside
          · exact List.mem_append_right _ List.mem_cons_self

theorem mem_nameGrammar : text ∈ nameGrammar.matches' ↔
    (∃ only ∈ nameLetters, text = [only]) ∨
      ∃ first ∈ nameLetters, ∃ inner, inner.length ≤ 61 ∧ (∀ c ∈ inner, c ∈ nameChars) ∧
        ∃ last ∈ nameLetters, text = first :: (inner ++ [last]) := by
  rw [nameGrammar, mem_mul]
  constructor
  · rintro ⟨start, opens, rest, ends, rfl⟩
    obtain ⟨first, letter, rfl⟩ := mem_oneOf.mp opens
    rcases mem_optional.mp ends with longer | rfl
    · obtain ⟨inner, between, final, closes, rfl⟩ := mem_mul.mp longer
      obtain ⟨last, closing, rfl⟩ := mem_oneOf.mp closes
      obtain ⟨short, known⟩ := mem_atMost.mp between
      exact .inr ⟨first, letter, inner, short, known, last, closing, rfl⟩
    · exact .inl ⟨first, letter, rfl⟩
  · rintro (⟨only, letter, rfl⟩ | ⟨first, letter, inner, short, known, last, closing, rfl⟩)
    · exact ⟨[only], mem_oneOf.mpr ⟨only, letter, rfl⟩, [], mem_optional.mpr (.inr rfl), rfl⟩
    · refine ⟨[first], mem_oneOf.mpr ⟨first, letter, rfl⟩, inner ++ [last],
        mem_optional.mpr (.inl (mem_mul.mpr ?_)), rfl⟩
      exact ⟨inner, mem_atMost.mpr ⟨short, known⟩, [last], mem_oneOf.mpr ⟨last, closing, rfl⟩, rfl⟩

end Grammar

section Check

variable {α β : Type}

/-- The check of a name, whatever it is made of: no longer than a name may be, a letter at both
ends, and nothing but what names are made of. -/
def keepsRules (letter inner : α → Bool) (parts : List α) : Bool :=
  parts.length ≤ maxNameLength && parts.head?.any letter && parts.getLast?.any letter &&
    parts.all inner

theorem isValidName_eq (name : String) :
    isValidName name = keepsRules isNameLetter isNameChar name.toList := by
  rw [isValidName, validNameChars, keepsRules]
  cases name.toList.head? with
  | none => simp
  | some first =>
      cases name.toList.getLast? with
      | none => simp
      | some last => rfl

theorem keepsRules_map (letter inner : β → Bool) (convert : α → β) (parts : List α) :
    keepsRules letter inner (parts.map convert) =
      keepsRules (letter ∘ convert) (inner ∘ convert) parts := by
  rw [keepsRules, List.length_map, List.head?_map, List.getLast?_map, List.all_map,
    Option.any_map, Option.any_map]
  rfl

theorem keepsRules_iff {letter inner : α → Bool} {parts : List α} :
    keepsRules letter inner parts = true ↔ parts.length ≤ maxNameLength ∧
      parts.head?.any letter = true ∧ parts.getLast?.any letter = true ∧
        ∀ part ∈ parts, inner part = true := by
  simp only [keepsRules, Bool.and_eq_true, decide_eq_true_eq, List.all_eq_true, and_assoc]

end Check

section Classes

variable {c : Char}

theorem mem_charRange {first last : Char} (low : last.toNat < 0xD800) :
    c ∈ charRange first last ↔ first ≤ c ∧ c ≤ last := by
  rw [charRange, List.mem_map, Char.le_def, Char.le_def, UInt32.le_iff_toNat_le,
    UInt32.le_iff_toNat_le]
  constructor
  · rintro ⟨n, among, rfl⟩
    rw [List.mem_range'_1] at among
    have code : (Char.ofNat n).val.toNat = n := Text.Percent.toNat_ofNat (by omega)
    have opens : first.val.toNat = first.toNat := rfl
    have closes : last.val.toNat = last.toNat := rfl
    omega
  · rintro ⟨above, below⟩
    refine ⟨c.toNat, List.mem_range'_1.mpr ?_, Char.ofNat_toNat c⟩
    have code : c.val.toNat = c.toNat := rfl
    have opens : first.val.toNat = first.toNat := rfl
    have closes : last.val.toNat = last.toNat := rfl
    omega

theorem isNameLetter_iff : isNameLetter c = true ↔ c ∈ nameLetters := by
  rw [nameLetters, List.mem_append, mem_charRange (by decide), mem_charRange (by decide)]
  simp [isNameLetter, Text.isLowerLetter, Text.isDigit]

theorem isNameChar_iff : isNameChar c = true ↔ c ∈ nameChars := by
  rw [nameChars, List.mem_append, ← isNameLetter_iff]
  simp [isNameChar]

end Classes

theorem keepsRules_iff_grammar (cs : List Char) :
    keepsRules isNameLetter isNameChar cs = true ↔ cs ∈ nameGrammar.matches' := by
  simp only [keepsRules_iff, mem_nameGrammar, ← isNameLetter_iff, ← isNameChar_iff]
  have most : maxNameLength = 63 := rfl
  have letterIsChar : ∀ c, isNameLetter c = true → isNameChar c = true := by
    intro c letter
    rw [isNameChar, letter, Bool.true_or]
  constructor
  · rintro ⟨short, opens, closes, known⟩
    cases cs with
    | nil => simp at opens
    | cons first rest =>
        rcases List.eq_nil_or_concat' rest with rfl | ⟨inner, last, rfl⟩
        · exact .inl ⟨first, opens, rfl⟩
        · rw [← List.cons_append, List.getLast?_concat] at closes
          refine .inr ⟨first, opens, inner, ?_, fun c inside => known c ?_, last, closes, rfl⟩
          · simp only [List.length_cons, List.length_append, List.length_nil] at short
            omega
          · exact List.mem_cons_of_mem _ (List.mem_append_left _ inside)
  · rintro (⟨only, letter, rfl⟩ | ⟨first, opens, inner, short, known, last, closes, rfl⟩)
    · refine ⟨by simp [most], letter, letter, fun c member => ?_⟩
      rw [List.mem_singleton.mp member]
      exact letterIsChar only letter
    · refine ⟨?_, opens, ?_, fun c member => ?_⟩
      · simp only [List.length_cons, List.length_append, List.length_nil]
        omega
      · rw [← List.cons_append, List.getLast?_concat]
        exact closes
      · rcases List.mem_cons.mp member with rfl | behind
        · exact letterIsChar c opens
        · rcases List.mem_append.mp behind with between | final
          · exact known c between
          · rw [List.mem_singleton.mp final]
            exact letterIsChar last closes

section Bytes

def isLetterByte (b : UInt8) : Bool := (0x61 ≤ b && b ≤ 0x7A) || (0x30 ≤ b && b ≤ 0x39)

def isNameByte (b : UInt8) : Bool := isLetterByte b || b == 0x2D

-- A byte is looked at as the character of its code would be.
theorem isLetterByte_eq (b : UInt8) : isLetterByte b = isNameLetter (Char.ofNat b.toNat) := by
  have small := b.toNat_lt
  have code : (Char.ofNat b.toNat).val.toNat = b.toNat := Text.Percent.toNat_ofNat (by omega)
  simp [isLetterByte, isNameLetter, Text.isLowerLetter, Text.isDigit, Char.le_def,
    UInt32.le_iff_toNat_le, UInt8.le_iff_toNat_le, code]

theorem isNameByte_eq (b : UInt8) : isNameByte b = isNameChar (Char.ofNat b.toNat) := by
  have hyphen : (b == 0x2D) = (Char.ofNat b.toNat == '-') := by
    rw [Bool.eq_iff_iff, beq_iff_eq, beq_iff_eq]
    constructor
    · rintro rfl
      rfl
    · intro same
      rw [← Text.Percent.byte_of_char b, same]
      rfl
  rw [isNameByte, isLetterByte_eq, hyphen, isNameChar]

theorem isNameChar_low {c : Char} (named : isNameChar c = true) : c.toNat < 0x80 := by
  simp only [isNameChar, isNameLetter, Text.isLowerLetter, Text.isDigit, Bool.or_eq_true,
    Bool.and_eq_true, decide_eq_true_eq, beq_iff_eq, Char.le_def, UInt32.le_iff_toNat_le] at named
  rcases named with letter | rfl
  · have code : c.val.toNat = c.toNat := rfl
    simp at letter
    omega
  · decide

theorem isNameByte_low {b : UInt8} (named : isNameByte b = true) : b.toNat < 0x80 := by
  have small := b.toNat_lt
  rw [isNameByte_eq] at named
  have low := isNameChar_low named
  rwa [Text.Percent.toNat_ofNat (by omega)] at low

theorem chars_of_asciiBytes {cs : List Char} (low : ∀ c ∈ cs, c.toNat < 0x80) :
    (Text.Percent.asciiBytes cs).map (fun b => Char.ofNat b.toNat) = cs := by
  rw [Text.Percent.asciiBytes, List.map_map]
  refine (List.map_congr_left fun c member => ?_).trans (List.map_id cs)
  have small := low c member
  rw [Function.comp_apply, UInt8.toNat_ofNat', Nat.mod_eq_of_lt (by omega), Char.ofNat_toNat, id]

/-- A name may be checked byte by byte: no byte of a character beyond ASCII passes. -/
theorem keepsRules_bytes (name : String) :
    keepsRules isLetterByte isNameByte (Text.Utf8.encode name) =
      keepsRules isNameLetter isNameChar name.toList := by
  by_cases low : ∀ c ∈ name.toList, c.toNat < 0x80
  · have bytes := Text.Percent.encode_ascii low
    rw [String.ofList_toList] at bytes
    have chars := keepsRules_map isNameLetter isNameChar (fun b : UInt8 => Char.ofNat b.toNat)
      (Text.Percent.asciiBytes name.toList)
    rw [chars_of_asciiBytes low] at chars
    rw [bytes, chars]
    congr 1
    · exact funext isLetterByte_eq
    · exact funext isNameByte_eq
  · simp only [not_forall, Nat.not_lt] at low
    obtain ⟨c, member, high⟩ := low
    have refused : keepsRules isNameLetter isNameChar name.toList = false := by
      refine Bool.eq_false_iff.mpr fun kept => ?_
      have := isNameChar_low ((keepsRules_iff.mp kept).2.2.2 c member)
      omega
    rw [refused]
    refine Bool.eq_false_iff.mpr fun kept => ?_
    obtain ⟨b, found⟩ := List.exists_mem_of_ne_nil _ (String.utf8EncodeChar_ne_nil (c := c))
    have inside : b ∈ Text.Utf8.encode name := by
      rw [Text.Utf8.encode_eq_flatMap]
      exact List.mem_flatMap.mpr ⟨c, member, found⟩
    have := isNameByte_low ((keepsRules_iff.mp kept).2.2.2 b inside)
    have := Text.Utf8.encodeChar_high c high b found
    omega

end Bytes

section Path

theorem encodeByte_name {c : Char} (named : isNameChar c = true) :
    Text.Percent.encodeByte (UInt8.ofNat c.toNat) = [c] := by
  have low := isNameChar_low named
  have same : Char.ofNat (UInt8.ofNat c.toNat).toNat = c := by
    rw [UInt8.toNat_ofNat', Nat.mod_eq_of_lt (by omega), Char.ofNat_toNat]
  have unreserved : Text.Percent.isUnreserved (UInt8.ofNat c.toNat) = true := by
    simp only [isNameChar, isNameLetter, Bool.or_eq_true] at named
    simp only [Text.Percent.isUnreserved, same, Text.isAlphanumeric]
    rcases named with (letter | digit) | hyphen
    · simp [letter]
    · simp [digit]
    · simp [hyphen]
  rw [Text.Percent.encodeByte, if_pos unreserved, same]

theorem encodeBytes_name {cs : List Char} (named : ∀ c ∈ cs, isNameChar c = true) :
    Text.Percent.encodeBytes (Text.Percent.asciiBytes cs) = cs := by
  induction cs with
  | nil => rfl
  | cons c cs ih =>
      have rest := ih fun other member => named other (List.mem_cons_of_mem c member)
      have parts : Text.Percent.encodeBytes (Text.Percent.asciiBytes (c :: cs)) =
          Text.Percent.encodeByte (UInt8.ofNat c.toNat) ++
            Text.Percent.encodeBytes (Text.Percent.asciiBytes cs) := rfl
      rw [parts, rest, encodeByte_name (named c List.mem_cons_self)]
      rfl

theorem encode_name {name : String} (named : ∀ c ∈ name.toList, isNameChar c = true) :
    Text.Percent.encode name = name := by
  have bytes := Text.Percent.encode_ascii fun c member => isNameChar_low (named c member)
  rw [String.ofList_toList] at bytes
  rw [Text.Percent.encode, bytes, encodeBytes_name named, String.ofList_toList]

theorem name_one_segment {name : String} (named : ∀ c ∈ name.toList, isNameChar c = true) :
    Text.splitAt '/' name.toList = [name.toList] :=
  Text.splitAt_free fun slash => absurd (named '/' slash) (by decide)

end Path

/-- Valid names are exactly what matches the expression, whether a name is checked by characters or
by bytes. A valid name stands in a path as it is, as one segment, and is no dots. -/
theorem isValidName_iff_grammar (name : String) :
    (isValidName name = true ↔ name.toList ∈ nameGrammar.matches') ∧
    isValidName name = keepsRules isLetterByte isNameByte (Text.Utf8.encode name) ∧
    (isValidName name = true →
      Text.Percent.encode name = name ∧ Text.splitAt '/' name.toList = [name.toList] ∧
        name ≠ "." ∧ name ≠ "..") := by
  rw [isValidName_eq]
  refine ⟨keepsRules_iff_grammar name.toList, (keepsRules_bytes name).symm, fun valid => ?_⟩
  have named := (keepsRules_iff.mp valid).2.2.2
  refine ⟨encode_name named, name_one_segment named, ?_, ?_⟩
  · rintro rfl
    exact absurd valid (by decide)
  · rintro rfl
    exact absurd valid (by decide)

end Corpora.Index
