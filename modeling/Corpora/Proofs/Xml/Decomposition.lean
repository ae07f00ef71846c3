import Corpora.Proofs.Xml.Block

/-!
Any text, taken apart at the blocks of a tag, whatever markup it has: gap, opening tag, block and
closing tag in turn, each tag the first one that is left, up to a rest without a further block.
There is one way to do so. The blocks are the same when they are cut out by offsets in bytes, and no
cut leaves the text or divides a character.
-/

namespace Corpora.Xml

open Text (IsFirst splitFirst?)

section Apart

variable {tag : String} {text block behind rest last : List Char}
  {parts others : List (List Char × List Char)}

/-- There is no opening tag in a text, or no closing tag behind the first one. -/
def Blockless (tag : String) (text : List Char) : Prop :=
  ¬ openTag tag <:+: text ∨
    ∃ gap behind, text = gap ++ openTag tag ++ behind ∧ IsFirst (openTag tag) gap behind ∧
      ¬ closeTag tag <:+: behind

/-- A text taken apart into gaps with the blocks behind them, and a rest. -/
inductive TakenApart (tag : String) :
    List Char → List (List Char × List Char) → List Char → Prop where
  | rest {text : List Char} (blockless : Blockless tag text) : TakenApart tag text [] text
  | block {gap block behind rest : List Char} {parts : List (List Char × List Char)}
      (opens : IsFirst (openTag tag) gap (block ++ closeTag tag ++ behind))
      (closes : IsFirst (closeTag tag) block behind) (later : TakenApart tag behind parts rest) :
      TakenApart tag (gap ++ openTag tag ++ (block ++ closeTag tag ++ behind))
        ((gap, block) :: parts) rest

theorem firstBlock?_eq_some_iff :
    firstBlock? tag text = some (block, behind) ↔
      ∃ gap, text = gap ++ openTag tag ++ (block ++ closeTag tag ++ behind) ∧
        IsFirst (openTag tag) gap (block ++ closeTag tag ++ behind) ∧
          IsFirst (closeTag tag) block behind := by
  simp only [firstBlock?, bind, Option.bind_eq_some_iff, Prod.exists, Text.splitFirst?_eq_some_iff]
  constructor
  · rintro ⟨gap, _, ⟨rfl, opens⟩, rfl, closes⟩
    exact ⟨gap, rfl, opens, closes⟩
  · rintro ⟨gap, rfl, opens, closes⟩
    exact ⟨gap, _, ⟨rfl, opens⟩, rfl, closes⟩

theorem firstBlock?_eq_none_iff : firstBlock? tag text = none ↔ Blockless tag text := by
  rw [firstBlock?, Blockless, ← Text.splitFirst?_eq_none_iff]
  cases opened : splitFirst? (openTag tag) text with
  | none => exact iff_of_true rfl (.inl rfl)
  | some parts =>
      obtain ⟨gap, behind⟩ := parts
      have first := Text.splitFirst?_eq_some_iff.mp opened
      constructor
      · exact fun closed => .inr ⟨gap, behind, first.1, first.2, Text.splitFirst?_eq_none_iff.mp closed⟩
      · rintro (none | ⟨other, after, whole, opens, unclosed⟩)
        · cases none
        · have same := opened.symm.trans (Text.splitFirst?_eq_some_iff.mpr ⟨whole, opens⟩)
          cases same
          exact Text.splitFirst?_eq_none_iff.mpr unclosed

theorem TakenApart.blockChars (apart : TakenApart tag text parts rest) :
    blockChars tag text = parts.map Prod.snd := by
  induction apart with
  | rest blockless => rw [blockChars_eq, firstBlock?_eq_none_iff.mpr blockless, List.map_nil]
  | block opens closes later ih =>
      rw [blockChars_eq, firstBlock?_eq_some_iff.mpr ⟨_, rfl, opens, closes⟩, List.map_cons, ← ih]

theorem TakenApart.unique (apart : TakenApart tag text parts rest)
    (other : TakenApart tag text others last) : others = parts ∧ last = rest := by
  induction apart generalizing others last with
  | rest blockless =>
      have none := firstBlock?_eq_none_iff.mpr blockless
      cases other with
      | rest => exact ⟨rfl, rfl⟩
      | block opens closes later =>
          rw [firstBlock?_eq_some_iff.mpr ⟨_, rfl, opens, closes⟩] at none
          cases none
  | @block gap block behind rest parts opens closes later ih =>
      have found := Text.splitFirst?_of_isFirst opens
      have some := firstBlock?_eq_some_iff.mpr ⟨_, rfl, opens, closes⟩
      generalize gap ++ openTag tag ++ (block ++ closeTag tag ++ behind) = text at found some other
      cases other with
      | rest blockless =>
          rw [firstBlock?_eq_none_iff.mpr blockless] at some
          cases some
      | block opens' closes' later' =>
          rw [Text.splitFirst?_of_isFirst opens'] at found
          rw [firstBlock?_eq_some_iff.mpr ⟨_, rfl, opens', closes'⟩] at some
          obtain ⟨rfl, _⟩ := Prod.mk.inj (Option.some.inj found)
          obtain ⟨rfl, rfl⟩ := Prod.mk.inj (Option.some.inj some)
          obtain ⟨rfl, rfl⟩ := ih later'
          exact ⟨rfl, rfl⟩

theorem exists_takenApart (tag : String) (text : List Char) :
    ∃ parts rest, TakenApart tag text parts rest := by
  induction text using blockChars.induct tag with
  | case1 text block behind found ih =>
      obtain ⟨parts, rest, apart⟩ := ih
      obtain ⟨gap, rfl, opens, closes⟩ := firstBlock?_eq_some_iff.mp found
      exact ⟨(gap, block) :: parts, rest, .block opens closes apart⟩
  | case2 text found => exact ⟨[], text, .rest (firstBlock?_eq_none_iff.mp found)⟩

end Apart

section Offsets

def offset? (piece text : String) : Option Nat :=
  (splitFirst? piece.toList text.toList).map fun parts => (String.ofList parts.1).utf8ByteSize

/-- The text between two offsets in bytes; none if one of them lies outside of the text or within a
character. -/
def slice? (text : String) (start stop : Nat) : Option String :=
  if inside : start ≤ stop ∧ String.Pos.Raw.IsValid text ⟨start⟩ ∧
      String.Pos.Raw.IsValid text ⟨stop⟩ then
    some (String.extract (text.pos ⟨start⟩ inside.2.1) (text.pos ⟨stop⟩ inside.2.2))
  else none

inductive Round where
  | block (inner rest : String)
  | over
  | outside

def round (opening closing text : String) : Round :=
  match offset? opening text with
  | none => .over
  | some start =>
      let inner := start + opening.utf8ByteSize
      match slice? text inner text.utf8ByteSize with
      | none => .outside
      | some behind => match offset? closing behind with
          | none => .over
          | some stop =>
              let rest := inner + stop + closing.utf8ByteSize
              match slice? text inner (inner + stop), slice? text rest text.utf8ByteSize with
              | some block, some rest => .block block rest
              | _, _ => .outside

def rounds? (opening closing : String) : Nat → String → Option (List String)
  | 0, _ => none
  | limit + 1, text => match round opening closing text with
      | .block inner rest => (rounds? opening closing limit rest).map (inner :: ·)
      | .over => some []
      | .outside => none

theorem slice?_middle {before inner behind : String} {start stop : Nat}
    (starts : start = before.utf8ByteSize) (stops : stop = start + inner.utf8ByteSize) :
    slice? (before ++ inner ++ behind) start stop = some inner := by
  subst starts stops
  have inside : before.utf8ByteSize ≤ before.utf8ByteSize + inner.utf8ByteSize ∧
      String.Pos.Raw.IsValid (before ++ inner ++ behind) ⟨before.utf8ByteSize⟩ ∧
      String.Pos.Raw.IsValid (before ++ inner ++ behind)
        ⟨before.utf8ByteSize + inner.utf8ByteSize⟩ := by
    refine ⟨Nat.le_add_right _ _, ?_, ?_⟩
    · exact String.Pos.Raw.isValid_iff_exists_append.mpr
        ⟨before, inner ++ behind, String.append_assoc, rfl⟩
    · refine String.Pos.Raw.isValid_iff_exists_append.mpr ⟨before ++ inner, behind, rfl, ?_⟩
      rw [String.Pos.Raw.ext_iff, String.byteIdx_rawEndPos, String.utf8ByteSize_append]
  have shifted := @ByteArray.extract_append_size_add before.toByteArray
    (inner.toByteArray ++ behind.toByteArray) 0 inner.utf8ByteSize
  rw [slice?, dif_pos inside, Option.some_inj, ← String.toByteArray_inj, String.toByteArray_extract,
    String.offset_pos, String.offset_pos, String.toByteArray_append, String.toByteArray_append,
    ByteArray.append_assoc]
  rw [ByteArray.extract_append_eq_left String.size_toByteArray.symm] at shifted
  exact shifted

theorem slice?_end {before inner text : String} {start : Nat} (whole : text = before ++ inner)
    (starts : start = before.utf8ByteSize) :
    slice? text start text.utf8ByteSize = some inner := by
  have none := @String.append_empty (before ++ inner)
  rw [whole, ← none]
  refine slice?_middle starts ?_
  rw [none, String.utf8ByteSize_append, starts]

theorem toList_opening (tag : String) : ("<" ++ tag ++ ">").toList = openTag tag := by
  rw [String.toList_append, String.toList_append]
  rfl

theorem toList_closing (tag : String) : ("</" ++ tag ++ ">").toList = closeTag tag := by
  rw [String.toList_append, String.toList_append]
  rfl

theorem offset?_found {piece text : String} {before behind : List Char}
    (found : splitFirst? piece.toList text.toList = some (before, behind)) :
    offset? piece text = some (String.ofList before).utf8ByteSize ∧
      text = String.ofList before ++ piece ++ String.ofList behind := by
  constructor
  · rw [offset?, found, Option.map_some]
  · rw [← String.toList_inj, Text.splitFirst?_eq found]
    simp only [String.toList_append, String.toList_ofList]

section Cuts

variable {opening closing text : String} {gap behind block rest : List Char}

theorem round_unopened (opened : splitFirst? opening.toList text.toList = none) :
    round opening closing text = .over := by
  rw [round, offset?, opened]
  rfl

variable (opened : splitFirst? opening.toList text.toList = some (gap, behind))

include opened

theorem slice?_behind :
    slice? text ((String.ofList gap).utf8ByteSize + opening.utf8ByteSize) text.utf8ByteSize =
      some (String.ofList behind) :=
  slice?_end (offset?_found opened).2 String.utf8ByteSize_append.symm

theorem round_unclosed (closed : splitFirst? closing.toList behind = none) :
    round opening closing text = .over := by
  have nowhere : offset? closing (String.ofList behind) = none := by
    rw [offset?, String.toList_ofList, closed, Option.map_none]
  rw [round, (offset?_found opened).1]
  simp only [slice?_behind opened, nowhere]

theorem round_closed (closed : splitFirst? closing.toList behind = some (block, rest)) :
    round opening closing text = .block (String.ofList block) (String.ofList rest) := by
  rw [← @String.toList_ofList behind] at closed
  obtain ⟨starts, whole⟩ := offset?_found opened
  obtain ⟨stops, within⟩ := offset?_found closed
  have front : (String.ofList gap).utf8ByteSize + opening.utf8ByteSize =
      (String.ofList gap ++ opening).utf8ByteSize := String.utf8ByteSize_append.symm
  have before : text = String.ofList gap ++ opening ++ String.ofList block ++ closing ++
      String.ofList rest := by
    rw [whole, within]
    simp only [String.append_assoc]
  have inner : slice? text ((String.ofList gap).utf8ByteSize + opening.utf8ByteSize)
      ((String.ofList gap).utf8ByteSize + opening.utf8ByteSize + (String.ofList block).utf8ByteSize) =
        some (String.ofList block) := by
    rw [before, String.append_assoc]
    exact slice?_middle front rfl
  have last : slice? text ((String.ofList gap).utf8ByteSize + opening.utf8ByteSize +
      (String.ofList block).utf8ByteSize + closing.utf8ByteSize) text.utf8ByteSize =
        some (String.ofList rest) := by
    refine slice?_end before ?_
    simp only [String.utf8ByteSize_append]
  rw [round, starts]
  simp only [slice?_behind opened, stops, inner, last]

end Cuts

theorem round_eq (tag text : String) :
    round ("<" ++ tag ++ ">") ("</" ++ tag ++ ">") text = match firstBlock? tag text.toList with
      | some (block, rest) => .block (String.ofList block) (String.ofList rest)
      | none => .over := by
  rw [firstBlock?, ← toList_opening, ← toList_closing]
  cases opened : splitFirst? ("<" ++ tag ++ ">").toList text.toList with
  | none => exact round_unopened opened
  | some parts =>
      obtain ⟨gap, behind⟩ := parts
      cases closed : splitFirst? ("</" ++ tag ++ ">").toList behind with
      | none =>
          rw [round_unclosed opened closed]
          simp only [Option.bind_eq_bind, Option.bind_some, closed]
      | some parts =>
          rw [round_closed opened closed]
          simp only [Option.bind_eq_bind, Option.bind_some, closed]

/-- The rounds come to an end with the round behind the last block. -/
theorem rounds?_eq (tag text : String) (limit : Nat) :
    rounds? ("<" ++ tag ++ ">") ("</" ++ tag ++ ">") limit text =
      if (blocks tag text).length < limit then some (blocks tag text) else none := by
  induction limit generalizing text with
  | zero => rfl
  | succ limit ih =>
      rw [rounds?, round_eq, blocks, blockChars_eq]
      cases found : firstBlock? tag text.toList with
      | none => simp
      | some parts =>
          obtain ⟨block, rest⟩ := parts
          have later : blocks tag (String.ofList rest) =
              (blockChars tag rest).map String.ofList := by
            rw [blocks, String.toList_ofList]
          simp only [ih, later, List.map_cons, List.length_cons, Nat.add_lt_add_iff_right]
          split <;> rfl

end Offsets

/-- Every text is taken apart in one way at the blocks of a tag, and these are the blocks that are
found. Cut out by offsets, they are found in one round each and a last one, and no round cuts
outside of the text or within a character. -/
theorem blocks_take_apart (tag xml : String) :
    (∃ parts rest, TakenApart tag xml.toList parts rest ∧
      blocks tag xml = parts.map (fun part => String.ofList part.2) ∧
      ∀ others last, TakenApart tag xml.toList others last → others = parts ∧ last = rest) ∧
    ∀ limit, rounds? ("<" ++ tag ++ ">") ("</" ++ tag ++ ">") limit xml =
      if (blocks tag xml).length < limit then some (blocks tag xml) else none := by
  obtain ⟨parts, rest, apart⟩ := exists_takenApart tag xml.toList
  refine ⟨⟨parts, rest, apart, ?_, fun others last => apart.unique⟩, rounds?_eq tag xml⟩
  rw [blocks, apart.blockChars, List.map_map]
  rfl

end Corpora.Xml
