import Corpora.Proofs.Xml.Entity
import Corpora.Xml.Block

/-!
Blocks of a document that is put together from parts. A part is a gap without any tag, a tag that
is none of the document's own, or an item; a search for an own tag goes past all of them but the
items that have it.
-/

namespace Corpora.Xml

open Text (Passes delimited)

section Blocks

variable {tag : String} {text inner : List Char}

def elementChars (tag : String) (inner : List Char) : List Char :=
  openTag tag ++ (inner ++ closeTag tag)

theorem closeTag_eq (tag : String) : closeTag tag = delimited '<' '>' ('/' :: tag.toList) := rfl

theorem firstBlock?_passes (passes : Passes (openTag tag) text) (rest : List Char) :
    firstBlock? tag (text ++ rest) = firstBlock? tag rest := by
  rw [firstBlock?, firstBlock?, passes]
  cases Text.splitFirst? (openTag tag) rest <;> rfl

theorem firstBlock?_element (passes : Passes (closeTag tag) inner) (rest : List Char) :
    firstBlock? tag (elementChars tag inner ++ rest) = some (inner, rest) := by
  have opened := Text.splitFirst?_self (openTag tag) (inner ++ (closeTag tag ++ rest))
  rw [firstBlock?, elementChars, List.append_assoc, List.append_assoc, opened]
  exact passes.found rest

theorem blockChars_eq (tag : String) (xml : List Char) :
    blockChars tag xml = match firstBlock? tag xml with
      | some (block, rest) => block :: blockChars tag rest
      | none => [] := by
  rw [blockChars]
  split <;> next found => rw [found]

theorem blockChars_passes (passes : Passes (openTag tag) text) (rest : List Char) :
    blockChars tag (text ++ rest) = blockChars tag rest := by
  rw [blockChars_eq, firstBlock?_passes passes, ← blockChars_eq]

theorem blockChars_element (passes : Passes (closeTag tag) inner) (rest : List Char) :
    blockChars tag (elementChars tag inner ++ rest) = inner :: blockChars tag rest := by
  rw [blockChars_eq, firstBlock?_element passes]

theorem blockChars_nil (tag : String) : blockChars tag [] = [] := by
  have none : firstBlock? tag [] = none := rfl
  rw [blockChars_eq, none]

/-- The blocks of parts that are each an element of the tag, or that a search for it goes past. -/
theorem blockChars_flatMap {β : Type} {chars : β → List Char} {block? : β → Option (List Char)}
    {parts : List β}
    (each : ∀ part ∈ parts, match block? part with
      | some inner => chars part = elementChars tag inner ∧ Passes (closeTag tag) inner
      | none => Passes (openTag tag) (chars part)) :
    blockChars tag (parts.flatMap chars) = parts.filterMap block? := by
  induction parts with
  | nil => exact blockChars_nil tag
  | cons part parts ih =>
      have later := ih fun other member => each other (List.mem_cons_of_mem _ member)
      have first := each part List.mem_cons_self
      rw [List.flatMap_cons, List.filterMap_cons]
      cases block : block? part with
      | none =>
          rw [block] at first
          rw [blockChars_passes first, later]
      | some inner =>
          rw [block] at first
          rw [first.1, blockChars_element first.2, later]

end Blocks

section Parts

def isPlainTag (tag : String) : Bool :=
  !tag.toList.contains '<' && !tag.toList.contains '>' && !tag.toList.contains '/'

structure Tags where
  names : List String
  plain : names.all isPlainTag = true

/-- A part of a document with tags of its own: a text between tags, a tag that is none of them, or
an item. -/
inductive Part (own : Tags) (α : Type) where
  | gap (text : List Char) (plain : '<' ∉ text)
  | mark (name : List Char) (plain : '<' ∉ name ∧ '>' ∉ name)
      (foreign : ∀ tag ∈ own.names, name ≠ tag.toList ∧ name ≠ '/' :: tag.toList)
  | item (content : α)

variable {own : Tags} {α : Type}

def Part.chars (shown : α → List Char) : Part own α → List Char
  | gap text _ => text
  | mark name _ _ => delimited '<' '>' name
  | item content => shown content

def Part.item? : Part own α → Option α
  | item content => some content
  | _ => none

def documentChars (shown : α → List Char) (parts : List (Part own α)) : List Char :=
  parts.flatMap (Part.chars shown)

def items (parts : List (Part own α)) : List α := parts.filterMap Part.item?

theorem plain_of_isPlainTag {tag : String} (plain : isPlainTag tag = true) :
    '<' ∉ tag.toList ∧ '>' ∉ tag.toList ∧ '/' ∉ tag.toList := by
  simpa [isPlainTag, and_assoc] using plain

theorem Tags.plain_name (own : Tags) {tag : String} (member : tag ∈ own.names) :
    '<' ∉ tag.toList ∧ '>' ∉ tag.toList ∧ '/' ∉ tag.toList :=
  plain_of_isPlainTag (List.all_eq_true.mp own.plain tag member)

section Frames

variable {name : String} (plain : isPlainTag name = true) (apart : name ∉ own.names)

include apart

include plain in
theorem opening_foreign :
    ∀ tag ∈ own.names, name.toList ≠ tag.toList ∧ name.toList ≠ '/' :: tag.toList := by
  intro tag known
  constructor
  · intro same
    exact apart (String.toList_inj.mp same ▸ known)
  · intro same
    exact (plain_of_isPlainTag plain).2.2 (same ▸ List.mem_cons_self)

theorem closing_foreign :
    ∀ tag ∈ own.names, '/' :: name.toList ≠ tag.toList ∧ '/' :: name.toList ≠ '/' :: tag.toList := by
  intro tag known
  constructor
  · intro same
    exact (own.plain_name known).2.2 (same ▸ List.mem_cons_self)
  · intro same
    exact apart (String.toList_inj.mp (List.cons.inj same).2 ▸ known)

end Frames

def Part.opening (name : String) (plain : isPlainTag name = true) (apart : name ∉ own.names) :
    Part own α :=
  .mark name.toList ⟨(plain_of_isPlainTag plain).1, (plain_of_isPlainTag plain).2.1⟩
    (opening_foreign plain apart)

def Part.closing (name : String) (plain : isPlainTag name = true) (apart : name ∉ own.names) :
    Part own α :=
  .mark ('/' :: name.toList)
    ⟨List.not_mem_cons_of_ne_of_not_mem (by decide) (plain_of_isPlainTag plain).1,
      List.not_mem_cons_of_ne_of_not_mem (by decide) (plain_of_isPlainTag plain).2.1⟩
    (closing_foreign apart)

section Passing

variable {tag other : String} {name inner : List Char} (known : tag ∈ own.names)

include known

theorem passes_open (plain : '<' ∉ name ∧ '>' ∉ name) (differ : name ≠ tag.toList) :
    Passes (openTag tag) (delimited '<' '>' name) :=
  Text.passes_delimited plain.1 (by decide) (own.plain_name known).2.1 plain.2 differ.symm

theorem passes_close (plain : '<' ∉ name ∧ '>' ∉ name) (differ : name ≠ '/' :: tag.toList) :
    Passes (closeTag tag) (delimited '<' '>' name) := by
  have whole : '>' ∉ '/' :: tag.toList :=
    List.not_mem_cons_of_ne_of_not_mem (by decide) (own.plain_name known).2.1
  exact Text.passes_delimited plain.1 (by decide) whole plain.2 differ.symm

variable (knownOther : other ∈ own.names) (differ : other ≠ tag)

include knownOther differ

theorem element_passes_open (passes : Passes (openTag tag) inner) :
    Passes (openTag tag) (elementChars other inner) := by
  obtain ⟨noOpening, noEnd, _⟩ := own.plain_name knownOther
  have opening : Passes (openTag tag) (openTag other) :=
    passes_open known ⟨noOpening, noEnd⟩ fun same => differ (String.toList_inj.mp same)
  have closing : Passes (openTag tag) (closeTag other) := by
    rw [closeTag_eq other]
    refine passes_open known ⟨?_, ?_⟩ fun same => (own.plain_name known).2.2 ?_
    · exact List.not_mem_cons_of_ne_of_not_mem (by decide) noOpening
    · exact List.not_mem_cons_of_ne_of_not_mem (by decide) noEnd
    · exact same ▸ List.mem_cons_self
  exact opening.append (passes.append closing)

theorem element_passes_close (passes : Passes (closeTag tag) inner) :
    Passes (closeTag tag) (elementChars other inner) := by
  obtain ⟨noOpening, noEnd, noSlash⟩ := own.plain_name knownOther
  have opening : Passes (closeTag tag) (openTag other) :=
    passes_close known ⟨noOpening, noEnd⟩ fun same => noSlash (same ▸ List.mem_cons_self)
  have closing : Passes (closeTag tag) (closeTag other) := by
    rw [closeTag_eq other]
    refine passes_close known ⟨?_, ?_⟩ fun same => ?_
    · exact List.not_mem_cons_of_ne_of_not_mem (by decide) noOpening
    · exact List.not_mem_cons_of_ne_of_not_mem (by decide) noEnd
    · exact differ (String.toList_inj.mp (List.cons.inj same).2)
  exact opening.append (passes.append closing)

end Passing

section Reading

variable {tag : String} {shown : α → List Char} {parts : List (Part own α)}
  (known : tag ∈ own.names)

theorem mem_items {content : α} : content ∈ items parts ↔ Part.item content ∈ parts := by
  rw [items, List.mem_filterMap]
  constructor
  · rintro ⟨part, member, same⟩
    cases part with
    | item other =>
        cases same
        exact member
    | _ => cases same
  · exact fun member => ⟨_, member, rfl⟩

theorem items_map_item (contents : List α) : items (contents.map (@Part.item own α)) = contents := by
  rw [items, List.filterMap_map]
  exact List.filterMap_some

include known

theorem document_passes_close (each : ∀ content ∈ items parts, Passes (closeTag tag) (shown content)) :
    Passes (closeTag tag) (documentChars shown parts) := by
  refine Passes.flatMap fun part member => ?_
  cases part with
  | gap text plain => exact Text.passes_of_absent _ plain
  | mark name plain foreign => exact passes_close known plain (foreign tag known).2
  | item content => exact each content (mem_items.mpr member)

theorem document_passes_open (each : ∀ content ∈ items parts, Passes (openTag tag) (shown content)) :
    Passes (openTag tag) (documentChars shown parts) := by
  refine Passes.flatMap fun part member => ?_
  cases part with
  | gap text plain => exact Text.passes_of_absent _ plain
  | mark name plain foreign => exact passes_open known plain (foreign tag known).1
  | item content => exact each content (mem_items.mpr member)

/-- The blocks of a document are those of its items. -/
theorem blockChars_document {block? : α → Option (List Char)}
    (each : ∀ content ∈ items parts, match block? content with
      | some inner => shown content = elementChars tag inner ∧ Passes (closeTag tag) inner
      | none => Passes (openTag tag) (shown content)) :
    blockChars tag (documentChars shown parts) = (items parts).filterMap block? := by
  rw [items, List.filterMap_filterMap]
  refine blockChars_flatMap fun part member => ?_
  cases part with
  | gap text plain => exact Text.passes_of_absent _ plain
  | mark name plain foreign => exact passes_open known plain (foreign tag known).1
  | item content => exact each content (mem_items.mpr member)

end Reading

section Leaves

structure Leaf (tags : List String) where
  tag : String
  known : tag ∈ tags
  text : String

variable {tags : List String}

def Leaf.chars (leaf : Leaf tags) : List Char :=
  elementChars leaf.tag (escapeChars leaf.text.toList)

def Leaf.textOf? (tag : String) (leaf : Leaf tags) : Option String :=
  if leaf.tag = tag then some leaf.text else none

variable {tag : String} (known : tag ∈ own.names) (among : ∀ other ∈ tags, other ∈ own.names)

include known among

theorem Leaf.passes_open {leaf : Leaf tags} (differ : leaf.tag ≠ tag) :
    Passes (openTag tag) leaf.chars :=
  element_passes_open known (among _ leaf.known) differ
    (Text.passes_of_absent _ (escapeChars_plain _))

theorem Leaf.passes_close {leaf : Leaf tags} (differ : leaf.tag ≠ tag) :
    Passes (closeTag tag) leaf.chars :=
  element_passes_close known (among _ leaf.known) differ
    (Text.passes_of_absent _ (escapeChars_plain _))

/-- The blocks of a tag, read back, are the texts of its leaves. -/
theorem texts_document {shown : α → List Char} {leaf? : α → Option (Leaf tags)}
    {parts : List (Part own α)}
    (each : ∀ content ∈ items parts, match leaf? content with
      | some leaf => shown content = leaf.chars
      | none => Passes (openTag tag) (shown content)) :
    (blocks tag (String.ofList (documentChars shown parts))).map unescape =
      ((items parts).filterMap leaf?).filterMap (Leaf.textOf? tag) := by
  have blocks : blockChars tag (documentChars shown parts) =
      (items parts).filterMap fun content => (leaf? content).bind fun leaf =>
        (leaf.textOf? tag).map fun text => escapeChars text.toList := by
    refine blockChars_document known fun content member => ?_
    have shape := each content member
    cases kind : leaf? content with
    | none =>
        rw [kind] at shape
        exact shape
    | some leaf =>
        rw [kind] at shape
        rw [Option.bind_some, Leaf.textOf?, shape]
        by_cases same : leaf.tag = tag
        · rw [if_pos same]
          exact ⟨same ▸ rfl, Text.passes_of_absent _ (escapeChars_plain _)⟩
        · rw [if_neg same]
          exact leaf.passes_open known among same
  have read (text : String) : unescape (String.ofList (escapeChars text.toList)) = text :=
    unescape_escape text
  rw [Xml.blocks, String.toList_ofList, blocks, List.map_map, List.map_filterMap,
    List.filterMap_filterMap]
  congr 1
  funext content
  cases leaf? content with
  | none => rfl
  | some leaf => simp [Option.map_map, Function.comp_def, read]

theorem value?_document {shown : α → List Char} {leaf? : α → Option (Leaf tags)}
    {parts : List (Part own α)}
    (each : ∀ content ∈ items parts, match leaf? content with
      | some leaf => shown content = leaf.chars
      | none => Passes (openTag tag) (shown content)) :
    value? tag (String.ofList (documentChars shown parts)) =
      (((items parts).filterMap leaf?).filterMap (Leaf.textOf? tag)).head? := by
  rw [value?, ← List.head?_map, texts_document known among each]

end Leaves

end Parts

end Corpora.Xml
