import Corpora.Http.Multipart
import Corpora.Proofs.Text.Search

/-!
Well-formed forms, as they are written: a preamble, parts between boundaries, each with the lines of
its head and its data, and an epilogue. Reading a form finds each of its parts as it was written.
-/

namespace Corpora.Http.Form

open Text (splitFirst? stripStart? stripStart?_eq_some)

structure HeadLine where
  name : Bytes
  value : Bytes

namespace HeadLine

def bytes (line : HeadLine) : Bytes := line.name ++ 0x3A :: line.value

def entry (line : HeadLine) : String × Bytes :=
  (Text.lower (String.ofList (line.name.map fun b => Char.ofNat b.toNat)), trimGaps line.value)

structure WellFormed (line : HeadLine) : Prop where
  named : line.name ≠ []
  nameBytes : ∀ b ∈ line.name, isHeaderNameByte b = true
  valueBytes : ∀ b ∈ line.value, isValueByte b = true

end HeadLine

structure WrittenPart where
  padding : Bytes
  head : List HeadLine
  data : Bytes

namespace WrittenPart

def headBytes (part : WrittenPart) : Bytes := lineEnd.intercalate (part.head.map HeadLine.bytes)

def bytes (part : WrittenPart) : Bytes :=
  part.padding ++ (lineEnd ++ (part.headBytes ++ (lineEnd ++ lineEnd ++ part.data)))

def part (part : WrittenPart) : Part := partOf (part.head.map HeadLine.entry) part.data

/-- A part has a head of at most as many lines as are read, and its data is free of the delimiter
that ends it. -/
structure WellFormed (boundary : Bytes) (part : WrittenPart) : Prop where
  padded : ∀ b ∈ part.padding, isGap b = true
  headed : part.head ≠ []
  few : part.head.length ≤ mostHeaders
  lines : ∀ line ∈ part.head, line.WellFormed
  apart : ¬ lineEnd ++ dashes ++ boundary <:+: part.data

end WrittenPart

structure WrittenForm where
  preamble : Bytes
  parts : List WrittenPart
  epilogue : Bytes

def behindBoundary (boundary epilogue : Bytes) : List WrittenPart → Bytes
  | [] => dashes ++ epilogue
  | part :: parts =>
      part.bytes ++ (lineEnd ++ dashes ++ boundary ++ behindBoundary boundary epilogue parts)

namespace WrittenForm

def bytes (boundary : Bytes) (form : WrittenForm) : Bytes :=
  form.preamble ++ (dashes ++ boundary ++ behindBoundary boundary form.epilogue form.parts)

/-- A boundary stands on one line, and what comes before the first one ends with a line. -/
structure WellFormed (boundary : Bytes) (form : WrittenForm) : Prop where
  oneLine : 0x0D ∉ boundary ∧ 0x0A ∉ boundary
  ended : form.preamble = [] ∨ lineEnd <:+ form.preamble
  apart : ¬ dashes ++ boundary <:+: form.preamble
  parts : ∀ part ∈ form.parts, part.WellFormed boundary

end WrittenForm

section Head

variable {line : HeadLine}

theorem headerOf?_bytes (wellFormed : line.WellFormed) :
    headerOf? line.bytes = some line.entry := by
  have colon : ¬ isHeaderNameByte 0x3A = true := by decide
  have name : line.bytes.takeWhile isHeaderNameByte = line.name := by
    rw [HeadLine.bytes, List.takeWhile_append_of_pos wellFormed.nameBytes,
      List.takeWhile_cons_of_neg colon, List.append_nil]
  have rest : line.bytes.drop line.name.length = 0x3A :: line.value := by
    rw [HeadLine.bytes, List.drop_left]
  have named : line.name.isEmpty = false := by
    simpa using wellFormed.named
  have value : line.value.all isValueByte = true := List.all_eq_true.mpr wellFormed.valueBytes
  simp only [headerOf?, name, rest, named, value, ↓reduceIte]
  rfl

theorem bytes_free (wellFormed : line.WellFormed) : 0x0D ∉ line.bytes ∧ 0x0A ∉ line.bytes := by
  have cases : ∀ b ∈ line.bytes, isHeaderNameByte b = true ∨ b = 0x3A ∨ isValueByte b = true := by
    intro b member
    rcases List.mem_append.mp member with name | rest
    · exact .inl (wellFormed.nameBytes b name)
    · rcases List.mem_cons.mp rest with rfl | value
      · exact .inr (.inl rfl)
      · exact .inr (.inr (wellFormed.valueBytes b value))
  constructor <;> intro member <;> exact absurd (cases _ member) (by decide)

theorem bytes_filled (line : HeadLine) : line.bytes ≠ [] := by
  rw [HeadLine.bytes]
  exact List.append_ne_nil_of_right_ne_nil _ (List.cons_ne_nil _ _)

theorem line_end {content : Bytes} (whole : 0x0A ∉ content) (rest : Bytes) :
    Form.line (content ++ (lineEnd ++ rest)) = (content, rest) := by
  have inner : ∀ b ∈ content ++ [0x0D], (b != 0x0A) = true := by
    intro b member
    rcases List.mem_append.mp member with inside | final
    · exact bne_iff_ne.mpr fun same => whole (same ▸ inside)
    · rw [List.mem_singleton.mp final]
      rfl
  have text : content ++ (lineEnd ++ rest) = content ++ [0x0D] ++ 0x0A :: rest := by
    simp [lineEnd]
  have first : (content ++ (lineEnd ++ rest)).takeWhile (· != 0x0A) = content ++ [0x0D] := by
    rw [text, List.takeWhile_append_of_pos inner, List.takeWhile_cons_of_neg (by decide),
      List.append_nil]
  have later : (content ++ (lineEnd ++ rest)).drop ((content ++ [0x0D]).length + 1) = rest := by
    rw [text, ← List.drop_drop, List.drop_left]
    rfl
  rw [Form.line]
  simp only [first, later, List.getLast?_concat, List.dropLast_concat]
  rfl

theorem headers?_end (room : Nat) (rest : Bytes) : headers? room (lineEnd ++ rest) = some [] := by
  have empty := line_end (List.not_mem_nil (a := 0x0A)) rest
  rw [List.nil_append] at empty
  cases room <;> rw [headers?, empty]

theorem headers?_line (wellFormed : line.WellFormed) (room : Nat) (rest : Bytes) :
    headers? (room + 1) (line.bytes ++ (lineEnd ++ rest)) =
      (headers? room rest).map (line.entry :: ·) := by
  rw [headers?, line_end (bytes_free wellFormed).2 rest]
  obtain ⟨first, more, bytes⟩ := List.exists_cons_of_ne_nil (bytes_filled line)
  have read := headerOf?_bytes wellFormed
  rw [bytes] at read ⊢
  simp only [read, Option.bind_eq_bind, Option.bind_some]
  cases headers? room rest <;> rfl

theorem headers?_lines {lines : List HeadLine} (headed : lines ≠ [])
    (wellFormed : ∀ line ∈ lines, line.WellFormed) {room : Nat} (few : lines.length ≤ room) :
    headers? room (lineEnd.intercalate (lines.map HeadLine.bytes) ++ (lineEnd ++ lineEnd)) =
      some (lines.map HeadLine.entry) := by
  induction lines generalizing room with
  | nil => exact absurd rfl headed
  | cons line lines ih =>
      obtain ⟨room, rfl⟩ := Nat.exists_eq_add_of_le' (Nat.le_of_add_left_le few)
      have here := wellFormed line List.mem_cons_self
      cases lines with
      | nil =>
          have final := headers?_end room []
          rw [List.append_nil] at final
          rw [List.map_singleton, List.intercalate_singleton, headers?_line here, final]
          rfl
      | cons next lines =>
          have later := ih (List.cons_ne_nil _ _)
            (fun other member => wellFormed other (List.mem_cons_of_mem line member))
            (Nat.le_of_succ_le_succ few)
          rw [List.map_cons] at later
          rw [List.map_cons, List.map_cons, List.intercalate_cons_cons, List.append_assoc,
            List.append_assoc, headers?_line here, later]
          rfl

theorem passes_lineEnd {text : Bytes} {first : UInt8} {more : Bytes} (starts : text = first :: more)
    (visible : first ≠ 0x0D) (passes : Text.Passes (lineEnd ++ lineEnd) text) :
    Text.Passes (lineEnd ++ lineEnd) (lineEnd ++ text) := by
  refine Text.Passes.cons (fun rest => ?_) (Text.Passes.cons (fun rest => ?_) passes)
  · simp [lineEnd, stripStart?, starts, visible.symm]
  · simp [lineEnd, stripStart?]

/-- A search for the empty line behind a head goes past the head: in it there is a line behind every
end of a line. -/
theorem passes_head {lines : List HeadLine} (wellFormed : ∀ line ∈ lines, line.WellFormed) :
    Text.Passes (lineEnd ++ lineEnd) (lineEnd.intercalate (lines.map HeadLine.bytes)) := by
  induction lines with
  | nil => exact Text.passes_nil _
  | cons line lines ih =>
      have here : Text.Passes (lineEnd ++ lineEnd) line.bytes :=
        Text.passes_of_absent _ (bytes_free (wellFormed line List.mem_cons_self)).1
      cases lines with
      | nil => simpa using here
      | cons next lines =>
          have later := ih fun other member => wellFormed other (List.mem_cons_of_mem line member)
          have free := bytes_free (wellFormed next (List.mem_cons_of_mem line List.mem_cons_self))
          obtain ⟨first, more, bytes⟩ := List.exists_cons_of_ne_nil (bytes_filled next)
          have visible : first ≠ 0x0D := by
            rintro rfl
            exact free.1 (bytes ▸ List.mem_cons_self)
          have starts : ∃ behind, lineEnd.intercalate ((next :: lines).map HeadLine.bytes) =
              first :: behind := by
            cases lines with
            | nil => exact ⟨more, by simpa using bytes⟩
            | cons later lines =>
                rw [List.map_cons, List.map_cons, List.intercalate_cons_cons, bytes]
                exact ⟨_, rfl⟩
          obtain ⟨behind, starts⟩ := starts
          rw [List.map_cons, List.map_cons, List.intercalate_cons_cons, List.append_assoc]
          rw [List.map_cons] at later starts
          exact here.append (passes_lineEnd starts visible later)

end Head

section Parts

variable {boundary : Bytes} {part : WrittenPart}

-- Padding and the end of a line do not look like the end of a form.
theorem unfinished_padding {padding : Bytes} (padded : ∀ b ∈ padding, isGap b = true)
    (rest : Bytes) : ((padding ++ (lineEnd ++ rest)).take 2 == dashes) = false := by
  cases padding with
  | nil => rfl
  | cons b padding =>
      have different : b ≠ 0x2D := by
        rintro rfl
        exact absurd (padded 0x2D List.mem_cons_self) (by decide)
      refine beq_eq_false_iff_ne.mpr fun same => different ?_
      rw [List.cons_append, List.take_succ_cons] at same
      exact (List.cons.inj same).1

theorem next_part (oneLine : 0x0D ∉ boundary ∧ 0x0A ∉ boundary)
    (wellFormed : part.WellFormed boundary) (rest : Bytes) :
    next boundary (dashes ++ boundary ++
        (part.bytes ++ (lineEnd ++ dashes ++ boundary ++ rest))) =
      .part part.part (dashes ++ boundary ++ rest) := by
  have closing : lineEnd ++ dashes ++ boundary = 0x0D :: ([0x0A, 0x2D, 0x2D] ++ boundary) := rfl
  have once : 0x0D ∉ [0x0A, 0x2D, 0x2D] ++ boundary := by
    rw [List.mem_append, not_or]
    exact ⟨by decide, oneLine.1⟩
  have apart := wellFormed.apart
  rw [closing] at apart
  -- The pieces of the part, one behind the other.
  let content := part.data ++ (lineEnd ++ dashes ++ boundary ++ rest)
  let head := part.headBytes ++ (lineEnd ++ lineEnd ++ content)
  have text : part.bytes ++ (lineEnd ++ dashes ++ boundary ++ rest) =
      part.padding ++ (lineEnd ++ head) := by
    simp only [WrittenPart.bytes, head, content, List.append_assoc]
  have opened : stripStart? (dashes ++ boundary)
      (dashes ++ boundary ++ (part.padding ++ (lineEnd ++ head))) =
        some (part.padding ++ (lineEnd ++ head)) := stripStart?_eq_some.mpr rfl
  have gap : (part.padding ++ (lineEnd ++ head)).dropWhile isGap = lineEnd ++ head := by
    rw [List.dropWhile_append_of_pos wellFormed.padded]
    rfl
  have started : stripStart? lineEnd (lineEnd ++ head) = some head := stripStart?_eq_some.mpr rfl
  have unfinished := unfinished_padding wellFormed.padded head
  have divided : splitFirst? (lineEnd ++ lineEnd) head = some (part.headBytes, content) :=
    (passes_head wellFormed.lines).found content
  have read : headers? mostHeaders (part.headBytes ++ lineEnd ++ lineEnd) =
      some (part.head.map HeadLine.entry) := by
    rw [List.append_assoc]
    exact headers?_lines wellFormed.headed wellFormed.lines wellFormed.few
  have closed : splitFirst? (lineEnd ++ dashes ++ boundary) content = some (part.data, rest) := by
    rw [closing]
    exact Text.splitFirst?_free once apart rest
  rw [text, next, opened]
  simp only [unfinished, gap, started, divided, read, closed]
  rfl

theorem next_end (boundary epilogue : Bytes) :
    next boundary (dashes ++ boundary ++ (dashes ++ epilogue)) = .finished := by
  have opened : stripStart? (dashes ++ boundary) (dashes ++ boundary ++ (dashes ++ epilogue)) =
      some (dashes ++ epilogue) := stripStart?_eq_some.mpr rfl
  have ended : ((dashes ++ epilogue).take 2 == dashes) = true := rfl
  simp only [next, opened, ended, ↓reduceIte]

theorem firstNamed_eq (boundary : Bytes) (name : String) (bytes : Bytes) :
    firstNamed boundary name bytes = match next boundary bytes with
      | .malformed => .error ()
      | .finished => .ok none
      | .part part rest =>
          if part.name == some name then .ok (some part) else firstNamed boundary name rest := by
  rw [firstNamed]
  split <;> next found => rw [found]

theorem firstNamed_parts {parts : List WrittenPart}
    (oneLine : 0x0D ∉ boundary ∧ 0x0A ∉ boundary)
    (wellFormed : ∀ part ∈ parts, part.WellFormed boundary) (name : String) (epilogue : Bytes) :
    firstNamed boundary name (dashes ++ boundary ++ behindBoundary boundary epilogue parts) =
      .ok ((parts.map WrittenPart.part).find? fun part => part.name == some name) := by
  induction parts with
  | nil =>
      rw [firstNamed_eq, behindBoundary, next_end]
      rfl
  | cons part parts ih =>
      have later := ih fun other member => wellFormed other (List.mem_cons_of_mem part member)
      rw [firstNamed_eq, behindBoundary, next_part oneLine (wellFormed part List.mem_cons_self),
        List.map_cons, List.find?_cons]
      by_cases named : (part.part.name == some name) = true
      · simp only [named, ↓reduceIte]
      · simp only [named, later, Bool.false_eq_true, ↓reduceIte]

end Parts

def WrittenForm.part? (form : WrittenForm) (name : String) : Option Part :=
  (form.parts.map WrittenPart.part).find? fun part => part.name == some name

-- An occurrence of the boundary that began in the preamble would have the end of its last line.
theorem passes_preamble {boundary : Bytes} {form : WrittenForm}
    (wellFormed : form.WellFormed boundary) : Text.Passes (dashes ++ boundary) form.preamble := by
  have oneLine : 0x0A ∉ dashes ++ boundary := by
    rw [List.mem_append, not_or]
    exact ⟨by decide, wellFormed.oneLine.2⟩
  have apart := wellFormed.apart
  rcases wellFormed.ended with empty | ⟨before, ends⟩
  · rw [empty]
    exact Text.passes_nil _
  · have last : form.preamble = before ++ [0x0D] ++ [0x0A] := by
      rw [← ends, lineEnd, List.append_assoc, List.singleton_append]
    rw [last] at apart ⊢
    exact Text.passes_ended oneLine apart

/-- In a well-formed form, a part is found as it was written. -/
theorem find_written {boundary : String} {form : WrittenForm}
    (wellFormed : form.WellFormed (Text.Utf8.encode boundary)) (name : String) :
    find boundary name (form.bytes (Text.Utf8.encode boundary)) = .ok (form.part? name) := by
  rw [find, WrittenForm.bytes]
  simp only [(passes_preamble wellFormed).found]
  exact firstNamed_parts wellFormed.oneLine wellFormed.parts name form.epilogue

end Corpora.Http.Form
