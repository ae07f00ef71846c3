import Corpora.Proofs.Text.Digits
import Corpora.Proofs.Text.Percent
import Corpora.Proofs.Text.Search
import Corpora.Wire.Url

/-!
Addresses in their normal form. A host is a name in small letters, or an address of the internet
protocol as such addresses are written; an authority is a host and at most a port that its scheme
does not imply. What was put together from these, from encoded segments that are no dots and from
an encoded query is read as the parts that it was put together from.
-/

namespace Corpora.Wire

open Text (splitAt isUpperLetter isDigit lowerChar)

def isNumericLabel : List Char → Bool
  | '0' :: 'x' :: digits => digits.all fun c => (Text.hexValue? c).isSome
  | label => !label.isEmpty && label.all isDigit

/-- Whether the last label of a name is a number. Such a name is read as an address. -/
def endsInNumber (name : List Char) : Bool :=
  match (splitAt '.' name).reverse with
  | [] :: label :: _ => isNumericLabel label
  | label :: _ => isNumericLabel label
  | [] => false

/-- Where the longest run of at least two zeros begins, the first of equal ones, and how long it
is. -/
def longestZeros (pieces : List UInt16) : Nat × Nat :=
  (List.range pieces.length).foldl (fun longest start =>
    let count := ((pieces.drop start).takeWhile (· == 0)).length
    if max longest.2 1 < count then (start, count) else longest) (0, 0)

def hexPiece (piece : UInt16) : List Char :=
  match (Text.hexNumber 4 piece.toNat).toList.dropWhile (· == '0') with
  | [] => ['0']
  | digits => digits

def hexPieces (pieces : List UInt16) : List Char := [':'].intercalate (pieces.map hexPiece)

def compressed (pieces : List UInt16) : List Char :=
  match longestZeros pieces with
  | (_, 0) => hexPieces pieces
  | (start, count) =>
      hexPieces (pieces.take start) ++ ':' :: ':' :: hexPieces (pieces.drop (start + count))

inductive Host where
  | name (text : List Char) (some : text ≠ [])
      (chars : ∀ c ∈ text, Url.isHostChar c = true ∧ isUpperLetter c = false)
      (named : endsInNumber text = false)
  | v4 (a b c d : UInt8)
  | v6 (pieces : List UInt16) (eight : pieces.length = 8)

def Host.text : Host → List Char
  | name text _ _ _ => text
  | v4 a b c d => ['.'].intercalate ([a, b, c, d].map fun part => Number.digits part.toNat)
  | v6 pieces _ => '[' :: (compressed pieces ++ [']'])

def maxPort : Nat := 65535

/-- A host, and perhaps a port that the scheme does not imply. -/
structure Authority (scheme : String) where
  host : Host
  port : Option Nat
  small : ∀ number, port = some number → number ≤ maxPort
  unusual : ∀ number, port = some number → Url.usualPort? scheme ≠ some number

def portText : Option Nat → List Char
  | some number => ':' :: Number.digits number
  | none => []

def Authority.text (authority : Authority scheme) : List Char :=
  authority.host.text ++ portText authority.port

def isAuthorityChar (c : Char) : Bool :=
  0x20 < c.toNat && c.toNat < 0x7F && !isUpperLetter c && !"#/?@\\".toList.contains c

theorem isAuthorityChar_of_host {c : Char} (char : Url.isHostChar c = true)
    (small : isUpperLetter c = false) : isAuthorityChar c = true := by
  simp only [Url.isHostChar, isAuthorityChar, Bool.and_eq_true, Bool.not_eq_true', small] at char ⊢
  refine ⟨⟨char.1, trivial⟩, ?_⟩
  have absent := char.2
  simp at absent ⊢
  simp only [absent, not_false_eq_true, and_self]

theorem digit_cases {c : Char} (digit : isDigit c = true) :
    ∃ n < 10, c = Number.digitChar n := by
  simp only [isDigit, Bool.and_eq_true, decide_eq_true_eq, Char.le_def,
    UInt32.le_iff_toNat_le] at digit
  have bounds : 48 ≤ c.toNat ∧ c.toNat ≤ 57 := digit
  refine ⟨c.toNat - 48, by omega, ?_⟩
  rw [Number.digitChar, Nat.add_sub_cancel' bounds.1, Char.ofNat_toNat]

theorem isHostChar_of_isDigit {c : Char} (digit : isDigit c = true) :
    Url.isHostChar c = true ∧ isUpperLetter c = false := by
  obtain ⟨n, small, rfl⟩ := digit_cases digit
  revert n
  decide

theorem hexPiece_chars (piece : UInt16) : ∀ c ∈ hexPiece piece, ∃ n < 16, c = Text.hexDigit n := by
  intro c member
  rw [hexPiece] at member
  split at member
  · exact ⟨0, by decide, List.mem_singleton.mp member⟩
  · have found := (List.dropWhile_sublist _).subset member
    rw [Text.hexNumber, String.toList_ofList, List.mem_map] at found
    obtain ⟨place, _, rfl⟩ := found
    exact ⟨_, Nat.mod_lt _ (by decide), rfl⟩

theorem hexDigit_chars {n : Nat} (small : n < 16) :
    isAuthorityChar (Text.hexDigit n) = true ∧ Text.hexDigit n ≠ ']' := by
  revert n
  decide

theorem mem_intercalate {separator c : Char} {pieces : List (List Char)}
    (member : c ∈ [separator].intercalate pieces) : c = separator ∨ ∃ piece ∈ pieces, c ∈ piece := by
  induction pieces with
  | nil => simp at member
  | cons piece pieces ih =>
      cases pieces with
      | nil => exact Or.inr ⟨piece, List.mem_cons_self, by simpa using member⟩
      | cons next pieces =>
          rw [List.intercalate_cons_cons, List.mem_append, List.mem_append,
            List.mem_singleton] at member
          rcases member with (first | same) | later
          · exact Or.inr ⟨piece, List.mem_cons_self, first⟩
          · exact Or.inl same
          · rcases ih later with same | ⟨found, among, inside⟩
            · exact Or.inl same
            · exact Or.inr ⟨found, List.mem_cons_of_mem _ among, inside⟩

theorem hexPieces_chars {pieces : List UInt16} {c : Char} (member : c ∈ hexPieces pieces) :
    isAuthorityChar c = true ∧ c ≠ ']' := by
  rcases mem_intercalate member with rfl | ⟨piece, among, inside⟩
  · decide
  · obtain ⟨piece, _, rfl⟩ := List.mem_map.mp among
    obtain ⟨n, small, rfl⟩ := hexPiece_chars piece c inside
    exact hexDigit_chars small

theorem compressed_chars {pieces : List UInt16} {c : Char} (member : c ∈ compressed pieces) :
    isAuthorityChar c = true ∧ c ≠ ']' := by
  rw [compressed] at member
  split at member
  · exact hexPieces_chars member
  · rw [List.mem_append, List.mem_cons, List.mem_cons] at member
    rcases member with front | rfl | rfl | back
    · exact hexPieces_chars front
    · decide
    · decide
    · exact hexPieces_chars back

namespace Host

theorem text_cases (host : Host) :
    (host.text ≠ [] ∧
        ∀ c ∈ host.text, Url.isHostChar c = true ∧ isUpperLetter c = false) ∨
      ∃ inner, host.text = '[' :: (inner ++ [']']) ∧
        ∀ c ∈ inner, isAuthorityChar c = true ∧ c ≠ ']' := by
  cases host with
  | name text some chars named => exact Or.inl ⟨some, chars⟩
  | v4 a b c d =>
      refine Or.inl ⟨?_, ?_⟩
      · simp [text, List.intercalate_cons_cons, Number.digits_ne_nil]
      · intro char member
        rcases mem_intercalate member with rfl | ⟨piece, among, inside⟩
        · decide
        · obtain ⟨part, _, rfl⟩ := List.mem_map.mp among
          exact isHostChar_of_isDigit (Number.digits_all _ char inside)
  | v6 pieces eight => exact Or.inr ⟨compressed pieces, rfl, fun c => compressed_chars⟩

theorem text_ne_nil (host : Host) : host.text ≠ [] := by
  rcases host.text_cases with ⟨some, _⟩ | ⟨inner, shape, _⟩
  · exact some
  · rw [shape]
    exact List.cons_ne_nil _ _

theorem text_chars (host : Host) : ∀ c ∈ host.text, isAuthorityChar c = true := by
  intro c member
  rcases host.text_cases with ⟨_, chars⟩ | ⟨inner, shape, chars⟩
  · exact isAuthorityChar_of_host (chars c member).1 (chars c member).2
  · rw [shape, List.mem_cons, List.mem_append, List.mem_singleton] at member
    rcases member with rfl | inside | rfl
    · decide
    · exact (chars c inside).1
    · decide

end Host

theorem portText_chars (port : Option Nat) : ∀ c ∈ portText port, isAuthorityChar c = true := by
  intro c member
  cases port with
  | none => simp [portText] at member
  | some number =>
      rcases List.mem_cons.mp member with rfl | inside
      · decide
      · have digit := isHostChar_of_isDigit (Number.digits_all _ c inside)
        exact isAuthorityChar_of_host digit.1 digit.2

namespace Authority

variable {scheme : String} (authority : Authority scheme)

theorem text_ne_nil : authority.text ≠ [] := by
  rw [text]
  exact List.append_ne_nil_of_left_ne_nil authority.host.text_ne_nil _

theorem text_chars : ∀ c ∈ authority.text, isAuthorityChar c = true := by
  intro c member
  rcases List.mem_append.mp member with host | port
  · exact authority.host.text_chars c host
  · exact portText_chars _ c port

end Authority

theorem isAuthorityChar_parts {c : Char} (char : isAuthorityChar c = true) :
    0x20 < c.toNat ∧ isUpperLetter c = false ∧
      c ≠ '#' ∧ c ≠ '/' ∧ c ≠ '?' ∧ c ≠ '@' ∧ c ≠ '\\' := by
  simp only [isAuthorityChar, Bool.and_eq_true, Bool.not_eq_true', decide_eq_true_eq] at char
  obtain ⟨⟨⟨above, _⟩, small⟩, free⟩ := char
  simp at free
  exact ⟨above, small, free⟩

theorem lower_authority {cs : List Char} (chars : ∀ c ∈ cs, isAuthorityChar c = true) :
    Text.lower (String.ofList cs) = String.ofList cs := by
  have kept : ∀ c ∈ cs, lowerChar c = c := by
    intro c member
    rw [lowerChar, (isAuthorityChar_parts (chars c member)).2.1]
    rfl
  rw [Text.lower, String.toList_ofList, List.map_congr_left kept, List.map_id']

theorem takeWhile_run {p : Char → Bool} {run rest : List Char} (all : ∀ c ∈ run, p c = true)
    (ends : ∀ c, rest.head? = some c → p c = false) : (run ++ rest).takeWhile p = run := by
  rw [List.takeWhile_append_of_pos all]
  cases rest with
  | nil => simp
  | cons c rest => simp [ends c rfl]

theorem takeWhile_all {p : Char → Bool} {cs : List Char} (all : ∀ c ∈ cs, p c = true) :
    cs.takeWhile p = cs := by
  have run := @takeWhile_run p cs [] all (by simp)
  rwa [List.append_nil] at run

theorem unsigned?_digits {bound number : Nat} (small : number ≤ bound) :
    Number.unsigned? bound (String.ofList (Number.digits number)) = some number := by
  unfold Number.unsigned?
  rw [String.toList_ofList]
  split
  · next rest signed => exact absurd signed (Number.digits_ne_sign (by decide))
  · dsimp only
    rw [Number.nat?_digits, Option.filter_some, if_pos (decide_eq_true small)]

theorem port?_portText {scheme : String} {port : Option Nat}
    (small : ∀ number, port = some number → number ≤ maxPort)
    (unusual : ∀ number, port = some number → Url.usualPort? scheme ≠ some number) :
    Url.port? scheme (portText port) = some port := by
  cases port with
  | none => rfl
  | some number =>
      have digits := Number.digits_all number
      have told : Number.unsigned? 65535 (String.ofList (Number.digits number)) = some number :=
        unsigned?_digits (small number rfl)
      cases shape : Number.digits number with
      | nil => exact absurd shape (Number.digits_ne_nil number)
      | cons first others =>
          rw [shape] at digits told
          have all : (first :: others).all isDigit = true := List.all_eq_true.mpr digits
          rw [portText, shape, Url.port?, if_pos all, told, Option.map_some,
            if_neg (unusual number rfl)]
          exact List.cons_ne_nil _ _

theorem hostText?_text (host : Host) (port : Option Nat) :
    Url.hostText? (host.text ++ portText port) = some (host.text, portText port) := by
  rcases host.text_cases with ⟨some, chars⟩ | ⟨inner, shape, chars⟩
  · have run : (host.text ++ portText port).takeWhile (· != ':') = host.text := by
      refine takeWhile_run (fun c member => bne_iff_ne.mpr ?_) ?_
      · rintro rfl
        exact absurd (chars ':' member).1 (by decide)
      · cases port with
        | none => simp [portText]
        | some number =>
            rintro c ⟨⟩
            rfl
    have all : host.text.all Url.isHostChar = true :=
      List.all_eq_true.mpr fun c member => (chars c member).1
    rw [Url.hostText?, run, if_pos all, List.drop_left]
    intro inner bracketed
    cases shape : host.text with
    | nil => exact some shape
    | cons first others =>
        rw [shape, List.cons_append, List.cons.injEq] at bracketed
        obtain ⟨rfl, _⟩ := bracketed
        exact absurd (chars '[' (shape ▸ List.mem_cons_self)).1 (by decide)
  · have run : (inner ++ ']' :: portText port).takeWhile (· != ']') = inner := by
      refine takeWhile_run (fun c member => bne_iff_ne.mpr (chars c member).2) ?_
      rintro c ⟨⟩
      rfl
    rw [shape, List.cons_append, List.append_assoc, List.singleton_append, Url.hostText?]
    simp only [run, List.drop_left]

namespace Authority

variable {scheme : String} (authority : Authority scheme)

theorem hostAndPort?_text : Url.hostAndPort? scheme authority.text =
    some (String.ofList authority.host.text, authority.port) := by
  have noUser : (authority.text.reverse.takeWhile (· != '@')).reverse = authority.text := by
    have all : ∀ c ∈ authority.text.reverse, (c != '@') = true := fun c member =>
      bne_iff_ne.mpr (isAuthorityChar_parts
        (authority.text_chars c (List.mem_reverse.mp member))).2.2.2.2.2.1
    rw [takeWhile_all all, List.reverse_reverse]
  have some := List.isEmpty_eq_false_iff.mpr authority.host.text_ne_nil
  rw [Url.hostAndPort?, noUser, text, hostText?_text]
  simp only [Option.bind_eq_bind, Option.bind_some, some, Bool.false_eq_true, ↓reduceIte,
    port?_portText authority.small authority.unusual, lower_authority authority.host.text_chars]
  rfl

end Authority

section Path

open Text.Percent (isEncodedChar isEncodedChar_bounds)

def pathText (segments : List (List Char)) : List Char := '/' :: ['/'].intercalate segments

def Encoded (segment : List Char) : Prop := ∀ c ∈ segment, isEncodedChar c = true

/-- A segment that is no dot and no two of them, in any of the forms of a dot. -/
structure Dotless (segment : List Char) : Prop where
  noDot : Url.isSingleDot segment = false
  noDots : Url.isDoubleDot segment = false

structure Plain (segment : List Char) : Prop extends Dotless segment where
  encoded : Encoded segment

theorem ne_of_encoded {c other : Char} (encoded : isEncodedChar c = true)
    (apart : isEncodedChar other = false) : c ≠ other := by
  rintro rfl
  exact absurd encoded (apart ▸ Bool.false_ne_true)

theorem not_contains_of_encoded {c : Char} {listed : List Char} (encoded : isEncodedChar c = true)
    (apart : listed.any isEncodedChar = false) : listed.contains c = false := by
  rw [List.contains_eq_mem, decide_eq_false_iff_not]
  intro member
  exact absurd (List.any_eq_true.mpr ⟨c, member, encoded⟩) (apart ▸ Bool.false_ne_true)

theorem not_special_of_encoded {c : Char} {listed : List Char} (encoded : isEncodedChar c = true)
    (apart : listed.any isEncodedChar = false) :
    (decide (c.toNat ≤ 0x20) || decide (0x7E < c.toNat) || listed.contains c) = false := by
  have bounds := isEncodedChar_bounds encoded
  have low : decide (c.toNat ≤ 0x20) = false := decide_eq_false (by omega)
  have high : decide (0x7E < c.toNat) = false := decide_eq_false (by omega)
  rw [low, high, not_contains_of_encoded encoded apart]
  rfl

theorem isPathEncoded_of_encoded {c : Char} (encoded : isEncodedChar c = true) :
    Url.isPathEncoded c = false :=
  not_special_of_encoded encoded (by decide)

theorem encodeWhere_plain {encoded : Char → Bool} {cs : List Char}
    (plain : ∀ c ∈ cs, encoded c = false) : Url.encodeWhere encoded cs = cs := by
  induction cs with
  | nil => rfl
  | cons c cs ih =>
      have rest := ih fun c member => plain c (List.mem_cons_of_mem _ member)
      rw [Url.encodeWhere] at rest
      rw [Url.encodeWhere, List.flatMap_cons, rest, plain c List.mem_cons_self]
      rfl

/-- What is left of a path without dots are segments of it that are none, and perhaps an empty one
at its end. -/
theorem resolve_all {holds : List Char → Prop} (blank : holds []) {segments : List (List Char)}
    (each : ∀ segment ∈ segments, Dotless segment → holds segment) {kept : List (List Char)}
    (before : ∀ segment ∈ kept, holds segment) :
    ∀ segment ∈ Url.resolve kept segments, holds segment := by
  induction segments generalizing kept with
  | nil => exact fun segment member => before segment (List.mem_reverse.mp member)
  | cons segment segments ih =>
      have later := fun {kept : List (List Char)} => @ih
        (fun other member => each other (List.mem_cons_of_mem _ member)) kept
      -- Behind dots an empty segment is kept if they are the last one.
      have closed : ∀ {kept : List (List Char)}, (∀ other ∈ kept, holds other) →
          ∀ other ∈ (if segments.isEmpty then [] :: kept else kept), holds other := by
        intro kept known other member
        split at member
        · rcases List.mem_cons.mp member with rfl | old
          · exact blank
          · exact known other old
        · exact known other member
      rw [Url.resolve]
      by_cases dots : Url.isDoubleDot segment = true
      · rw [if_pos dots]
        exact later (closed fun other member => before other (List.mem_of_mem_tail member))
      by_cases dot : Url.isSingleDot segment = true
      · rw [if_neg dots, if_pos dot]
        exact later (closed before)
      · rw [if_neg dots, if_neg dot]
        have dotless : Dotless segment :=
          ⟨Bool.eq_false_iff.mpr dot, Bool.eq_false_iff.mpr dots⟩
        refine later fun other member => ?_
        rcases List.mem_cons.mp member with rfl | old
        · exact each _ List.mem_cons_self dotless
        · exact before other old

theorem resolve_ne_nil (kept : List (List Char)) {segments : List (List Char)}
    (some : segments ≠ []) : Url.resolve kept segments ≠ [] := by
  induction segments generalizing kept with
  | nil => exact absurd rfl some
  | cons segment segments ih =>
      rw [Url.resolve]
      cases segments with
      | nil =>
          split
          · simp [Url.resolve]
          · split <;> simp [Url.resolve]
      | cons next segments =>
          have later := fun kept => ih kept (List.cons_ne_nil next segments)
          split
          · exact later _
          · split <;> exact later _

theorem resolve_dotless (kept : List (List Char)) {segments : List (List Char)}
    (dotless : ∀ segment ∈ segments, Dotless segment) :
    Url.resolve kept segments = kept.reverse ++ segments := by
  induction segments generalizing kept with
  | nil => rw [Url.resolve, List.append_nil]
  | cons segment segments ih =>
      have first := dotless segment List.mem_cons_self
      have rest := ih (segment :: kept) fun segment member =>
        dotless segment (List.mem_cons_of_mem _ member)
      rw [Url.resolve]
      simp only [first.noDots, first.noDot, Bool.false_eq_true, ↓reduceIte]
      rw [rest, List.reverse_cons, List.append_assoc, List.singleton_append]

theorem resolve_eq_self_iff {segments : List (List Char)} :
    Url.resolve [] segments = segments ↔ ∀ segment ∈ segments, Dotless segment := by
  constructor
  · intro same
    have left : ∀ segment ∈ Url.resolve [] segments, Dotless segment :=
      resolve_all ⟨by decide, by decide⟩ (fun _ _ dotless => dotless)
        (fun _ member => absurd member List.not_mem_nil)
    rwa [same] at left
  · exact resolve_dotless []

theorem resolve_encoded {segments : List (List Char)}
    (encoded : ∀ segment ∈ segments, Encoded segment) :
    ∀ segment ∈ Url.resolve [] segments, Encoded segment :=
  resolve_all (fun _ member => absurd member List.not_mem_nil)
    (fun segment member _ => encoded segment member) (fun _ member => absurd member List.not_mem_nil)

theorem pathText_chars {segments : List (List Char)}
    (encoded : ∀ segment ∈ segments, Encoded segment) :
    ∀ c ∈ pathText segments, c = '/' ∨ isEncodedChar c = true := by
  intro c member
  rcases List.mem_cons.mp member with rfl | inside
  · exact Or.inl rfl
  · rcases mem_intercalate inside with same | ⟨segment, among, found⟩
    · exact Or.inl same
    · exact Or.inr (encoded segment among c found)

theorem Encoded.no_slash {segment : List Char} (encoded : Encoded segment) : '/' ∉ segment :=
  fun slash => absurd rfl (ne_of_encoded (encoded '/' slash) (by decide))

theorem splitAt_pathText {segments : List (List Char)} (some : segments ≠ [])
    (free : ∀ segment ∈ segments, '/' ∉ segment) :
    splitAt '/' (pathText segments) = [] :: segments := by
  rw [pathText, splitAt, if_pos rfl, Text.splitAt_intercalate some free]

theorem normalPath_pathText {segments : List (List Char)} (some : segments ≠ [])
    (encoded : ∀ segment ∈ segments, Encoded segment) :
    Url.normalPath (pathText segments) =
      String.ofList (pathText (Url.resolve [] segments)) := by
  have forward : (pathText segments).map (fun c => if c = '\\' then '/' else c) =
      pathText segments := by
    refine (List.map_congr_left fun c member => if_neg ?_).trans (List.map_id' _)
    rcases pathText_chars encoded c member with rfl | char
    · decide
    · exact ne_of_encoded char (by decide)
  have pieces := splitAt_pathText some fun segment member => (encoded segment member).no_slash
  have kept : (Url.resolve [] segments).map (Url.encodeWhere Url.isPathEncoded) =
      Url.resolve [] segments := by
    refine (List.map_congr_left fun segment member => ?_).trans (List.map_id' _)
    exact encodeWhere_plain fun c inside =>
      isPathEncoded_of_encoded (resolve_encoded encoded segment member c inside)
  rw [Url.normalPath, forward, pieces]
  simp only [kept]
  rfl

end Path

section Reading

open Text.Percent (isEncodedChar isEncodedChar_bounds)

def isQueryChar (c : Char) : Bool := isEncodedChar c || c == '&' || c == '='

def queryPart (query : List Char) : List Char := if query.isEmpty then [] else '?' :: query

theorem isQueryChar_parts {c : Char} (char : isQueryChar c = true) :
    0x20 < c.toNat ∧ c ≠ '#' ∧ Url.isQueryEncoded c = false := by
  simp only [isQueryChar, Bool.or_eq_true, beq_iff_eq] at char
  rcases char with (encoded | rfl) | rfl
  · exact ⟨(isEncodedChar_bounds encoded).1, ne_of_encoded encoded (by decide),
      not_special_of_encoded encoded (by decide)⟩
  · decide
  · decide

theorem dropWhile_none {p : Char → Bool} {cs : List Char} (none : ∀ c ∈ cs, p c = false) :
    cs.dropWhile p = cs := by
  cases cs with
  | nil => rfl
  | cons c cs => rw [List.dropWhile_cons, if_neg (by simp [none c List.mem_cons_self])]

theorem cleaned_solid {cs : List Char} (solid : ∀ c ∈ cs, 0x20 < c.toNat) :
    ((cs.dropWhile (·.toNat ≤ 0x20)).reverse.dropWhile (·.toNat ≤ 0x20)).reverse.filter
      (fun c => c != '\t' && c != '\n' && c != '\r') = cs := by
  have front : cs.dropWhile (·.toNat ≤ 0x20) = cs :=
    dropWhile_none fun c member => decide_eq_false (Nat.not_le.mpr (solid c member))
  have back : cs.reverse.dropWhile (·.toNat ≤ 0x20) = cs.reverse :=
    dropWhile_none fun c member =>
      decide_eq_false (Nat.not_le.mpr (solid c (List.mem_reverse.mp member)))
  rw [front, back, List.reverse_reverse, List.filter_eq_self]
  intro c member
  have above := solid c member
  have apart : c ≠ '\t' ∧ c ≠ '\n' ∧ c ≠ '\r' := by
    refine ⟨?_, ?_, ?_⟩ <;> rintro rfl <;> exact absurd above (by decide)
  simp [apart]

variable {scheme : String}

def addressText (authority : Authority scheme) (segments : List (List Char)) (query : List Char) :
    List Char :=
  scheme.toList ++ ':' :: '/' :: '/' :: (authority.text ++ (pathText segments ++ queryPart query))

theorem scheme_chars (known : scheme = "http" ∨ scheme = "https") :
    ∀ c ∈ scheme.toList, 0x20 < c.toNat ∧ (c != ':') = true := by
  have all : scheme.toList.all (fun c => decide (0x20 < c.toNat) && c != ':') = true := by
    rcases known with rfl | rfl <;> rfl
  intro c member
  have both := List.all_eq_true.mp all c member
  rwa [Bool.and_eq_true, decide_eq_true_eq] at both

theorem addressText_solid (known : scheme = "http" ∨ scheme = "https")
    (authority : Authority scheme) {segments : List (List Char)}
    (encoded : ∀ segment ∈ segments, Encoded segment) {query : List Char}
    (queryChars : ∀ c ∈ query, isQueryChar c = true) :
    ∀ c ∈ addressText authority segments query, 0x20 < c.toNat := by
  intro c member
  simp only [addressText, queryPart, List.mem_append, List.mem_cons] at member
  rcases member with inScheme | rfl | rfl | rfl | inAuthority | inPath | inQuery
  · exact (scheme_chars known c inScheme).1
  · decide
  · decide
  · decide
  · exact (isAuthorityChar_parts (authority.text_chars c inAuthority)).1
  · rcases pathText_chars encoded c inPath with rfl | char
    · decide
    · exact (isEncodedChar_bounds char).1
  · split at inQuery
    · simp at inQuery
    · rcases List.mem_cons.mp inQuery with rfl | inside
      · decide
      · exact (isQueryChar_parts (queryChars c inside)).1

theorem drop_scheme (authority : Authority scheme) (segments : List (List Char))
    (query : List Char) : (addressText authority segments query).drop (scheme.length + 1) =
      '/' :: '/' :: (authority.text ++ (pathText segments ++ queryPart query)) := by
  have front : (scheme.toList ++ [':']).length = scheme.length + 1 := by
    rw [List.length_append, String.length_toList, List.length_singleton]
  have whole : addressText authority segments query = (scheme.toList ++ [':']) ++
      '/' :: '/' :: (authority.text ++ (pathText segments ++ queryPart query)) :=
    List.append_cons _ _ _
  rw [← front, whole, List.drop_left]

theorem dropWhile_separators (authority : Authority scheme) (rest : List Char) :
    ('/' :: '/' :: (authority.text ++ rest)).dropWhile Url.isSeparator = authority.text ++ rest := by
  rw [List.dropWhile_cons_of_pos rfl, List.dropWhile_cons_of_pos rfl]
  cases shape : authority.text with
  | nil => exact absurd shape authority.text_ne_nil
  | cons first others =>
      have char := authority.text_chars first (shape ▸ List.mem_cons_self)
      obtain ⟨_, _, _, noSlash, _, _, noBackslash⟩ := isAuthorityChar_parts char
      have separates : ¬ Url.isSeparator first = true := by
        simp [Url.isSeparator, noSlash, noBackslash]
      rw [List.cons_append, List.dropWhile_cons_of_neg separates]

theorem takeWhile_authority (authority : Authority scheme) (rest : List Char) :
    (authority.text ++ '/' :: rest).takeWhile
      (fun c => !Url.isSeparator c && c != '?' && c != '#') = authority.text := by
  refine takeWhile_run (fun c member => ?_) ?_
  · obtain ⟨_, _, noHash, noSlash, noMark, _, noBackslash⟩ :=
      isAuthorityChar_parts (authority.text_chars c member)
    simp [Url.isSeparator, noHash, noSlash, noMark, noBackslash]
  · rintro c ⟨⟩
    rfl

theorem takeWhile_path {segments : List (List Char)}
    (encoded : ∀ segment ∈ segments, Encoded segment) (query : List Char) :
    (pathText segments ++ queryPart query).takeWhile (fun c => c != '?' && c != '#') =
      pathText segments := by
  refine takeWhile_run (fun c member => ?_) ?_
  · rcases pathText_chars encoded c member with rfl | char
    · decide
    · have noMark : c ≠ '?' := ne_of_encoded char (by decide)
      have noHash : c ≠ '#' := ne_of_encoded char (by decide)
      simp [noMark, noHash]
  · rw [queryPart]
    split
    · simp
    · rintro c ⟨⟩
      rfl

/-- An address that was put together is read as its parts, apart from dots in its path. -/
theorem parse?_resolved (known : scheme = "http" ∨ scheme = "https")
    (authority : Authority scheme) {segments : List (List Char)} (some : segments ≠ [])
    (encoded : ∀ segment ∈ segments, Encoded segment) {query : List Char}
    (queryChars : ∀ c ∈ query, isQueryChar c = true) :
    Url.parse? (String.ofList (addressText authority segments query)) =
      Option.some ⟨scheme, String.ofList authority.host.text, authority.port,
        String.ofList (pathText (Url.resolve [] segments)),
        if query.isEmpty then none else Option.some (String.ofList query)⟩ := by
  have solid := addressText_solid known authority encoded queryChars
  have schemeRun : (addressText authority segments query).takeWhile (· != ':') = scheme.toList := by
    refine takeWhile_run (fun c member => (scheme_chars known c member).2) ?_
    rintro c ⟨⟩
    rfl
  have behind : ((addressText authority segments query).drop (scheme.length + 1)).dropWhile
      Url.isSeparator = authority.text ++ (pathText segments ++ queryPart query) := by
    rw [drop_scheme, dropWhile_separators]
  have authorityRun : (authority.text ++ (pathText segments ++ queryPart query)).takeWhile
      (fun c => !Url.isSeparator c && c != '?' && c != '#') = authority.text :=
    takeWhile_authority authority _
  have pathRun := takeWhile_path encoded query
  have lowered : Text.lower scheme = scheme := by
    rcases known with rfl | rfl <;> decide
  obtain ⟨usual, implied⟩ : ∃ usual, Url.usualPort? scheme = Option.some usual := by
    rcases known with rfl | rfl
    · exact ⟨80, rfl⟩
    · exact ⟨443, rfl⟩
  -- The reader takes the parts one after the other; each ends where the next begins.
  unfold Url.parse?
  simp only [String.toList_ofList, cleaned_solid solid, schemeRun, String.ofList_toList, lowered,
    implied, behind, authorityRun, authority.hostAndPort?_text, List.drop_left, pathRun,
    Option.bind_eq_bind, Option.bind_some, normalPath_pathText some encoded]
  cases query with
  | nil => rfl
  | cons first others =>
      have unmarked : (first :: others).takeWhile (· != '#') = first :: others :=
        takeWhile_all fun c member => bne_iff_ne.mpr (isQueryChar_parts (queryChars c member)).2.1
      have kept : Url.encodeWhere Url.isQueryEncoded (first :: others) = first :: others :=
        encodeWhere_plain fun c member => (isQueryChar_parts (queryChars c member)).2.2
      simp only [queryPart, List.isEmpty_cons, Bool.false_eq_true, ↓reduceIte, unmarked, kept]
      rfl

theorem parse?_addressText (known : scheme = "http" ∨ scheme = "https")
    (authority : Authority scheme) {segments : List (List Char)} (some : segments ≠ [])
    (plain : ∀ segment ∈ segments, Plain segment) {query : List Char}
    (queryChars : ∀ c ∈ query, isQueryChar c = true) :
    Url.parse? (String.ofList (addressText authority segments query)) =
      Option.some ⟨scheme, String.ofList authority.host.text, authority.port,
        String.ofList (pathText segments),
        if query.isEmpty then none else Option.some (String.ofList query)⟩ := by
  have read := parse?_resolved known authority some
    (fun segment member => (plain segment member).encoded) queryChars
  rwa [resolve_eq_self_iff.mpr fun segment member => (plain segment member).toDotless] at read

theorem withoutEndSlashes_run {front : List Char} {last : Char} (slashes : Nat) (ends : last ≠ '/') :
    Text.withoutEndSlashes (String.ofList (front ++ [last] ++ List.replicate slashes '/')) =
      String.ofList (front ++ [last]) := by
  have run : ∀ c ∈ List.replicate slashes '/', (c == '/') = true := fun c member =>
    beq_iff_eq.mpr (List.eq_of_mem_replicate member)
  have stop : ¬ (last == '/') = true := fun same => ends (beq_iff_eq.mp same)
  rw [Text.withoutEndSlashes, String.toList_ofList, List.reverse_append, List.reverse_replicate,
    List.dropWhile_append_of_pos run, List.reverse_append, List.reverse_singleton,
    List.singleton_append, List.dropWhile_cons, if_neg stop]
  simp

theorem withoutEndSlashes_authority (authority : Authority scheme) (slashes : Nat) :
    Text.withoutEndSlashes (scheme ++ "://" ++ String.ofList authority.text ++
      String.ofList (List.replicate slashes '/')) =
        scheme ++ "://" ++ String.ofList authority.text := by
  obtain ⟨front, last, shape⟩ :=
    (List.eq_nil_or_concat authority.text).resolve_left authority.text_ne_nil
  have ends : last ≠ '/' :=
    (isAuthorityChar_parts (authority.text_chars last (by simp [shape]))).2.2.2.1
  have whole : scheme ++ "://" ++ String.ofList authority.text ++
      String.ofList (List.replicate slashes '/') =
        String.ofList ((scheme.toList ++ ("://".toList ++ front)) ++ [last] ++
          List.replicate slashes '/') := by
    apply String.toList_inj.mp
    simp [shape]
  rw [whole, withoutEndSlashes_run slashes ends]
  apply String.toList_inj.mp
  simp [shape]

end Reading

end Corpora.Wire
