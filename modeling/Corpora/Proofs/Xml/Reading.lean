import Corpora.Proofs.Xml.Entity

/-!
Entities are read in one pass. The replacements are made one after the other, and each of them could
make an entity out of what the ones before left. None does: an entity opens with its only ampersand,
so none starts within another one, and none has a character that an earlier one stands for.
-/

namespace Corpora.Xml

open Text (replaceAll)

section Scan

variable {table : List (List Char × Char)} {entity text rest : List Char} {c meant : Char}

def starting? (table : List (List Char × Char)) (text : List Char) : Option (List Char × Char) :=
  table.find? fun entry => entry.1.isPrefixOf text

/-- A text read from the left: where an entity of a table starts it is exchanged, and every other
character stays. -/
def scan (table : List (List Char × Char)) : List Char → List Char
  | [] => []
  | c :: text => match starting? table (c :: text) with
      | some (_ :: entity, meant) => meant :: scan table (text.drop entity.length)
      | some ([], _) => c :: scan table text
      | none => c :: scan table text
  termination_by text => text.length
  decreasing_by all_goals simp only [List.length_drop, List.length_cons]; omega

theorem starting?_eq_none :
    starting? table text = none ↔ ∀ entry ∈ table, ¬ entry.1 <+: text := by
  simp [starting?]

theorem starting?_mem {entry : List Char × Char} (found : starting? table text = some entry) :
    entry ∈ table ∧ entry.1 <+: text :=
  ⟨List.mem_of_find?_eq_some found, by simpa using List.find?_some found⟩

theorem starting?_append (table later : List (List Char × Char)) (text : List Char) :
    starting? (table ++ later) text = (starting? table text).or (starting? later text) :=
  List.find?_append

theorem scan_nil : scan table [] = [] := by rw [scan]

theorem scan_kept (nowhere : starting? table (c :: text) = none) :
    scan table (c :: text) = c :: scan table text := by
  rw [scan, nowhere]

theorem scan_entity {first : Char}
    (found : starting? table (first :: entity ++ rest) = some (first :: entity, meant)) :
    scan table (first :: entity ++ rest) = meant :: scan table rest := by
  rw [List.cons_append] at found ⊢
  rw [scan, found]
  simp only [List.drop_left]

theorem scan_empty (text : List Char) : scan [] text = text := by
  induction text with
  | nil => exact scan_nil
  | cons c text ih => rw [scan_kept rfl, ih]

theorem prefix_of_scan {piece : List Char} (apart : ∀ entry ∈ table, entry.2 ∉ piece)
    (begins : piece <+: scan table text) : piece <+: text := by
  induction piece generalizing text with
  | nil => exact List.nil_prefix
  | cons p piece ih =>
      have later : ∀ entry ∈ table, entry.2 ∉ piece := fun entry member inside =>
        apart entry member (List.mem_cons_of_mem p inside)
      cases text with
      | nil => rwa [scan_nil] at begins
      | cons c text =>
          rw [scan] at begins
          split at begins
          · next first entity meant found =>
            have same := (List.cons_prefix_cons.mp begins).1
            exact absurd (same ▸ List.mem_cons_self) (apart _ (starting?_mem found).1)
          all_goals
            obtain ⟨rfl, behind⟩ := List.cons_prefix_cons.mp begins
            exact List.cons_prefix_cons.mpr ⟨rfl, ih later behind⟩

end Scan

section Order

variable {table : List (List Char × Char)} {entity text rest : List Char} {c meant : Char}

structure Orderly (table : List (List Char × Char)) : Prop where
  opens : ∀ entry ∈ table, entry.1.head? = some '&' ∧ '&' ∉ entry.1.tail
  apart : table.Pairwise fun earlier later => earlier.2 ∉ later.1

namespace Orderly

theorem init {later : List (List Char × Char)} (orderly : Orderly (table ++ later)) :
    Orderly table where
  opens entry member := orderly.opens entry (List.mem_append_left _ member)
  apart := (List.pairwise_append.mp orderly.apart).1

theorem starting?_plain (orderly : Orderly table) (plain : c ≠ '&') :
    starting? table (c :: text) = none := by
  refine starting?_eq_none.mpr fun entry member begins => plain ?_
  obtain ⟨name, shape⟩ := List.head?_eq_some_iff.mp (orderly.opens entry member).1
  rw [shape] at begins
  exact (List.cons_prefix_cons.mp begins).1.symm

theorem scan_plain (orderly : Orderly table) (plain : '&' ∉ text) :
    scan table (text ++ rest) = text ++ scan table rest := by
  induction text with
  | nil => rfl
  | cons c text ih =>
      rw [List.mem_cons, not_or] at plain
      rw [List.cons_append, scan_kept (orderly.starting?_plain (Ne.symm plain.1)), ih plain.2,
        List.cons_append]

section Step

variable (orderly : Orderly (table ++ [(entity, meant)]))

include orderly

theorem last_eq : ∃ name, entity = '&' :: name ∧ '&' ∉ name := by
  have member := List.mem_append_right table (List.mem_singleton_self (entity, meant))
  obtain ⟨head, once⟩ := orderly.opens _ member
  obtain ⟨name, rfl⟩ := List.head?_eq_some_iff.mp head
  exact ⟨name, rfl, once⟩

theorem apart_last : ∀ entry ∈ table, entry.2 ∉ entity := fun entry member =>
  (List.pairwise_append.mp orderly.apart).2.2 entry member _ (List.mem_singleton_self _)

theorem replaceAll_earlier {earlier : List Char} {stands : Char} (member : (earlier, stands) ∈ table)
    (text : List Char) :
    replaceAll entity [meant] (stands :: text) = stands :: replaceAll entity [meant] text := by
  obtain ⟨name, rfl, _⟩ := orderly.last_eq
  refine Text.replaceAll_cons _ fun begins => orderly.apart_last _ member ?_
  exact (List.cons_prefix_cons.mp begins).1 ▸ List.mem_cons_self

theorem replaceAll_last (nowhere : starting? table (entity ++ rest) = none) :
    replaceAll entity [meant] (scan table (entity ++ rest)) =
      meant :: replaceAll entity [meant] (scan table rest) := by
  obtain ⟨name, rfl, once⟩ := orderly.last_eq
  have kept : scan table ('&' :: name ++ rest) = '&' :: name ++ scan table rest := by
    rw [List.cons_append] at nowhere ⊢
    rw [scan_kept nowhere, orderly.init.scan_plain once, List.cons_append]
  rw [kept, Text.replaceAll_self _ (List.cons_ne_nil _ _), List.singleton_append]

theorem replaceAll_kept (nowhere : starting? table (c :: text) = none)
    (elsewhere : ¬ entity <+: c :: text) :
    replaceAll entity [meant] (scan table (c :: text)) =
      c :: replaceAll entity [meant] (scan table text) := by
  have kept := scan_kept nowhere
  rw [kept]
  refine Text.replaceAll_cons _ fun begins => elsewhere ?_
  exact prefix_of_scan orderly.apart_last (kept ▸ begins)

/-- One more replacement behind a scan is a scan for one more entity. -/
theorem replaceAll_scan (text : List Char) :
    replaceAll entity [meant] (scan table text) = scan (table ++ [(entity, meant)]) text := by
  -- The longer table decides how far each step goes, so the induction is on its scan.
  induction text using scan.induct (table ++ [(entity, meant)]) with
  | case1 =>
      obtain ⟨name, rfl, _⟩ := orderly.last_eq
      have filled : '&' :: name ≠ [] := List.cons_ne_nil _ _
      rw [scan_nil, scan_nil, Text.replaceAll_eq _ filled, (Text.passes_nil _).absent filled]
  | case2 c text first name stands found ih =>
      obtain ⟨rest, whole⟩ := (starting?_mem found).2
      have behind : text.drop name.length = rest := by
        rw [← (List.cons.inj whole).2]
        exact List.drop_left
      rw [behind] at ih
      rw [← whole] at found ⊢
      rw [scan_entity found, ← ih]
      rw [starting?_append] at found
      cases before : starting? table (first :: name ++ rest) with
      | some entry =>
          rw [before, Option.some_or, Option.some_inj] at found
          subst found
          rw [scan_entity before, orderly.replaceAll_earlier (starting?_mem before).1]
      | none =>
          rw [before, Option.none_or] at found
          obtain ⟨rfl, rfl⟩ : first :: name = entity ∧ stands = meant := by
            simpa using (starting?_mem found).1
          exact orderly.replaceAll_last before
  | case3 c text stands found ih =>
      have head := (orderly.opens _ (starting?_mem found).1).1
      cases head
  | case4 c text found ih =>
      rw [scan_kept found, ← ih]
      rw [starting?_append, Option.or_eq_none_iff] at found
      exact orderly.replaceAll_kept found.1 (starting?_eq_none.mp found.2 _ List.mem_cons_self)

end Step

/-- Behind a scan for some entities, replacing the others one after the other is one scan for all of
them. -/
theorem foldl_replaceAll {read : List (List Char × Char)} (orderly : Orderly (read ++ table))
    (text : List Char) :
    table.foldl (fun text (entity, meant) => replaceAll entity [meant] text) (scan read text) =
      scan (read ++ table) text := by
  induction table generalizing read with
  | nil => rw [List.foldl_nil, List.append_nil]
  | cons next table ih =>
      obtain ⟨entity, meant⟩ := next
      rw [List.append_cons] at orderly ⊢
      rw [List.foldl_cons, ← ih orderly, ← orderly.init.replaceAll_scan]

end Orderly

end Order

section Entities

theorem entities_orderly : Orderly entities where
  opens := by decide
  apart := by decide

theorem unescapeChars_eq_scan (text : List Char) : unescapeChars text = scan entities text := by
  have whole := Orderly.foldl_replaceAll (List.nil_append entities ▸ entities_orderly) text
  rwa [scan_empty] at whole

/-- A text read in one pass: an entity is exchanged where it starts, every other character stays, and
reading goes on behind it. -/
def readChars : List Char → List Char
  | '&' :: 'l' :: 't' :: ';' :: rest => '<' :: readChars rest
  | '&' :: 'g' :: 't' :: ';' :: rest => '>' :: readChars rest
  | '&' :: 'q' :: 'u' :: 'o' :: 't' :: ';' :: rest => '"' :: readChars rest
  | '&' :: 'a' :: 'p' :: 'o' :: 's' :: ';' :: rest => '\'' :: readChars rest
  | '&' :: 'a' :: 'm' :: 'p' :: ';' :: rest => '&' :: readChars rest
  | c :: rest => c :: readChars rest
  | [] => []

theorem scan_known {name : List Char} {meant : Char} (known : ('&' :: name, meant) ∈ entities)
    (rest : List Char) : scan entities ('&' :: name ++ rest) = meant :: scan entities rest := by
  simp only [entities, List.mem_cons, Prod.mk.injEq, List.not_mem_nil, or_false] at known
  rcases known with ⟨same, rfl⟩ | ⟨same, rfl⟩ | ⟨same, rfl⟩ | ⟨same, rfl⟩ | ⟨same, rfl⟩
  all_goals
    obtain rfl := (List.cons.inj same).2
    exact scan_entity rfl

theorem scan_entities (text : List Char) : scan entities text = readChars text := by
  induction text using readChars.induct with
  | case1 rest ih =>
      rw [readChars, ← ih]
      exact scan_known (by decide : ('&' :: ['l', 't', ';'], '<') ∈ entities) rest
  | case2 rest ih =>
      rw [readChars, ← ih]
      exact scan_known (by decide : ('&' :: ['g', 't', ';'], '>') ∈ entities) rest
  | case3 rest ih =>
      rw [readChars, ← ih]
      exact scan_known (by decide : ('&' :: ['q', 'u', 'o', 't', ';'], '"') ∈ entities) rest
  | case4 rest ih =>
      rw [readChars, ← ih]
      exact scan_known (by decide : ('&' :: ['a', 'p', 'o', 's', ';'], '\'') ∈ entities) rest
  | case5 rest ih =>
      rw [readChars, ← ih]
      exact scan_known (by decide : ('&' :: ['a', 'm', 'p', ';'], '&') ∈ entities) rest
  | case6 c rest less greater quote apostrophe ampersand ih =>
      rw [readChars, ← ih]
      · refine scan_kept (starting?_eq_none.mpr ?_)
        rintro entry member ⟨behind, whole⟩
        simp only [entities, List.mem_cons, List.not_mem_nil, or_false] at member
        rcases member with rfl | rfl | rfl | rfl | rfl <;> cases whole
        · exact less behind rfl rfl
        · exact greater behind rfl rfl
        · exact quote behind rfl rfl
        · exact apostrophe behind rfl rfl
        · exact ampersand behind rfl rfl
      all_goals assumption
  | case7 => exact scan_nil

/-- Entities are read in one pass. What an escaped ampersand stands for is not read with the text
behind it, and a text that was escaped twice loses one level. -/
theorem unescape_in_one_pass (text : String) :
    unescape text = String.ofList (readChars text.toList) ∧
    unescape ("&amp;" ++ text) = "&" ++ unescape text ∧
    unescape (escape (escape text)) = escape text := by
  have onePass (text : String) : unescape text = String.ofList (readChars text.toList) := by
    rw [unescape, unescapeChars_eq_scan, scan_entities]
  refine ⟨onePass text, ?_, unescape_escape (escape text)⟩
  have joined := @String.ofList_append ['&'] (readChars text.toList)
  rw [onePass, onePass, String.toList_append]
  exact joined

example : readChars "&amp;lt;".toList = "&lt;".toList := rfl

end Entities

end Corpora.Xml
