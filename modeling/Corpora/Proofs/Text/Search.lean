import Corpora.Text.Search

/-!
Where a search ends and what splitting gives. A piece that starts with a character which does not
stand before it is found where it stands, and pieces that were joined by a character which is in
none of them are told apart again. A search goes past a text if no occurrence of the piece starts
in it, whatever stands behind it; what is made of such texts can be searched part by part.
-/

namespace Corpora.Text

section Search

variable {α : Type} [DecidableEq α]

theorem splitFrom_here {first : α} {piece passed before behind : List α} (absent : first ∉ before) :
    splitFrom (first :: piece) passed (before ++ (first :: piece ++ behind)) =
      some (passed.reverse ++ before, behind) := by
  induction before generalizing passed with
  | nil =>
      have here : stripStart? (first :: piece) (first :: piece ++ behind) = some behind :=
        stripStart?_eq_some.mpr rfl
      rw [List.nil_append, List.cons_append, splitFrom, ← List.cons_append, here, List.append_nil]
  | cons c before ih =>
      rw [List.mem_cons, not_or] at absent
      have elsewhere : stripStart? (first :: piece) (c :: (before ++ (first :: piece ++ behind))) =
          none := by
        rw [stripStart?, if_neg absent.1]
      rw [List.cons_append, splitFrom, elsewhere]
      simp only [ih absent.2, List.reverse_cons, List.append_assoc, List.singleton_append]

theorem splitFirst?_here {first : α} {piece before behind : List α} (absent : first ∉ before) :
    splitFirst? (first :: piece) (before ++ (first :: piece ++ behind)) = some (before, behind) :=
  splitFrom_here absent

def splitLast? (piece text : List α) : Option (List α × List α) :=
  (splitFirst? piece.reverse text.reverse).map fun (behind, before) =>
    (before.reverse, behind.reverse)

theorem splitLast?_here {last : α} {piece before behind : List α} (absent : last ∉ behind) :
    splitLast? (piece ++ [last]) (before ++ (piece ++ [last]) ++ behind) = some (before, behind) := by
  have turned : (before ++ (piece ++ [last]) ++ behind).reverse =
      behind.reverse ++ (last :: piece.reverse ++ before.reverse) := by
    simp
  have absent : last ∉ behind.reverse := by rwa [List.mem_reverse]
  rw [splitLast?, turned, List.reverse_append, List.reverse_singleton, List.singleton_append,
    splitFirst?_here absent]
  simp

end Search

section Pieces

variable {stop : Char}

theorem splitAt_cons (cs : List Char) : ∃ piece pieces, splitAt stop cs = piece :: pieces := by
  induction cs with
  | nil => exact ⟨[], [], rfl⟩
  | cons c cs ih =>
      obtain ⟨piece, pieces, split⟩ := ih
      by_cases same : c = stop
      · exact ⟨[], splitAt stop cs, by rw [splitAt, if_pos same]⟩
      · exact ⟨c :: piece, pieces, by rw [splitAt, if_neg same, split]⟩

theorem splitAt_free {piece : List Char} (free : stop ∉ piece) : splitAt stop piece = [piece] := by
  induction piece with
  | nil => rfl
  | cons c piece ih =>
      rw [List.mem_cons, not_or] at free
      rw [splitAt, if_neg (Ne.symm free.1), ih free.2]

theorem splitAt_append {piece : List Char} (free : stop ∉ piece) (rest : List Char) :
    splitAt stop (piece ++ stop :: rest) = piece :: splitAt stop rest := by
  induction piece with
  | nil => rw [List.nil_append, splitAt, if_pos rfl]
  | cons c piece ih =>
      rw [List.mem_cons, not_or] at free
      rw [List.cons_append, splitAt, if_neg (Ne.symm free.1), ih free.2]

theorem splitAt_intercalate {pieces : List (List Char)} (some : pieces ≠ [])
    (free : ∀ piece ∈ pieces, stop ∉ piece) : splitAt stop ([stop].intercalate pieces) = pieces := by
  induction pieces with
  | nil => exact absurd rfl some
  | cons piece pieces ih =>
      have first := free piece List.mem_cons_self
      cases pieces with
      | nil => simpa using splitAt_free first
      | cons next pieces =>
          have rest := ih (List.cons_ne_nil _ _) fun piece member =>
            free piece (List.mem_cons_of_mem _ member)
          rw [List.intercalate_cons_cons, List.append_assoc, List.singleton_append,
            splitAt_append first, rest]

theorem intercalate_splitAt (cs : List Char) : [stop].intercalate (splitAt stop cs) = cs := by
  induction cs with
  | nil => rfl
  | cons c cs ih =>
      obtain ⟨piece, pieces, split⟩ := @splitAt_cons stop cs
      rw [split] at ih
      by_cases same : c = stop
      · rw [splitAt, if_pos same, split, List.intercalate_cons_cons, ih, same]
        rfl
      · rw [splitAt, if_neg same, split]
        cases pieces with
        | nil => simpa using ih
        | cons next pieces =>
            rw [List.intercalate_cons_cons] at ih ⊢
            rw [List.cons_append, List.cons_append, ih]

end Pieces

section Passing

variable {α : Type} [DecidableEq α] {piece text other : List α}

theorem splitFrom_eq_map (passed text : List α) : splitFrom piece passed text =
    (splitFirst? piece text).map fun parts => (passed.reverse ++ parts.1, parts.2) := by
  rw [splitFirst?]
  induction text generalizing passed with
  | nil =>
      rw [splitFrom, splitFrom]
      split <;> simp
  | cons c text ih =>
      rw [splitFrom, splitFrom]
      cases stripStart? piece (c :: text) with
      | some behind => simp
      | none =>
          simp only [ih (c :: passed), ih [c], Option.map_map]
          congr 1
          funext parts
          simp

theorem stripStart?_eq_none : stripStart? piece text = none ↔ ¬ piece <+: text := by
  rw [Option.eq_none_iff_forall_ne_some]
  constructor
  · rintro nowhere ⟨behind, rfl⟩
    exact nowhere behind (stripStart?_eq_some.mpr rfl)
  · intro elsewhere behind found
    exact elsewhere ⟨behind, (stripStart?_eq_some.mp found).symm⟩

theorem splitFirst?_cons {c : α} (elsewhere : ¬ piece <+: c :: text) :
    splitFirst? piece (c :: text) =
      (splitFirst? piece text).map fun parts => (c :: parts.1, parts.2) := by
  rw [splitFirst?, splitFrom, stripStart?_eq_none.mpr elsewhere]
  exact splitFrom_eq_map [c] text

/-- A search for a piece goes past a text, whatever stands behind it. -/
def Passes (piece text : List α) : Prop :=
  ∀ rest, splitFirst? piece (text ++ rest) =
    (splitFirst? piece rest).map fun parts => (text ++ parts.1, parts.2)

theorem passes_nil (piece : List α) : Passes piece [] := fun rest => by
  simp

theorem Passes.append (first : Passes piece text) (second : Passes piece other) :
    Passes piece (text ++ other) := by
  intro rest
  rw [List.append_assoc, first, second, Option.map_map]
  simp only [Function.comp_def, List.append_assoc]

theorem Passes.cons {c : α} (elsewhere : ∀ rest, stripStart? piece (c :: (text ++ rest)) = none)
    (passes : Passes piece text) : Passes piece (c :: text) := by
  intro rest
  rw [List.cons_append, splitFirst?_cons (stripStart?_eq_none.mp (elsewhere rest)), passes rest,
    Option.map_map]
  rfl

theorem passes_of_absent {first : α} (piece : List α) (absent : first ∉ text) :
    Passes (first :: piece) text := by
  induction text with
  | nil => exact passes_nil _
  | cons c text ih =>
      rw [List.mem_cons, not_or] at absent
      refine Passes.cons (fun rest => ?_) (ih absent.2)
      rw [stripStart?, if_neg absent.1]

theorem Passes.flatMap {β : Type} {parts : List β} {chars : β → List α}
    (each : ∀ part ∈ parts, Passes piece (chars part)) : Passes piece (parts.flatMap chars) := by
  induction parts with
  | nil => exact passes_nil _
  | cons part parts ih =>
      rw [List.flatMap_cons]
      exact (each part List.mem_cons_self).append
        (ih fun later member => each later (List.mem_cons_of_mem _ member))

theorem splitFirst?_self (piece rest : List α) :
    splitFirst? piece (piece ++ rest) = some ([], rest) := by
  have here : stripStart? piece (piece ++ rest) = some rest := stripStart?_eq_some.mpr rfl
  rw [splitFirst?]
  cases whole : piece ++ rest with
  | nil =>
      obtain ⟨rfl, rfl⟩ := List.append_eq_nil_iff.mp whole
      rfl
  | cons c text =>
      rw [whole] at here
      rw [splitFrom, here]
      rfl

theorem Passes.found (passes : Passes piece text) (rest : List α) :
    splitFirst? piece (text ++ (piece ++ rest)) = some (text, rest) := by
  rw [passes, splitFirst?_self, Option.map_some, List.append_nil]

/-- No occurrence starts in a text in which the piece does not occur, if it has its first character
nowhere else: an occurrence that ended behind the text would have that character twice. -/
theorem stripStart?_free {first c : α} {before : List α} (once : first ∉ piece)
    (free : ¬ first :: piece <:+: c :: before) (behind : List α) :
    stripStart? (first :: piece) (c :: before ++ (first :: piece ++ behind)) = none := by
  cases found : stripStart? (first :: piece) (c :: before ++ (first :: piece ++ behind)) with
  | none => rfl
  | some after =>
      exfalso
      rcases List.append_eq_append_iff.mp (stripStart?_eq_some.mp found) with
        ⟨middle, across, rest⟩ | ⟨middle, within, _⟩
      · cases middle with
        | nil =>
            rw [List.append_nil] at across
            exact free (across ▸ List.infix_refl _)
        | cons m middle =>
            obtain rfl : first = m := (List.cons.inj rest).1
            have inside : piece = before ++ first :: middle := (List.cons.inj across).2
            exact once (inside ▸ List.mem_append_right _ List.mem_cons_self)
      · exact free (within ▸ (List.prefix_append _ _).isInfix)

theorem splitFirst?_free {first : α} {before : List α} (once : first ∉ piece)
    (free : ¬ first :: piece <:+: before) (behind : List α) :
    splitFirst? (first :: piece) (before ++ (first :: piece ++ behind)) = some (before, behind) := by
  induction before with
  | nil => exact splitFirst?_self (first :: piece) behind
  | cons c before ih =>
      have later := ih fun within => free (within.trans (List.suffix_cons c before).isInfix)
      have here := stripStart?_eq_none.mp (stripStart?_free once free behind)
      rw [List.cons_append] at here
      rw [List.cons_append, splitFirst?_cons here, later, Option.map_some]

theorem passes_ended {last : α} {before : List α} (absent : last ∉ piece)
    (free : ¬ piece <:+: before ++ [last]) : Passes piece (before ++ [last]) := by
  have elsewhere : ∀ (text rest : List α), ¬ piece <:+: text ++ [last] →
      stripStart? piece (text ++ [last] ++ rest) = none := by
    intro text rest free
    cases found : stripStart? piece (text ++ [last] ++ rest) with
    | none => rfl
    | some after =>
        exfalso
        rcases List.append_eq_append_iff.mp (stripStart?_eq_some.mp found) with
          ⟨middle, across, _⟩ | ⟨middle, within, _⟩
        · exact absent (across ▸ by simp)
        · exact free (within ▸ (List.prefix_append _ _).isInfix)
  induction before with
  | nil => exact Passes.cons (fun rest => elsewhere [] rest free) (passes_nil piece)
  | cons c before ih =>
      refine Passes.cons (fun rest => elsewhere (c :: before) rest free) (ih fun within => free ?_)
      exact within.trans (List.suffix_cons c _).isInfix

theorem Passes.absent (passes : Passes piece text) (filled : piece ≠ []) :
    splitFirst? piece text = none := by
  have nowhere : splitFirst? piece [] = none := by
    rw [splitFirst?, splitFrom, if_neg filled]
  have whole := passes []
  rwa [List.append_nil, nowhere] at whole

end Passing

section First

variable {α : Type} {piece text before behind : List α} {c : α}

/-- Nowhere in the text that is put together from the three does the piece start further left. -/
def IsFirst (piece before behind : List α) : Prop :=
  ∀ earlier later, before ++ piece ++ behind = earlier ++ piece ++ later →
    before.length ≤ earlier.length

theorem isFirst_nil : IsFirst piece [] behind := fun _ _ _ => Nat.zero_le _

theorem isFirst_cons_iff :
    IsFirst piece (c :: before) behind ↔
      ¬ piece <+: c :: (before ++ piece ++ behind) ∧ IsFirst piece before behind := by
  constructor
  · refine fun first => ⟨?_, fun earlier later same => ?_⟩
    · rintro ⟨later, same⟩
      exact absurd (first [] later same.symm) (Nat.not_succ_le_zero _)
    · refine Nat.le_of_succ_le_succ (first (c :: earlier) later ?_)
      rw [List.cons_append, List.cons_append, same, List.cons_append, List.cons_append]
  · rintro ⟨elsewhere, first⟩ earlier later same
    cases earlier with
    | nil => exact absurd ⟨later, same.symm⟩ elsewhere
    | cons e earlier => exact Nat.succ_le_succ (first earlier later (List.cons.inj same).2)

variable [DecidableEq α]

theorem splitFirst?_of_isFirst (first : IsFirst piece before behind) :
    splitFirst? piece (before ++ piece ++ behind) = some (before, behind) := by
  induction before with
  | nil => exact splitFirst?_self piece behind
  | cons c before ih =>
      obtain ⟨elsewhere, later⟩ := isFirst_cons_iff.mp first
      rw [List.cons_append, List.cons_append, splitFirst?_cons elsewhere, ih later]
      rfl

theorem isFirst_of_splitFirst? (found : splitFirst? piece text = some (before, behind)) :
    IsFirst piece before behind := by
  have whole := splitFirst?_eq found
  induction text generalizing before with
  | nil =>
      have empty := List.append_eq_nil_iff.mp (List.append_eq_nil_iff.mp whole.symm).1
      exact empty.1 ▸ isFirst_nil
  | cons c text ih =>
      by_cases begins : piece <+: c :: text
      · obtain ⟨later, same⟩ := begins
        rw [← same, splitFirst?_self] at found
        cases found
        exact isFirst_nil
      · rw [splitFirst?_cons begins] at found
        obtain ⟨⟨passed, behind⟩, later, rfl, rfl⟩ := Option.map_eq_some_iff.mp found
        rw [whole] at begins
        exact isFirst_cons_iff.mpr ⟨begins, ih later (splitFirst?_eq later)⟩

/-- What a search finds is the first occurrence. -/
theorem splitFirst?_eq_some_iff :
    splitFirst? piece text = some (before, behind) ↔
      text = before ++ piece ++ behind ∧ IsFirst piece before behind := by
  constructor
  · exact fun found => ⟨splitFirst?_eq found, isFirst_of_splitFirst? found⟩
  · rintro ⟨rfl, first⟩
    exact splitFirst?_of_isFirst first

theorem splitFirst?_eq_none_iff : splitFirst? piece text = none ↔ ¬ piece <:+: text := by
  induction text with
  | nil => 
    rw [splitFirst?, splitFrom, List.infix_nil]
    simp
  | cons c text ih =>
      rw [List.infix_cons_iff, not_or, ← ih]
      by_cases begins : piece <+: c :: text
      · obtain ⟨later, same⟩ := begins
        rw [← same, splitFirst?_self]
        simp
      · rw [splitFirst?_cons begins, Option.map_eq_none_iff, and_iff_right begins]

end First

section Delimited

variable {first last : Char} {name other : List Char}

def delimited (first last : Char) (name : List Char) : List Char := first :: (name ++ [last])

theorem delimited_ne_nil : delimited first last name ≠ [] := List.cons_ne_nil _ _

theorem passes_delimited (apart : first ∉ other) (ends : first ≠ last) (whole : last ∉ name)
    (wholeOther : last ∉ other) (differ : name ≠ other) :
    Passes (delimited first last name) (delimited first last other) := by
  refine Passes.cons (fun rest => ?_) ?_
  · -- Up to the last character the two names would have to be the same.
    cases found : stripStart? (delimited first last name) (first :: (other ++ [last] ++ rest)) with
    | none => rfl
    | some behind =>
        have texts : other ++ last :: rest = name ++ last :: behind := by
          simpa [delimited] using stripStart?_eq_some.mp found
        have pieces := congrArg (splitAt last) texts
        rw [splitAt_append wholeOther, splitAt_append whole] at pieces
        exact absurd (List.cons.inj pieces).1.symm differ
  · refine passes_of_absent _ fun member => ?_
    rcases List.mem_append.mp member with inside | final
    · exact apart inside
    · exact ends (List.mem_singleton.mp final)

end Delimited

section Replacing

variable {α : Type} [DecidableEq α] {piece text : List α} (substitute : List α)

theorem replaceAll_eq (filled : piece ≠ []) (text : List α) :
    replaceAll piece substitute text = match splitFirst? piece text with
      | some (before, behind) => before ++ substitute ++ replaceAll piece substitute behind
      | none => text := by
  rw [replaceAll, dif_neg filled]
  split <;> next found => rw [found]

theorem replaceAll_passes (filled : piece ≠ []) (passes : Passes piece text) (rest : List α) :
    replaceAll piece substitute (text ++ rest) = text ++ replaceAll piece substitute rest := by
  rw [replaceAll_eq substitute filled, replaceAll_eq substitute filled rest, passes rest]
  cases splitFirst? piece rest with
  | none => rfl
  | some parts => simp only [Option.map_some, List.append_assoc]

theorem replaceAll_self (filled : piece ≠ []) (rest : List α) :
    replaceAll piece substitute (piece ++ rest) =
      substitute ++ replaceAll piece substitute rest := by
  rw [replaceAll_eq substitute filled, splitFirst?_self]
  rfl

theorem replaceAll_cons {c : α} (elsewhere : ¬ piece <+: c :: text) :
    replaceAll piece substitute (c :: text) = c :: replaceAll piece substitute text := by
  have filled : piece ≠ [] := fun empty => elsewhere (empty ▸ List.nil_prefix)
  rw [replaceAll_eq substitute filled, replaceAll_eq substitute filled text,
    splitFirst?_cons elsewhere]
  cases splitFirst? piece text with
  | none => rfl
  | some parts => rfl

/-- Parts that are each the piece, or that a search for it goes past, are replaced one by one. -/
theorem replaceAll_flatMap {β : Type} {before after : β → List α} (filled : piece ≠ [])
    (each : ∀ part, before part = piece ∧ after part = substitute ∨
      Passes piece (before part) ∧ after part = before part) (parts : List β) :
    replaceAll piece substitute (parts.flatMap before) = parts.flatMap after := by
  induction parts with
  | nil =>
      rw [List.flatMap_nil, List.flatMap_nil, replaceAll_eq substitute filled,
        (passes_nil piece).absent filled]
  | cons part parts ih =>
      rw [List.flatMap_cons, List.flatMap_cons, ← ih]
      rcases each part with ⟨same, changed⟩ | ⟨passes, kept⟩
      · rw [same, changed, replaceAll_self substitute filled]
      · rw [kept, replaceAll_passes substitute filled passes]

end Replacing

end Corpora.Text
