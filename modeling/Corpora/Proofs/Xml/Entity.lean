import Corpora.Proofs.Text.Search
import Corpora.Xml.Entity

/-!
What was escaped is read back. Each replacement of the reading turns the entities of one character
back and goes past those of the others; the ampersand comes last, so no entity is made on the way.
-/

namespace Corpora.Xml

open Text (Passes delimited replaceAll passes_delimited passes_of_absent)

def escapedAmong (left : List Char) (c : Char) : List Char :=
  if c ∈ left then escapeChar c else [c]

def escapedOnes : List Char := ['<', '>', '"', '&']

theorem escapeChar_other {c : Char} (plain : c ∉ escapedOnes) : escapeChar c = [c] := by
  simp only [escapedOnes, List.mem_cons, List.not_mem_nil, or_false, not_or] at plain
  obtain ⟨less, greater, quote, ampersand⟩ := plain
  rw [escapeChar, if_neg ampersand, if_neg less, if_neg greater, if_neg quote]

theorem escapeChars_eq (cs : List Char) :
    escapeChars cs = cs.flatMap (escapedAmong escapedOnes) := by
  have same : escapeChar = escapedAmong escapedOnes := by
    funext c
    rw [escapedAmong]
    split
    · rfl
    · next plain => exact escapeChar_other plain
  rw [escapeChars, same]

theorem escapeChars_plain (cs : List Char) : '<' ∉ escapeChars cs := by
  intro member
  obtain ⟨c, _, inside⟩ := List.mem_flatMap.mp member
  by_cases special : c ∈ escapedOnes
  · simp only [escapedOnes, List.mem_cons, List.not_mem_nil, or_false] at special
    revert inside
    rcases special with rfl | rfl | rfl | rfl <;> decide
  · rw [escapeChar_other special] at inside
    exact special (List.mem_singleton.mp inside ▸ List.mem_cons_self)

section Step

variable {name left : List Char} (whole : ';' ∉ name)
  (others : (left.all fun other =>
    escapedOnes.contains other && escapeChar other != delimited '&' ';' name) = true)

include whole others

theorem passes_escapeChar {other : Char} (member : other ∈ left) :
    Passes (delimited '&' ';' name) (escapeChar other) := by
  have apart := List.all_eq_true.mp others other member
  rw [Bool.and_eq_true, List.contains_iff_mem, bne_iff_ne] at apart
  obtain ⟨special, differ⟩ := apart
  have entity : ∃ shown, escapeChar other = delimited '&' ';' shown ∧ '&' ∉ shown ∧ ';' ∉ shown := by
    simp only [escapedOnes, List.mem_cons, List.not_mem_nil, or_false] at special
    rcases special with rfl | rfl | rfl | rfl
    · exact ⟨['l', 't'], by decide⟩
    · exact ⟨['g', 't'], by decide⟩
    · exact ⟨['q', 'u', 'o', 't'], by decide⟩
    · exact ⟨['a', 'm', 'p'], by decide⟩
  obtain ⟨shown, entity, apart, wholeShown⟩ := entity
  rw [entity] at differ ⊢
  exact passes_delimited apart (by decide) whole wholeShown fun same => differ (same ▸ rfl)

theorem replaceAll_entity {c : Char} (own : escapeChar c = delimited '&' ';' name)
    (done : c ∉ left) (later : '&' ∈ c :: left) (cs : List Char) :
    replaceAll (delimited '&' ';' name) [c] (cs.flatMap (escapedAmong (c :: left))) =
      cs.flatMap (escapedAmong left) := by
  refine Text.replaceAll_flatMap [c] Text.delimited_ne_nil (fun other => ?_) cs
  by_cases same : other = c
  · subst same
    exact Or.inl ⟨by rw [escapedAmong, if_pos List.mem_cons_self, own],
      by rw [escapedAmong, if_neg done]⟩
  · have among : other ∈ c :: left ↔ other ∈ left := by simp [same]
    refine Or.inr ⟨?_, by simp only [escapedAmong, among]⟩
    by_cases member : other ∈ left
    · rw [escapedAmong, if_pos (among.mpr member)]
      exact passes_escapeChar whole others member
    · rw [escapedAmong, if_neg fun here => member (among.mp here)]
      refine passes_of_absent _ fun ampersand => member (among.mp ?_)
      rwa [← List.mem_singleton.mp ampersand]

theorem replaceAll_unused {c : Char} (later : '&' ∈ left) (cs : List Char) :
    replaceAll (delimited '&' ';' name) [c] (cs.flatMap (escapedAmong left)) =
      cs.flatMap (escapedAmong left) := by
  refine Text.replaceAll_flatMap [c] Text.delimited_ne_nil (fun other => Or.inr ⟨?_, rfl⟩) cs
  by_cases member : other ∈ left
  · rw [escapedAmong, if_pos member]
    exact passes_escapeChar whole others member
  · rw [escapedAmong, if_neg member]
    refine passes_of_absent _ fun ampersand => member ?_
    rwa [← List.mem_singleton.mp ampersand]

end Step

theorem unescapeChars_escapeChars (cs : List Char) : unescapeChars (escapeChars cs) = cs := by
  have less := @replaceAll_entity ['l', 't'] ['>', '"', '&'] (by decide) (by decide) '<' (by decide)
    (by decide) (by decide) cs
  have greater := @replaceAll_entity ['g', 't'] ['"', '&'] (by decide) (by decide) '>' (by decide)
    (by decide) (by decide) cs
  have quote := @replaceAll_entity ['q', 'u', 'o', 't'] ['&'] (by decide) (by decide) '"' (by decide)
    (by decide) (by decide) cs
  have apostrophe := @replaceAll_unused ['a', 'p', 'o', 's'] ['&'] (by decide) (by decide) '\''
    (by decide) cs
  have ampersand := @replaceAll_entity ['a', 'm', 'p'] [] (by decide) (by decide) '&' (by decide)
    (by decide) (by decide) cs
  have none : cs.flatMap (escapedAmong []) = cs := List.flatMap_singleton' cs
  rw [escapeChars_eq, unescapeChars]
  change replaceAll (delimited '&' ';' ['a', 'm', 'p']) ['&']
    (replaceAll (delimited '&' ';' ['a', 'p', 'o', 's']) ['\'']
      (replaceAll (delimited '&' ';' ['q', 'u', 'o', 't']) ['"']
        (replaceAll (delimited '&' ';' ['g', 't']) ['>']
          (replaceAll (delimited '&' ';' ['l', 't']) ['<']
            (cs.flatMap (escapedAmong ['<', '>', '"', '&'])))))) = cs
  rw [less, greater, quote, apostrophe, ampersand, none]

/-- A text is read back from its escaped form. -/
theorem unescape_escape (text : String) : unescape (escape text) = text := by
  rw [unescape, escape, String.toList_ofList, unescapeChars_escapeChars, String.ofList_toList]

end Corpora.Xml
