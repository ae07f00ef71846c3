import Corpora.Text.Blank
import Mathlib.Data.List.DropRight

/-!
Trimming. A text is trimmed to nothing exactly if all of it is blank, trimming follows a change of
characters that keeps the blanks, and what is taken off the start of a trimmed text leaves no blank
at its end.
-/

namespace Corpora.Text

variable {cs behind : List Char}

def startsBlank (cs : List Char) : Bool := cs.head?.any isBlank

theorem trimEndChars_eq (cs : List Char) : trimEndChars cs = cs.rdropWhile isBlank := rfl

theorem trimStartChars_eq_self : trimStartChars cs = cs ↔ startsBlank cs = false := by
  rw [trimStartChars, List.dropWhile_eq_self_iff]
  cases cs with
  | nil => simp [startsBlank]
  | cons c cs => simp [startsBlank]

theorem trimChars_eq_nil : trimChars cs = [] ↔ ∀ c ∈ cs, isBlank c = true := by
  rw [trimChars, trimEndChars_eq, List.rdropWhile_eq_nil_iff, trimStartChars]
  constructor
  · intro blank
    -- Had the start left anything, its first character would be none of the blanks.
    have nothing : (cs.dropWhile isBlank).dropWhile isBlank = [] :=
      List.dropWhile_eq_nil_iff.mpr blank
    rw [List.dropWhile_idempotent] at nothing
    exact List.dropWhile_eq_nil_iff.mp nothing
  · intro blank c member
    exact blank c ((List.dropWhile_suffix _).subset member)

theorem trimChars_map {change : Char → Char} (kept : ∀ c, isBlank (change c) = isBlank c)
    (cs : List Char) : trimChars (cs.map change) = (trimChars cs).map change := by
  have same : isBlank ∘ change = isBlank := funext kept
  rw [trimChars, trimChars, trimStartChars, trimStartChars, List.dropWhile_map, same,
    trimEndChars, trimEndChars, ← List.map_reverse, List.dropWhile_map, same, List.map_reverse]

theorem trimEndChars_suffix (suffix : behind <:+ trimChars cs) : trimEndChars behind = behind := by
  rw [trimEndChars_eq, List.rdropWhile_eq_self_iff]
  intro filled
  have whole : trimChars cs ≠ [] := fun empty => by simp_all
  rw [suffix.getLast filled]
  exact List.rdropWhile_last_not _ _ whole

end Corpora.Text
