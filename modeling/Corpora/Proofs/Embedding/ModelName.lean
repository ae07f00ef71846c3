import Corpora.Embedding.Provider
import Corpora.Proofs.Text.Blank
import Corpora.Proofs.Text.Letters

/-!
Names of models. A name loses the blanks around it and the families in small letters in front of it
before its letters are made small, so that what comes out may start with a blank or a family again.
It is a normal form where that does not happen.
-/

namespace Corpora.Embedding

open Text (isBlank lowerChar upperChar startsBlank trimChars trimStartChars trimEndChars)

section Stripping

variable {piece cs : List Char}

theorem stripRepeated_absent (absent : ¬ piece <+: cs) : stripRepeated piece cs = cs := by
  rw [stripRepeated]
  split
  · next rest found => exact absurd ⟨rest, (Text.stripStart?_eq_some.mp found).symm⟩ absent
  · rfl

theorem stripRepeated_append (filled : piece ≠ []) (cs : List Char) :
    stripRepeated piece (piece ++ cs) = stripRepeated piece cs := by
  rw [stripRepeated]
  split
  · next rest found =>
    rw [dif_neg filled, List.append_cancel_left (Text.stripStart?_eq_some.mp found)]
  · next absent =>
    rw [Text.stripStart?_eq_some.mpr rfl] at absent
    cases absent

theorem stripRepeated_parts (filled : piece ≠ []) (cs : List Char) :
    ∃ count, cs = (List.replicate count piece).flatten ++ stripRepeated piece cs ∧
      ¬ piece <+: stripRepeated piece cs := by
  fun_induction stripRepeated piece cs with
  | case1 cs rest found empty => exact absurd empty filled
  | case2 cs rest found _ ih =>
      obtain ⟨count, parts, clear⟩ := ih
      refine ⟨count + 1, ?_, clear⟩
      rw [List.replicate_succ, List.flatten_cons, List.append_assoc, ← parts]
      exact Text.stripStart?_eq_some.mp found
  | case3 cs absent =>
      refine ⟨0, rfl, fun starts => ?_⟩
      obtain ⟨rest, rfl⟩ := starts
      rw [Text.stripStart?_eq_some.mpr rfl] at absent
      cases absent

theorem stripRepeated_suffix (filled : piece ≠ []) (cs : List Char) :
    stripRepeated piece cs <:+ cs := by
  obtain ⟨count, parts, -⟩ := stripRepeated_parts filled cs
  exact ⟨_, parts.symm⟩

end Stripping

def family : List Char := modelFamily.toList

def stem (cs : List Char) : List Char := stripRepeated family (trimChars cs)

theorem family_filled : family ≠ [] := by decide

theorem family_lower : family.map lowerChar = family := by decide

theorem normalizeModel_toList (name : String) :
    (normalizeModel name).toList = (stem name.toList).map lowerChar := by
  rw [normalizeModel, Text.lower, String.toList_ofList, String.toList_ofList]
  rfl

theorem stem_suffix (cs : List Char) : stem cs <:+ trimChars cs :=
  stripRepeated_suffix family_filled _

section Settled

-- Of a stem only the start can be trimmed, since its end is the end of a trimmed name.
theorem trimChars_stem (cs : List Char) : trimChars (stem cs) = trimStartChars (stem cs) :=
  Text.trimEndChars_suffix ((List.dropWhile_suffix _).trans (stem_suffix cs))

theorem trimChars_lower (cs : List Char) :
    trimChars (cs.map lowerChar) = (trimChars cs).map lowerChar :=
  Text.trimChars_map Text.isBlank_lowerChar cs

theorem startsBlank_lower (cs : List Char) :
    startsBlank (cs.map lowerChar) = startsBlank cs := by
  cases cs with
  | nil => rfl
  | cons c cs => exact Text.isBlank_lowerChar c

/-- A name that was normalised is normalised again to itself exactly if what was left of it started
neither with a blank nor, in whatever letters, with a family. -/
theorem normalizeModel_twice_iff (name : String) :
    normalizeModel (normalizeModel name) = normalizeModel name ↔
      startsBlank (stem name.toList) = false ∧ ¬ family <+: (stem name.toList).map lowerChar := by
  let shown := (stem name.toList).map lowerChar
  have trimmed : trimChars shown = trimStartChars shown := by
    have kept : isBlank ∘ lowerChar = isBlank := funext Text.isBlank_lowerChar
    rw [trimChars_lower, trimChars_stem, trimStartChars, trimStartChars, List.dropWhile_map, kept]
  have again : (normalizeModel (normalizeModel name)).toList = (stem shown).map lowerChar := by
    rw [normalizeModel_toList, normalizeModel_toList]
  rw [← String.toList_inj, again, normalizeModel_toList, ← startsBlank_lower]
  constructor
  · intro same
    -- Nothing can have been taken off if no character is missing.
    have whole : stem shown = shown := by
      have suffix : stem shown <:+ shown :=
        (stem_suffix shown).trans (trimmed ▸ List.dropWhile_suffix _)
      exact suffix.eq_of_length (by simpa [shown] using congrArg List.length same)
    have solid : trimStartChars shown = shown := by
      have inner : shown <:+ trimStartChars shown := by
        have suffix := stem_suffix shown
        rwa [whole, trimmed] at suffix
      exact ((List.dropWhile_suffix _).eq_of_length_le inner.length_le)
    obtain ⟨count, -, clear⟩ := stripRepeated_parts family_filled (trimChars shown)
    refine ⟨Text.trimStartChars_eq_self.mp solid, ?_⟩
    have left : stripRepeated family (trimChars shown) = shown := whole
    rwa [left] at clear
  · rintro ⟨solid, clear⟩
    have whole : stem shown = shown := by
      rw [stem, trimmed, Text.trimStartChars_eq_self.mpr solid, stripRepeated_absent clear]
    rw [whole]
    exact Text.map_lowerChar_map lowerChar Text.lowerChar_lowerChar _

end Settled

section Letters

variable {name other : String}

theorem lower_toList (text : String) : (Text.lower text).toList = text.toList.map lowerChar :=
  String.toList_ofList

theorem normalizeModel_familyless
    (clear : ¬ family <+: trimChars (Text.lower name).toList) :
    (normalizeModel name).toList = trimChars (Text.lower name).toList := by
  rw [lower_toList, trimChars_lower] at clear ⊢
  have absent : ¬ family <+: trimChars name.toList := by
    intro starts
    have small := starts.map lowerChar
    rw [family_lower] at small
    exact clear small
  rw [normalizeModel_toList, stem, stripRepeated_absent absent]

/-- A name with a family in front, in whatever letters, loses it where all letters are small and
keeps it where all are capitals. -/
theorem normalizeModel_apart (starts : family <+: trimChars (Text.lower name).toList) :
    normalizeModel (Text.lower name) ≠ normalizeModel (Text.upper (Text.lower name)) := by
  obtain ⟨rest, parts⟩ := starts
  have small : (normalizeModel (Text.lower name)).toList.length ≤ rest.length := by
    rw [normalizeModel_toList, List.length_map, stem, ← parts, stripRepeated_append family_filled]
    exact (stripRepeated_suffix family_filled rest).length_le
  have capitals : trimChars (Text.upper (Text.lower name)).toList =
      family.map upperChar ++ rest.map upperChar := by
    rw [Text.upper, String.toList_ofList, Text.trimChars_map Text.isBlank_upperChar, ← parts,
      List.map_append]
  have absent : ¬ family <+: family.map upperChar ++ rest.map upperChar := by
    intro starts
    have same := List.prefix_iff_eq_take.mp starts
    rw [List.take_left' (by simp)] at same
    exact absurd same (by decide)
  have large : (normalizeModel (Text.upper (Text.lower name))).toList.length =
      family.length + rest.length := by
    rw [normalizeModel_toList, List.length_map, stem, capitals, stripRepeated_absent absent]
    simp
  intro same
  have long := List.length_pos_iff.mpr family_filled
  rw [← same] at large
  omega

theorem normalizeModel_letters_iff (name : String) :
    (∀ other, Text.lower other = Text.lower name → normalizeModel other = normalizeModel name) ↔
      ¬ family <+: trimChars (Text.lower name).toList := by
  constructor
  · intro alike starts
    have forgotten : Text.lower (Text.lower name) = Text.lower name := by
      rw [← String.toList_inj, lower_toList, lower_toList,
        Text.map_lowerChar_map lowerChar Text.lowerChar_lowerChar]
    have capitals : Text.lower (Text.upper (Text.lower name)) = Text.lower name := by
      rw [← String.toList_inj, lower_toList, Text.upper, String.toList_ofList,
        Text.map_lowerChar_map upperChar Text.lowerChar_upperChar, ← lower_toList, forgotten]
    exact normalizeModel_apart starts ((alike _ forgotten).trans (alike _ capitals).symm)
  · intro clear other same
    rw [← String.toList_inj, normalizeModel_familyless clear, ← same]
    exact normalizeModel_familyless (same ▸ clear)

end Letters

/-- A name is trimmed, loses the families in small letters that are in front of it, and what is left
is made small. Normalising that again changes nothing exactly if what was left starts neither with
a blank nor, in whatever letters, with a family; and all names that differ from this one in their
letters only are normalised alike exactly if it has no family in front in any letters. -/
theorem normalizeModel_settles_iff (name : String) :
    (∃ count, trimChars name.toList =
        (List.replicate count family).flatten ++ stem name.toList ∧
      ¬ family <+: stem name.toList ∧
      (normalizeModel name).toList = (stem name.toList).map lowerChar) ∧
    (normalizeModel (normalizeModel name) = normalizeModel name ↔
      startsBlank (stem name.toList) = false ∧ ¬ family <+: (stem name.toList).map lowerChar) ∧
    ((∀ other, Text.lower other = Text.lower name →
        normalizeModel other = normalizeModel name) ↔
      ¬ family <+: trimChars (Text.lower name).toList) := by
  obtain ⟨count, parts, clear⟩ := stripRepeated_parts family_filled (trimChars name.toList)
  exact ⟨⟨count, parts, clear, normalizeModel_toList name⟩, normalizeModel_twice_iff name,
    normalizeModel_letters_iff name⟩

/-- A blank behind a family, and a family in other letters, come out of a normalisation that would
take them off. -/
theorem blank_and_letters_stay :
    normalizeModel (normalizeModel "sentence-transformers/ x") ≠
        normalizeModel "sentence-transformers/ x" ∧
      Text.lower "Sentence-Transformers/x" = Text.lower "sentence-transformers/x" ∧
      normalizeModel "Sentence-Transformers/x" ≠ normalizeModel "sentence-transformers/x" := by
  have blankLeft : stem "sentence-transformers/ x".toList = " x".toList := by
    have parts : trimChars "sentence-transformers/ x".toList = family ++ " x".toList := by decide
    rw [stem, parts, stripRepeated_append family_filled, stripRepeated_absent (by decide)]
  have familyLeft : stem "Sentence-Transformers/x".toList = "Sentence-Transformers/x".toList := by
    have kept : trimChars "Sentence-Transformers/x".toList = "Sentence-Transformers/x".toList := by
      decide
    rw [stem, kept, stripRepeated_absent (by decide)]
  have nothingLeft : stem "sentence-transformers/x".toList = ['x'] := by
    have parts : trimChars "sentence-transformers/x".toList = family ++ ['x'] := by decide
    rw [stem, parts, stripRepeated_append family_filled, stripRepeated_absent (by decide)]
  refine ⟨fun same => ?_, by decide, fun same => ?_⟩
  · have settled := ((normalizeModel_twice_iff _).mp same).1
    rw [blankLeft] at settled
    exact absurd settled (by decide)
  · have texts := congrArg String.toList same
    rw [normalizeModel_toList, normalizeModel_toList, familyLeft, nothingLeft] at texts
    exact absurd texts (by decide)

end Corpora.Embedding
