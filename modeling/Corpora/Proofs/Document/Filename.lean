import Corpora.Document.Filename
import Corpora.Proofs.Text.Blank
import Corpora.Proofs.Text.Letters

/-!
What the check of a filename promises the store: an admitted name is never the key of the metadata
and never the marker of a folder. A name is admitted exactly if it is not blank, not the key of the
metadata, and ends with one of the known extensions, in whatever letters.
-/

namespace Corpora.Document

theorem admitted_iff {filename : String} :
    checkFilename filename = .ok () ↔ (Text.trim filename).isEmpty = false ∧
      isReserved filename = false ∧ hasSupportedExtension filename = true := by
  unfold checkFilename
  by_cases blank : (Text.trim filename).isEmpty
  · simp [blank]
  by_cases reserved : isReserved filename
  · simp [blank, reserved]
  by_cases supported : hasSupportedExtension filename
  · simp [blank, reserved, supported]
  · simp [blank, reserved, supported]

theorem free_of_admitted {filename : String} (admitted : checkFilename filename = .ok ()) :
    isReserved filename = false :=
  (admitted_iff.mp admitted).2.1

theorem ne_metadataKey {filename : String} (free : isReserved filename = false) :
    filename ≠ metadataKey := by
  rintro rfl
  exact absurd free (by simp [isReserved])

theorem behindLast_of_ends {stop : Char → Bool} {cs : List Char} {last : Char}
    (ends : cs.getLast? = some last) (stops : stop last = true) : behindLast stop cs = [] := by
  rw [← List.head?_reverse] at ends
  obtain ⟨before, reversed⟩ := List.head?_eq_some_iff.mp ends
  simp [behindLast, reversed, stops]

-- Behind its last separator the marker of a folder has nothing, and so no extension.
theorem not_folder_of_admitted {filename : String} (admitted : checkFilename filename = .ok ()) :
    filename.toList.getLast? ≠ some '/' := by
  intro ends
  have supported := (admitted_iff.mp admitted).2.2
  have bare : extension filename = "" := by
    simp [extension, behindLast_of_ends ends]
  rw [hasSupportedExtension, bare] at supported
  exact absurd supported (by decide)

section Behind

variable {stop : Char → Bool} {front behind : List Char}

theorem behindLast_eq (stop : Char → Bool) (cs : List Char) :
    behindLast stop cs = cs.rtakeWhile fun c => !stop c := rfl

theorem behindLast_free (stop : Char → Bool) (cs : List Char) :
    ∀ c ∈ behindLast stop cs, stop c = false := by
  intro c member
  rw [behindLast_eq] at member
  simpa using List.mem_rtakeWhile_imp member

theorem behindLast_append (free : ∀ c ∈ behind, stop c = false) (front : List Char) :
    behindLast stop (front ++ behind) = behindLast stop front ++ behind := by
  have passed : ∀ c ∈ behind.reverse, (!stop c) = true := by
    intro c member
    rw [free c (List.mem_reverse.mp member)]
    rfl
  rw [behindLast, List.reverse_append, List.takeWhile_append_of_pos passed, List.reverse_append,
    List.reverse_reverse, behindLast]

theorem behindLast_stop {last : Char} (stops : stop last = true)
    (free : ∀ c ∈ behind, stop c = false) (front : List Char) :
    behindLast stop (front ++ last :: behind) = behind := by
  have bare := behindLast_of_ends (List.getLast?_concat (l := front)) stops
  rw [List.append_cons, behindLast_append free, bare, List.nil_append]

theorem behindLast_cases (stop : Char → Bool) (cs : List Char) :
    cs = behindLast stop cs ∨
      ∃ front last, stop last = true ∧ cs = front ++ last :: behindLast stop cs := by
  induction cs using List.reverseRecOn with
  | nil => exact .inl rfl
  | append_singleton cs c ih =>
      by_cases stops : stop c = true
      · rw [behindLast_of_ends List.getLast?_concat stops]
        exact .inr ⟨cs, c, stops, rfl⟩
      · have free : ∀ other ∈ [c], stop other = false := by
          intro other member
          rw [List.mem_singleton.mp member]
          exact Bool.eq_false_iff.mpr stops
        rw [behindLast_append free]
        rcases ih with whole | ⟨front, last, stops, parts⟩
        · exact .inl (congrArg (· ++ [c]) whole)
        · refine .inr ⟨front, last, stops, ?_⟩
          rw [← List.cons_append, ← List.append_assoc, ← parts]

end Behind

section Segment

/-- The last segment of a path: it has no separator, and there is none behind it. -/
structure LastSegment (path segment : String) : Prop where
  noSlash : '/' ∉ segment.toList
  noBackslash : '\\' ∉ segment.toList
  last : path = segment ∨ ∃ front separator, (separator = '/' ∨ separator = '\\') ∧
    path.toList = front ++ separator :: segment.toList

theorem lastSegment_iff {path segment : String} :
    LastSegment path segment ↔ baseName path = segment := by
  constructor
  · rintro ⟨noSlash, noBackslash, last⟩
    have free : ∀ c ∈ segment.toList, (c == '/' || c == '\\') = false := by
      intro c member
      have slash : c ≠ '/' := fun same => noSlash (same ▸ member)
      have backslash : c ≠ '\\' := fun same => noBackslash (same ▸ member)
      simp [slash, backslash]
    rcases last with rfl | ⟨front, separator, separates, parts⟩
    · have whole := behindLast_append free []
      rw [List.nil_append] at whole
      rw [baseName, whole]
      exact String.ofList_toList
    · have stops : (separator == '/' || separator == '\\') = true := by simpa using separates
      rw [baseName, parts, behindLast_stop stops free, String.ofList_toList]
  · rintro rfl
    have free := behindLast_free (fun c => c == '/' || c == '\\') path.toList
    rw [← String.toList_ofList (l := behindLast _ _), ← baseName] at free
    refine ⟨fun slash => absurd (free '/' slash) (by decide),
      fun backslash => absurd (free '\\' backslash) (by decide), ?_⟩
    rcases behindLast_cases (fun c => c == '/' || c == '\\') path.toList with
      whole | ⟨front, separator, stops, parts⟩
    · refine .inl (String.toList_inj.mp ?_)
      rw [baseName, String.toList_ofList]
      exact whole
    · refine .inr ⟨front, separator, by simpa using stops, ?_⟩
      rw [baseName, String.toList_ofList]
      exact parts

end Segment

section Extension

/-- A name ends with one of the known extensions, in whatever letters. -/
def EndsSupported (filename : String) : Prop :=
  ∃ front ending, filename = front ++ ending ∧ Text.lower ending ∈ supportedExtensions

theorem supported_shape : ∀ known ∈ supportedExtensions,
    ∃ letters, known.toList = '.' :: letters ∧ '.' ∉ letters ∧ '/' ∉ letters := by
  intro known member
  simp only [supportedExtensions, List.mem_cons, List.not_mem_nil, or_false] at member
  rcases member with rfl | rfl | rfl | rfl | rfl | rfl <;>
    exact ⟨_, rfl, by decide, by decide⟩

theorem mem_lower_mark {mark : Char} (uncased : Text.isAlphanumeric mark = false)
    {cs : List Char} : mark ∈ cs.map Text.lowerChar ↔ mark ∈ cs := by
  rw [List.mem_map]
  constructor
  · rintro ⟨c, member, same⟩
    rwa [← (Text.lowerChar_eq_mark uncased).mp same]
  · intro member
    exact ⟨mark, member, (Text.lowerChar_eq_mark uncased).mpr rfl⟩

theorem extension_supported {ending : String} (supported : Text.lower ending ∈ supportedExtensions)
    (front : String) : extension (front ++ ending) = Text.lower ending := by
  obtain ⟨letters, shape, noDot, noSlash⟩ := supported_shape _ supported
  rw [Text.lower, String.toList_ofList] at shape
  obtain ⟨c, more, parts, dot, small⟩ := List.map_eq_cons_iff.mp shape
  obtain rfl := (Text.lowerChar_eq_mark (by decide)).mp dot
  have free : ∀ {mark : Char}, Text.isAlphanumeric mark = false → mark ∉ letters → mark ∉ more :=
    fun uncased absent member => absent (small ▸ (mem_lower_mark uncased).mpr member)
  have noDot := free (by decide) noDot
  have noSlash := free (by decide) noSlash
  have base : behindLast (· == '/') (front ++ ending).toList =
      behindLast (· == '/') front.toList ++ '.' :: more := by
    rw [String.toList_append, parts]
    refine behindLast_append (fun c member => beq_eq_false_iff_ne.mpr ?_) _
    rcases List.mem_cons.mp member with rfl | later
    · decide
    · rintro rfl
      exact noSlash later
  have undotted : ∀ c ∈ more, (c == '.') = false := by
    intro c member
    refine beq_eq_false_iff_ne.mpr ?_
    rintro rfl
    exact noDot member
  have dotted : (behindLast (· == '/') front.toList ++ '.' :: more).contains '.' = true := by
    simp
  have rest : behindLast (· == '.') (behindLast (· == '/') front.toList ++ '.' :: more) = more :=
    behindLast_stop (by decide) undotted _
  have whole : String.ofList ('.' :: more) = ending := by
    rw [← parts, String.ofList_toList]
  simp only [extension, base, dotted, rest, whole, ↓reduceIte]

/-- The extension of a name with a dot in its last segment is its end in small letters. -/
theorem extension_ending (filename : String) :
    extension filename = "" ∨
      ∃ front ending, filename = front ++ ending ∧ Text.lower ending = extension filename := by
  by_cases dotted : (behindLast (· == '/') filename.toList).contains '.' = true
  · right
    have inside := List.contains_iff_mem.mp dotted
    generalize based : behindLast (· == '/') filename.toList = base at dotted inside
    have suffix : '.' :: behindLast (· == '.') base <:+ base := by
      rcases behindLast_cases (· == '.') base with whole | ⟨front, last, stops, parts⟩
      · rw [whole] at inside
        exact absurd (behindLast_free _ _ _ inside) (by decide)
      · obtain rfl := beq_iff_eq.mp stops
        exact ⟨front, parts.symm⟩
    have reached : base <:+ filename.toList := by
      rw [← based, behindLast_eq]
      exact List.rtakeWhile_suffix _ _
    obtain ⟨front, parts⟩ := suffix.trans reached
    refine ⟨String.ofList front, String.ofList ('.' :: behindLast (· == '.') base), ?_, ?_⟩
    · rw [← String.ofList_append, parts, String.ofList_toList]
    · simp only [extension, based, dotted, ↓reduceIte]
  · left
    simp only [extension, dotted, Bool.false_eq_true, ↓reduceIte]

theorem hasSupportedExtension_iff {filename : String} :
    hasSupportedExtension filename = true ↔ EndsSupported filename := by
  rw [hasSupportedExtension, List.contains_iff_mem]
  constructor
  · intro supported
    rcases extension_ending filename with bare | ⟨front, ending, parts, small⟩
    · rw [bare] at supported
      exact absurd supported (by decide)
    · exact ⟨front, ending, parts, small ▸ supported⟩
  · rintro ⟨front, ending, rfl, supported⟩
    rwa [extension_supported supported]

end Extension

section Admission

/-- The names that documents can be stored under. -/
structure Storable (filename : String) : Prop where
  visible : ∃ c ∈ filename.toList, Text.isBlank c = false
  free : filename ≠ metadataKey
  ends : EndsSupported filename

theorem trim_isEmpty_iff {text : String} :
    (Text.trim text).isEmpty = false ↔ ∃ c ∈ text.toList, Text.isBlank c = false := by
  rw [Bool.eq_false_iff, ne_eq, String.isEmpty_iff, ← String.toList_inj, Text.trim,
    String.toList_ofList]
  have nothing : Text.trimChars text.toList = "".toList ↔ _ := Text.trimChars_eq_nil
  rw [nothing]
  simp

theorem admitted_iff_storable {filename : String} :
    checkFilename filename = .ok () ↔ Storable filename := by
  have reserved : isReserved filename = false ↔ filename ≠ metadataKey := by
    rw [isReserved, beq_eq_false_iff_ne]
  rw [admitted_iff, trim_isEmpty_iff, reserved, hasSupportedExtension_iff]
  exact ⟨fun ⟨visible, free, ends⟩ => ⟨visible, free, ends⟩,
    fun ⟨visible, free, ends⟩ => ⟨visible, free, ends⟩⟩

end Admission

end Corpora.Document
