import Corpora.Proofs.Json.Record

/-!
Passing over values. A string that can be read can be passed over, so that a member that no field of
a record asks for is passed over where it is written as a text or a truth value.
-/

namespace Corpora.Json

open Text.Utf8 (encode)

section Strings

variable {rest : Bytes}

theorem skipString_unit {a b c d : UInt8} {unit : Nat} (digits : hexUnit? a b c d = some unit) :
    skipString (ascii '\\' :: ascii 'u' :: a :: b :: c :: d :: rest) = skipString rest := by
  have noQuote : (ascii '\\' == ascii '"') = false := by decide
  rw [skipString.eq_def]
  simp [noQuote, digits]

theorem skipString_short {e plain : UInt8} (noUnit : ¬(e == ascii 'u') = true)
    (short : shortEscape? e = some plain) :
    skipString (ascii '\\' :: e :: rest) = skipString rest := by
  have noQuote : (ascii '\\' == ascii '"') = false := by decide
  rw [skipString.eq_def]
  simp [noQuote, noUnit, short]

/-- What is read as a string is passed over as far as it is read. -/
theorem skipString_of_stringBytes {bytes found : Bytes} {result : Bytes × Bytes}
    (read : stringBytes bytes found = .ok result) : skipString bytes = .ok result.2 := by
  fun_induction stringBytes bytes found with
  | case2 b rest found quote =>
      cases read
      rw [skipString.eq_def]
      simp [quote]
  | case5 b found noQuote backslash e letter _ _ _ _ leading digits _ s u _ _ _ _ _ _ more pair ih =>
      -- The two units of a pair are passed over one after the other.
      simp only [Bool.and_eq_true, beq_iff_eq] at backslash letter pair
      obtain ⟨⟨rfl, rfl⟩, _⟩ := pair
      rw [backslash, letter, skipString_unit digits, skipString_unit more]
      exact ih read
  | case9 b found noQuote backslash e letter _ _ _ _ _ _ digits _ _ ih =>
      rw [beq_iff_eq.mp backslash, beq_iff_eq.mp letter, skipString_unit digits]
      exact ih read
  | case11 b found noQuote backslash e rest other plain short ih =>
      rw [beq_iff_eq.mp backslash, skipString_short other short]
      exact ih read
  | case15 b rest found noQuote noBackslash printable ih =>
      rw [skipString.eq_def]
      simp only [noQuote, noBackslash, printable, Bool.false_eq_true, ↓reduceIte]
      exact ih read
  | _ => cases read

theorem skipString_closing (text : String) (rest : Bytes) :
    skipString (closing text ++ rest) = .ok rest :=
  skipString_of_stringBytes (stringBytes_closing text rest)

end Strings

theorem expect_self (b : UInt8) (rest : Bytes) : expect b (b :: rest) = .ok rest := by
  simp [expect]

theorem expectWord_encode (word : String) (rest : Bytes) :
    expectWord word (encode word ++ rest) = .ok rest := by
  unfold expectWord
  induction encode word with
  | nil => rfl
  | cons b bytes ih =>
      rw [List.cons_append, List.foldlM_cons, expect_self]
      exact ih

theorem skipValue_quoted (text : String) (rest : Bytes) :
    skipValue (ascii '"' :: (closing text ++ rest)) = .ok rest := by
  rw [skipValue, skipLoop, skipBlanks_solid _ (by decide)]
  simp only [skipString_closing]
  -- A scalar ends the pass at once, since nothing was opened before it.
  rfl

theorem skipValue_false (rest : Bytes) : skipValue (encode "false" ++ rest) = .ok rest := by
  have word : encode "false" = ascii 'f' :: encode "alse" := by decide
  rw [word, List.cons_append, skipValue, skipLoop, skipBlanks_solid _ (by decide)]
  simp only [expectWord_encode]
  rfl

namespace Decoder

theorem recordMember_passed {σ : Type} {fields : List (RecordField σ)} {depth : Nat} {state : σ}
    {key : String} {bytes rest : Bytes} (unknown : fields.find? (·.name == key) = none)
    (passed : skipValue bytes = .ok rest) :
    recordMember fields depth state key (ascii ':' :: bytes) = .ok (state, rest) := by
  simp [recordMember, unknown, expectColon_colon, bind, Except.bind, passed, pure, Except.pure]

end Decoder
end Corpora.Json
