import Corpora.Proofs.Time.Instant

/-!
Whatever is read as an instant can be written and read again. The fields of a text are bounded by
the readers of the fields, and an offset counts whole minutes, so that a leap second is still the
last second of its minute in Universal Time.
-/

namespace Corpora

namespace Number

open Text (isDigit)

theorem digitValue_lt {c : Char} (digit : isDigit c = true) : digitValue c < 10 := by
  have range : 48 ≤ c.toNat ∧ c.toNat ≤ 57 := by
    simpa [isDigit, Char.le_def, UInt32.le_iff_toNat_le] using digit
  unfold digitValue
  omega

theorem foldl_digits_lt {cs : List Char} (all : ∀ c ∈ cs, isDigit c = true) (value : Nat) :
    cs.foldl (fun value c => 10 * value + digitValue c) value < (value + 1) * Nat.pow 10 cs.length := by
  induction cs generalizing value with
  | nil =>
      rw [List.foldl_nil, List.length_nil]
      exact Nat.lt_of_lt_of_eq (Nat.lt_succ_self value) (Nat.mul_one _).symm
  | cons c cs ih =>
      have first := digitValue_lt (all c List.mem_cons_self)
      have later := ih (fun c member => all c (List.mem_cons_of_mem _ member))
        (10 * value + digitValue c)
      have grown : Nat.pow 10 (cs.length + 1) = 10 * Nat.pow 10 cs.length := Nat.mul_comm _ _
      rw [List.foldl_cons, List.length_cons, grown, ← Nat.mul_assoc]
      refine Nat.lt_of_lt_of_le later (Nat.mul_le_mul_right _ ?_)
      omega

theorem ofDigits_lt {cs : List Char} (all : ∀ c ∈ cs, isDigit c = true) :
    ofDigits cs < Nat.pow 10 cs.length := by
  have bound := foldl_digits_lt all 0
  rwa [Nat.zero_add, Nat.one_mul] at bound

end Number

namespace Time

open Text (isDigit trimStartChars)
open Number (ofDigits ofDigits_lt)

theorem fraction_lt (cs : List Char) :
    let ds := (cs.takeWhile isDigit).take 9
    ofDigits ds * Nat.pow 10 (9 - ds.length) < nanosPerSecond := by
  intro ds
  have all : ∀ c ∈ ds, isDigit c = true := fun c member =>
    List.all_eq_true.mp List.all_takeWhile c (List.mem_of_mem_take member)
  have few : ds.length ≤ 9 := List.length_take_le _ _
  have whole : Nat.pow 10 ds.length * Nat.pow 10 (9 - ds.length) = nanosPerSecond := by
    rw [Nat.pow_eq, Nat.pow_eq, ← Nat.pow_add, Nat.add_sub_cancel' few]
    rfl
  rw [← whole]
  exact Nat.mul_lt_mul_of_pos_right (ofDigits_lt all) (Nat.pow_pos (by decide))

theorem fractionField_lt {cs rest : List Char} {nanos : Nat}
    (read : fractionField cs = some (nanos, rest)) : nanos < nanosPerSecond := by
  unfold fractionField at read
  split at read
  · next behind =>
    obtain ⟨_, _, told⟩ := Option.bind_eq_some_iff.mp read
    cases told
    exact fraction_lt behind
  · cases read
    decide

theorem offsetField_minutes {between : List Char → Option (List Char)} {cs rest : List Char}
    {offset : Int} (read : offsetField between cs = some (offset, rest)) : offset % 60 = 0 := by
  unfold offsetField at read
  split at read
  · cases read
    rfl
  · cases read
    rfl
  · extract_lets signed at read
    have whole : ∀ negative, signed negative = some (offset, rest) → offset % 60 = 0 := by
      intro negative told
      obtain ⟨hours, _, told⟩ := Option.bind_eq_some_iff.mp told
      obtain ⟨behind, _, told⟩ := Option.bind_eq_some_iff.mp told
      split at told
      · obtain ⟨minutes, _, told⟩ := Option.bind_eq_some_iff.mp told
        obtain ⟨_, told⟩ := Option.ite_none_left_eq_some.mp told
        cases told
        cases negative
        · simp only [Bool.false_eq_true, ↓reduceIte]
          omega
        · simp only [↓reduceIte]
          omega
      · cases told
    split at read
    · exact whole false read
    · split at read
      · exact whole true read
      · cases read
  · cases read

theorem lenientOffset_minutes {cs rest : List Char} {offset : Int}
    (read : lenientOffset cs = some (offset, rest)) : offset % 60 = 0 := by
  unfold lenientOffset at read
  split at read
  · cases read
    rfl
  · exact offsetField_minutes read

theorem Written.instant?_regular {fields : Written} {instant : Instant}
    (fraction : fields.nanos < nanosPerSecond) (minutes : fields.offset % 60 = 0)
    (read : fields.instant? = some instant) : instant.Regular := by
  obtain ⟨_, read⟩ := Option.ite_none_left_eq_some.mp read
  obtain ⟨inRange, told⟩ := Option.ite_none_right_eq_some.mp read
  obtain rfl := Option.some.inj told
  refine ⟨?_, ?_, inRange⟩
  · simp only [Instant.ofDate]
    unfold nanosPerSecond at fraction ⊢
    split <;> omega
  · intro leap
    simp only [Instant.ofDate, Instant.secondOfDay, secondsPerDay] at leap ⊢
    split at leap
    · next late =>
      simp only [late, ↓reduceIte]
      omega
    · exact absurd fraction (Nat.not_lt.mpr leap)

/-- Every text that is read as an instant gives one that is shown as a clock shows it. -/
theorem Instant.lenient?_regular {text : String} {instant : Instant}
    (read : lenient? text = some instant) : instant.Regular := by
  unfold lenient? at read
  obtain ⟨year, _, read⟩ := Option.bind_eq_some_iff.mp read
  obtain ⟨_, _, read⟩ := Option.bind_eq_some_iff.mp read
  obtain ⟨month, _, read⟩ := Option.bind_eq_some_iff.mp read
  obtain ⟨_, _, read⟩ := Option.bind_eq_some_iff.mp read
  obtain ⟨day, _, read⟩ := Option.bind_eq_some_iff.mp read
  obtain ⟨_, _, read⟩ := Option.bind_eq_some_iff.mp read
  obtain ⟨hour, _, read⟩ := Option.bind_eq_some_iff.mp read
  obtain ⟨_, _, read⟩ := Option.bind_eq_some_iff.mp read
  obtain ⟨minute, _, read⟩ := Option.bind_eq_some_iff.mp read
  obtain ⟨_, _, read⟩ := Option.bind_eq_some_iff.mp read
  obtain ⟨second, _, read⟩ := Option.bind_eq_some_iff.mp read
  obtain ⟨nanos, fraction, read⟩ := Option.bind_eq_some_iff.mp read
  obtain ⟨offset, minutes, read⟩ := Option.bind_eq_some_iff.mp read
  obtain ⟨_, read⟩ := Option.ite_none_left_eq_some.mp read
  exact Written.instant?_regular (fractionField_lt fraction) (lenientOffset_minutes minutes) read

end Time
end Corpora
