import Corpora.Proofs.Json.Passing
import Corpora.Proofs.Json.Whole

/-!
Records read from objects as they are written. A reader takes the members one after the other, each
with a comma or the end of the object behind it, and every member carries its state one step on; a
record is read if the last state holds all that it asks for.
-/

namespace Corpora.Json

open Text.Utf8 (encode)

def without (key : String) : Json → Json
  | .object members => .object (members.filter fun member => member.1 != key)
  | other => other

namespace Decoder

variable {α β σ : Type}

/-- A reader takes a value as it is written, whatever may stand behind the value of a member. -/
def Reads (inner : Decoder α) (depth : Nat) (value : Json) (found : α) : Prop :=
  ∀ ⦃rest : Bytes⦄, Delimited rest → inner depth (written value ++ rest) = .ok (found, rest)

section Scalars

variable {depth : Nat}

theorem solid_of_numeric {b : UInt8} (numeric : (b == ascii '-' || isDigitByte b) = true) :
    isBlankByte b = false := by
  rw [Bool.or_eq_true, beq_iff_eq] at numeric
  rcases numeric with rfl | digit
  · decide
  · grind [isDigitByte, isBlankByte]

theorem reads_text (value : String) : Reads text depth (.string value) value := by
  intro rest _
  rw [written_string, List.cons_append, text_quoted]

theorem reads_parsed {read : String → Option α} {value : String} {found : α}
    (understood : read value = some found) :
    Reads (parsed read) depth (.string value) found := by
  intro rest _
  rw [written_string, List.cons_append, parsed_quoted read depth value found rest understood]

theorem reads_variant {named : String → Option α} {name : String} {found : α}
    (known : named name = some found) : Reads (variant named) depth (.string name) found := by
  intro rest _
  have read := parsed_quoted named depth name found rest known
  rw [written_string, List.cons_append, variant, skipBlanks_solid _ (by decide)]
  simpa using read

theorem reads_signed {n : Int} (fits : Number.fitsSigned64 n = true) :
    Reads signed depth (.int n) n := by
  intro rest ends
  obtain ⟨b, behind, begins, numeric⟩ := written_int_head n
  have solid : isBlankByte b = false := solid_of_numeric numeric
  have read := numeral_written fits ends
  rw [begins, List.cons_append] at read ⊢
  simp only [signed, anyNumeral, skipBlanks_solid _ solid, numeric, ↓reduceIte, read, fits, bind,
    Except.bind]
  rfl

theorem reads_null (inner : Decoder α) : Reads (nullable inner) depth .null none := by
  intro rest _
  have word : written .null = ascii 'n' :: encode "ull" := by decide
  rw [word, List.cons_append, nullable, skipBlanks_solid _ (by decide)]
  simp [expectWord_encode, Except.map]

theorem reads_present {inner : Decoder α} {value : String} {found : α}
    (read : Reads inner depth (.string value) found) :
    Reads (nullable inner) depth (.string value) (some found) := by
  intro rest ends
  have noNull : (ascii '"' == ascii 'n') = false := by decide
  have taken := read ends
  rw [written_string, List.cons_append] at taken ⊢
  rw [nullable, skipBlanks_solid _ (by decide)]
  simp only [noNull, Bool.false_eq_true, ↓reduceIte, taken, Except.map]

end Scalars

section Records

variable {fields : List (RecordField σ)} {depth : Nat}

/-- Members that carry a reader from one state to another, each as it is written. -/
inductive Fills (fields : List (RecordField σ)) (depth : Nat) :
    σ → List (String × Json) → σ → Prop
  | done (state : σ) : Fills fields depth state [] state
  | next {state between after : σ} {key : String} {value : Json} {members : List (String × Json)}
      (read : ∀ ⦃rest : Bytes⦄, Delimited rest →
        recordMember fields depth state key (ascii ':' :: (written value ++ rest)) =
          .ok (between, rest))
      (others : Fills fields depth between members after) :
      Fills fields depth state ((key, value) :: members) after

theorem Fills.field {state after : σ} {key : String} {value : Json} {found : α}
    {members : List (String × Json)} {get : σ → Option α} {put : α → σ → σ} {inner : Decoder α}
    {required : Bool}
    (known : fields.find? (·.name == key) = some (Decoder.field key get put inner required))
    (unread : get state = none) (read : Reads inner depth value found)
    (others : Fills fields depth (put found state) members after) :
    Fills fields depth state ((key, value) :: members) after := by
  refine .next (fun _ ends => ?_) others
  apply recordMember_read _ known
  · simp [Decoder.field, unread]
  · simp [Decoder.field, read ends, Except.map]

/-- A text that no field asks for is passed over. -/
theorem Fills.passed {state after : σ} {key text : String} {members : List (String × Json)}
    (unknown : fields.find? (·.name == key) = none) (others : Fills fields depth state members after) :
    Fills fields depth state ((key, .string text) :: members) after := by
  refine .next (fun rest _ => ?_) others
  rw [written_string, List.cons_append]
  exact recordMember_passed unknown (skipValue_quoted text rest)

def laterMembers (members : List (String × Json)) : Bytes :=
  members.flatMap fun member => ascii ',' :: memberBytes member.1 member.2

theorem laterMembers_delimited (members : List (String × Json)) (rest : Bytes) :
    Delimited (laterMembers members ++ ascii '}' :: rest) := by
  cases members with
  | nil => exact .brace rest
  | cons member members =>
      rw [laterMembers, List.flatMap_cons, List.cons_append, List.cons_append]
      exact .comma _

theorem objectMembers_later_members {state after : σ} {members : List (String × Json)}
    (fills : Fills fields depth state members after) {fuel : Nat} (enough : members.length < fuel)
    (rest : Bytes) :
    objectMembers (recordMember fields depth) fuel false state
      (laterMembers members ++ ascii '}' :: rest) = .ok (after, rest) := by
  induction fills generalizing fuel with
  | done state =>
      obtain ⟨fuel, rfl⟩ := Nat.exists_eq_succ_of_ne_zero (Nat.ne_zero_of_lt enough)
      exact objectMembers_end _ fuel false state rest
  | @next state between after key value members read others ih =>
      obtain ⟨fuel, rfl⟩ := Nat.exists_eq_succ_of_ne_zero (Nat.ne_zero_of_lt enough)
      have step := objectMembers_later (recordMember fields depth) fuel state key
        (ascii ':' :: (written value ++ (laterMembers members ++ ascii '}' :: rest)))
      rw [read (laterMembers_delimited members rest), Except.bind,
        ih (Nat.lt_of_succ_lt_succ enough)] at step
      simpa [laterMembers, memberBytes] using step

theorem record_written {start after : σ} {finish : σ → Option α} {found : α}
    {key : String} {value : Json} {members : List (String × Json)}
    (fills : Fills fields depth start ((key, value) :: members) after)
    (whole : finish after = some found) (rest : Bytes) :
    record fields start finish (depth + 1) (written (.object ((key, value) :: members)) ++ rest) =
      .ok (found, rest) := by
  cases fills with
  | next read others =>
      let behind := laterMembers members ++ ascii '}' :: rest
      have enough : members.length < (memberBytes key value ++ behind).length := by
        have few : members.length ≤ (laterMembers members).length := length_le_separated _ members
        simp only [behind, List.length_append, List.length_cons]
        omega
      have step := objectMembers_first (recordMember fields depth)
        (memberBytes key value ++ behind).length start key
        (ascii ':' :: (written value ++ behind))
      rw [read (laterMembers_delimited members rest), Except.bind,
        objectMembers_later_members others enough] at step
      have split : written (.object ((key, value) :: members)) ++ rest =
          ascii '{' :: (memberBytes key value ++ behind) := by
        rw [written_object]
        simp [behind, laterMembers]
      rw [split]
      refine record_object fields start finish depth _ rest after found ?_ whole
      simpa [memberBytes] using step

theorem decode_record {start after : σ} {finish : σ → Option α} {found : α} {key : String}
    {value : Json} {members : List (String × Json)}
    (fills : Fills fields 126 start ((key, value) :: members) after)
    (whole : finish after = some found) :
    decode (record fields start finish)
      (encode (Json.object ((key, value) :: members)).compactText) = .ok found := by
  have read := record_written fills whole []
  rw [List.append_nil] at read
  rw [encode_compactText, decode, deepest, read]
  rfl

end Records
end Decoder
end Corpora.Json
