import Corpora.Json.Decoder

/-!
What the fields of a record keep, a record keeps. The reader of a record goes from state to state by
the readers of its fields alone, whether the record is written as an object or as an array, so the
state in which it ends has every property that the first one has and no field gives up.
-/

namespace Corpora.Json

variable {ε α β σ : Type}

theorem bind_ok {first : Except ε α} {next : α → Except ε β} {result : β}
    (ended : first.bind next = .ok result) :
    ∃ value, first = .ok value ∧ next value = .ok result := by
  cases first with
  | error fault => cases ended
  | ok value => exact ⟨value, rfl, ended⟩

theorem map_ok {first : Except ε α} {convert : α → β} {result : β}
    (ended : first.map convert = .ok result) :
    ∃ value, first = .ok value ∧ convert value = result := by
  cases first with
  | error fault => cases ended
  | ok value => exact ⟨value, rfl, Except.ok.inj ended⟩

/-- A reader that goes on from a state leaves it as asked. -/
def Keeps (keeps : σ → Prop) (read : σ → Except ε (σ × Bytes)) : Prop :=
  ∀ {state after rest}, keeps state → read state = .ok (after, rest) → keeps after

theorem objectMembers_keeps {keeps : σ → Prop}
    {member : σ → String → Bytes → Except Fault (σ × Bytes)}
    (step : ∀ key bytes, Keeps keeps fun state => member state key bytes)
    (fuel : Nat) (first : Bool) (bytes : Bytes) :
    Keeps keeps fun state => objectMembers member fuel first state bytes := by
  induction fuel generalizing first bytes with
  | zero =>
      intro state after rest _ read
      cases read
  | succ fuel ih =>
      intro state after rest kept read
      obtain ⟨⟨key, behind⟩, _, read⟩ := bind_ok read
      cases key with
      | none =>
          cases read
          exact kept
      | some key =>
          obtain ⟨⟨between, later⟩, taken, read⟩ := bind_ok read
          exact ih _ _ (step key behind kept taken) read

namespace Decoder

variable {keeps : σ → Prop} {fields : List (RecordField σ)}

theorem recordMember_keeps (each : ∀ field ∈ fields, ∀ depth bytes,
    Keeps keeps fun state => field.read state depth bytes) (depth : Nat) (key : String)
    (bytes : Bytes) : Keeps keeps fun state => recordMember fields depth state key bytes := by
  intro state after rest kept read
  cases found : fields.find? (·.name == key) with
  | none =>
      simp only [recordMember, found] at read
      obtain ⟨_, _, read⟩ := bind_ok read
      obtain ⟨_, _, read⟩ := bind_ok read
      cases read
      exact kept
  | some field =>
      simp only [recordMember, found] at read
      split at read
      · cases read
      · obtain ⟨behind, _, read⟩ := bind_ok read
        exact each field (List.mem_of_find?_eq_some found) depth behind kept read

theorem recordItems_keeps (each : ∀ field ∈ fields, ∀ depth bytes,
    Keeps keeps fun state => field.read state depth bytes) (depth : Nat) (first : Bool)
    (bytes : Bytes) : Keeps keeps fun state => recordItems depth fields first state bytes := by
  induction fields generalizing first bytes with
  | nil =>
      intro state after rest kept read
      obtain ⟨_, _, read⟩ := bind_ok read
      cases read
      exact kept
  | cons field fields ih =>
      have others := ih fun other member => each other (List.mem_cons_of_mem _ member)
      intro state after rest kept read
      simp only [recordItems] at read
      split at read
      · cases read
      split at read
      · split at read
        · cases read
        · exact others first _ kept read
      -- A field but the first stands behind a comma that is not the last character of the array.
      · have next : ∀ item, ((field.read state depth item).bind fun read =>
            recordItems depth fields false read.1 read.2) = .ok (after, rest) → keeps after := by
          intro item read
          obtain ⟨⟨between, behind⟩, taken, read⟩ := bind_ok read
          exact others false behind (each field List.mem_cons_self depth item kept taken) read
        split at read
        · exact next _ read
        · split at read
          · split at read
            · cases read
            · exact next _ read
          · cases read

theorem record_keeps {start : σ} {finish : σ → Option α} (each : ∀ field ∈ fields, ∀ depth bytes,
    Keeps keeps fun state => field.read state depth bytes) (begins : keeps start) {depth : Nat}
    {bytes rest : Bytes} {found : α}
    (read : record fields start finish depth bytes = .ok (found, rest)) :
    ∃ state, keeps state ∧ finish state = some found := by
  unfold record at read
  split at read
  · cases read
  · extract_lets finished at read
    have ending : ∀ state behind, finished (state, behind) = .ok (found, rest) →
        finish state = some found := by
      intro state behind ended
      simp only [finished] at ended
      split at ended
      · next told =>
        cases ended
        exact told
      · cases ended
    have whole : ∀ {result : Except Fault (σ × Bytes)},
        (∀ state behind, result = .ok (state, behind) → keeps state) →
        result.bind finished = .ok (found, rest) →
        ∃ state, keeps state ∧ finish state = some found := by
      intro result kept ended
      obtain ⟨⟨state, behind⟩, taken, ended⟩ := bind_ok ended
      exact ⟨state, kept state behind taken, ending state behind ended⟩
    cases depth with
    | zero => cases read
    | succ depth =>
        dsimp only at read
        split at read
        · exact whole (fun state behind taken =>
            objectMembers_keeps (recordMember_keeps each depth) _ _ _ begins taken) read
        · split at read
          · exact whole (fun state behind taken =>
              recordItems_keeps each depth _ _ begins taken) read
          · cases read

theorem decode_ok {decoder : Decoder α} {bytes : Bytes} {found : α}
    (read : decode decoder bytes = .ok found) :
    ∃ rest, decoder deepest bytes = .ok (found, rest) := by
  obtain ⟨⟨value, rest⟩, taken, read⟩ := bind_ok read
  dsimp only at read
  split at read
  · cases read
    exact ⟨rest, taken⟩
  · cases read

theorem parsed_ok {read : String → Option α} {depth : Nat} {bytes rest : Bytes} {value : α}
    (done : parsed read depth bytes = .ok (value, rest)) : ∃ text, read text = some value := by
  obtain ⟨⟨text, behind⟩, _, done⟩ := bind_ok done
  dsimp only at done
  split at done
  · next found understood =>
    cases done
    exact ⟨text, understood⟩
  · cases done

end Decoder
end Corpora.Json
