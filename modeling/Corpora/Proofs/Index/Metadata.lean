import Corpora.Index.Metadata
import Corpora.Proofs.Json.Invariant
import Corpora.Proofs.Json.Members
import Corpora.Proofs.Time.Reading

/-!
The stored form of an index reads back as the index, for every name and description; and whatever
bytes are read as an index, what was read can be stored and read back in turn. Who only asks for a
summary reads it from the same form and passes over the time. A description that is left out is read
as an empty one.
-/

namespace Corpora.Index

open Json (ascii closing written_object written_string Keeps map_ok)
open Json.Decoder (Fills reads_text reads_parsed record_written decode_record record_keeps
  parsed_ok decode_ok)

def memberBytes (index : Index) : Bytes :=
  ascii '"' :: (closing "name" ++ ascii ':' :: ascii '"' :: (closing index.name ++
    ascii ',' :: ascii '"' :: (closing "description" ++ ascii ':' :: ascii '"' ::
      (closing index.description ++
        ascii ',' :: ascii '"' :: (closing "created_at" ++ ascii ':' :: ascii '"' ::
          (closing index.createdAt.text ++ [ascii '}']))))))

theorem written_json (index : Index) : Json.written index.json = ascii '{' :: memberBytes index := by
  simp [json, written_object, written_string, Json.memberBytes, memberBytes]

theorem decode_metadata {index : Index} (regular : index.createdAt.Regular) :
    Json.decode decoder index.metadata = .ok index := by
  have created := Time.Instant.lenient?_text regular
  have fills : Fills [nameField, descriptionField, createdAtField] 126 {}
      [("name", .string index.name), ("description", .string index.description),
        ("created_at", .string index.createdAt.text)]
      ⟨some index.name, some index.description, some index.createdAt⟩ := by
    apply Fills.field rfl rfl (reads_text _)
    apply Fills.field rfl rfl (reads_text _)
    apply Fills.field rfl rfl (reads_parsed created)
    exact .done _
  exact decode_record fills rfl

theorem ofMetadata?_metadata (index : Index) (regular : index.createdAt.Regular) :
    ofMetadata? index.metadata = some index := by
  rw [ofMetadata?, decode_metadata regular]
  rfl

theorem decode_undescribed {index : Index} (regular : index.createdAt.Regular) :
    Json.decode decoder (Text.Utf8.encode (index.json.without "description").compactText) =
      .ok { index with description := "" } := by
  have created := Time.Instant.lenient?_text regular
  have left : index.json.without "description" = .object [("name", .string index.name),
      ("created_at", .string index.createdAt.text)] := rfl
  have fills : Fills [nameField, descriptionField, createdAtField] 126 {}
      [("name", .string index.name), ("created_at", .string index.createdAt.text)]
      ⟨some index.name, none, some index.createdAt⟩ :=
    .field rfl rfl (reads_text _) (.field rfl rfl (reads_parsed created) (.done _))
  rw [left]
  exact decode_record fills rfl

theorem summary_read (depth : Nat) (index : Index) (rest : Bytes) :
    IndexSummary.decoder (depth + 1) (ascii '{' :: (memberBytes index ++ rest)) =
      .ok (index.summary, rest) := by
  have fills : Fills [nameField, descriptionField] depth {}
      [("name", .string index.name), ("description", .string index.description),
        ("created_at", .string index.createdAt.text)]
      ⟨some index.name, some index.description, none⟩ :=
    .field rfl rfl (reads_text _) (.field rfl rfl (reads_text _) (.passed rfl (.done _)))
  have whole : Draft.summary? ⟨some index.name, some index.description, none⟩ =
      some index.summary := rfl
  rw [← List.cons_append, ← written_json]
  exact record_written fills whole rest

theorem decode_summary (summary : IndexSummary) :
    Json.decode IndexSummary.decoder (Text.Utf8.encode summary.json.compactText) = .ok summary := by
  have fills : Fills [nameField, descriptionField] 126 {}
      [("name", .string summary.name), ("description", .string summary.description)]
      ⟨some summary.name, some summary.description, none⟩ :=
    .field rfl rfl (reads_text _) (.field rfl rfl (reads_text _) (.done _))
  exact decode_record fills rfl

/-- What was read so far as the time of creation is a time that a clock can show. -/
def Draft.Timely (draft : Draft) : Prop := ∀ time, draft.createdAt = some time → time.Regular

theorem fields_timely : ∀ field ∈ [nameField, descriptionField, createdAtField], ∀ depth bytes,
    Keeps Draft.Timely fun draft => field.read draft depth bytes := by
  intro field member depth bytes draft after rest timely read
  simp only [List.mem_cons, List.not_mem_nil, or_false] at member
  rcases member with rfl | rfl | rfl
  · obtain ⟨_, _, told⟩ := map_ok read
    cases told
    exact timely
  · obtain ⟨_, _, told⟩ := map_ok read
    cases told
    exact timely
  · obtain ⟨⟨time, behind⟩, taken, told⟩ := map_ok read
    cases told
    obtain ⟨text, understood⟩ := parsed_ok taken
    rintro _ ⟨⟩
    exact Time.Instant.lenient?_regular understood

theorem ofMetadata?_regular {bytes : Bytes} {index : Index} (read : ofMetadata? bytes = some index) :
    index.createdAt.Regular := by
  have decoded : Json.decode decoder bytes = .ok index := by
    unfold ofMetadata? at read
    cases outcome : Json.decode decoder bytes with
    | error fault => rw [outcome] at read; cases read
    | ok found => rw [outcome] at read; cases read; rfl
  obtain ⟨rest, taken⟩ := decode_ok decoded
  obtain ⟨draft, timely, whole⟩ := record_keeps fields_timely (by rintro _ ⟨⟩) taken
  obtain ⟨name, _, whole⟩ := Option.bind_eq_some_iff.mp whole
  obtain ⟨time, created, whole⟩ := Option.bind_eq_some_iff.mp whole
  cases whole
  exact timely time created

end Corpora.Index
