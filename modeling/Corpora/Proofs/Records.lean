import Corpora.Document.Status
import Corpora.Proofs.Index.Metadata

/-!
What is stored of indices, summaries and status records reads back as it was, whatever their texts
hold, and an index of which no description was stored has an empty one.
-/

namespace Corpora

open Json (without)
open Json.Decoder (Reads Fills reads_text reads_variant reads_signed reads_null reads_present
  decode_record)
open Number (fitsSigned64)
open Text.Utf8 (encode)

namespace Document

theorem Progress.named?_name (progress : Progress) : named? progress.name = some progress := by
  cases progress <;> rfl

namespace Status

theorem reads_errorMessage (depth : Nat) (message : Option String) :
    Reads (Json.Decoder.nullable Json.Decoder.text) depth
      (match message with
        | some message => .string message
        | none => .null) message := by
  cases message with
  | none => exact reads_null _
  | some message => exact reads_present (reads_text message)

theorem decode_json {status : Status} (created : fitsSigned64 status.createdAt = true)
    (updated : fitsSigned64 status.updatedAt = true) :
    Json.decode decoder (encode status.json.compactText) = .ok status := by
  have named := Progress.named?_name status.progress
  have fills : Fills fields 126 {}
      [("id", .string status.id), ("index_name", .string status.index),
        ("filename", .string status.filename), ("status", status.progress.json),
        ("error_msg", match status.errorMessage with
          | some message => .string message
          | none => .null),
        ("created_at", .int status.createdAt), ("updated_at", .int status.updatedAt)]
      ⟨some status.id, some status.index, some status.filename, some status.progress,
        some status.errorMessage, some status.createdAt, some status.updatedAt⟩ := by
    apply Fills.field rfl rfl (reads_text _)
    apply Fills.field rfl rfl (reads_text _)
    apply Fills.field rfl rfl (reads_text _)
    apply Fills.field rfl rfl (reads_variant named)
    apply Fills.field rfl rfl (reads_errorMessage _ _)
    apply Fills.field rfl rfl (reads_signed created)
    apply Fills.field rfl rfl (reads_signed updated)
    exact .done _
  exact decode_record fills rfl

end Status
end Document

/-- Every index, summary and status record is read back from its compact text, whatever its texts
hold and at whatever time a clock can show it is dated; an index whose description is left out has
an empty one. -/
theorem records_read_back :
    (∀ index : Index, index.createdAt.Regular →
      Json.decode Index.decoder (encode index.json.compactText) = .ok index ∧
      Json.decode Index.decoder (encode (index.json.without "description").compactText) =
        .ok { index with description := "" }) ∧
    (∀ summary : IndexSummary,
      Json.decode IndexSummary.decoder (encode summary.json.compactText) = .ok summary) ∧
    ∀ status : Document.Status,
      fitsSigned64 status.createdAt = true → fitsSigned64 status.updatedAt = true →
      Json.decode Document.Status.decoder (encode status.json.compactText) = .ok status :=
  ⟨fun _ regular => ⟨Index.decode_metadata regular, Index.decode_undescribed regular⟩,
    Index.decode_summary, fun _ => Document.Status.decode_json⟩

def farIndex : Index := ⟨"\"\\\n\x01😀", "d", ⟨253402300800, 120⟩⟩

def farStatus : Document.Status :=
  ⟨"id", "docs", "ü.md", .failed, some "", -9223372036854775808, 9223372036854775807⟩

theorem far_records_read_back :
    Json.decode Index.decoder (encode farIndex.json.compactText) = .ok farIndex ∧
    Json.decode Index.decoder (encode (farIndex.json.without "description").compactText) =
      .ok { farIndex with description := "" } ∧
    Json.decode Document.Status.decoder (encode farStatus.json.compactText) = .ok farStatus := by
  have regular : farIndex.createdAt.Regular := ⟨by decide, by decide, by decide⟩
  obtain ⟨indices, -, statuses⟩ := records_read_back
  exact ⟨(indices farIndex regular).1, (indices farIndex regular).2,
    statuses farStatus (by decide) (by decide)⟩

end Corpora
