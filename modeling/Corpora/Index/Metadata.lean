import Corpora.Json.Decoder
import Corpora.Json.Writer
import Corpora.Time.Reader

/-!
An index and its stored form. The metadata of an index is one JSON object with the members
`name`, `description` and `created_at` in this order; reading takes them in any order, and a
missing description is empty.
-/

namespace Corpora

structure Index where
  name : String
  description : String
  createdAt : Time.Instant
  deriving Repr, DecidableEq

structure IndexSummary where
  name : String
  description : String
  deriving Repr, DecidableEq

namespace Index

open Json.Decoder (RecordField field record text parsed)

def summary (index : Index) : IndexSummary := ⟨index.name, index.description⟩

def json (index : Index) : Json :=
  .object [("name", .string index.name), ("description", .string index.description),
    ("created_at", .string index.createdAt.text)]

structure Draft where
  name : Option String := none
  description : Option String := none
  createdAt : Option Time.Instant := none

def nameField : RecordField Draft :=
  field "name" Draft.name (fun value draft => { draft with name := some value }) text true

def descriptionField : RecordField Draft :=
  field "description" Draft.description
    (fun value draft => { draft with description := some value }) text false

def createdAtField : RecordField Draft :=
  field "created_at" Draft.createdAt
    (fun value draft => { draft with createdAt := some value }) (parsed Time.Instant.lenient?) true

def Draft.index? (draft : Draft) : Option Index := do
  return ⟨← draft.name, draft.description.getD "", ← draft.createdAt⟩

def Draft.summary? (draft : Draft) : Option IndexSummary := do
  return ⟨← draft.name, draft.description.getD ""⟩

def decoder : Json.Decoder Index :=
  record [nameField, descriptionField, createdAtField] {} Draft.index?

def metadata (index : Index) : Bytes := Text.Utf8.encode index.json.compactText

def ofMetadata? (bytes : Bytes) : Option Index := (Json.decode decoder bytes).toOption

end Index

namespace IndexSummary

def json (summary : IndexSummary) : Json :=
  .object [("name", .string summary.name), ("description", .string summary.description)]

def decoder : Json.Decoder IndexSummary :=
  Json.Decoder.record [Index.nameField, Index.descriptionField] {} Index.Draft.summary?

end IndexSummary
end Corpora
