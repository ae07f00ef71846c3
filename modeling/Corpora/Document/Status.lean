import Corpora.Document.Progress
import Corpora.Json.Writer

/-!
The status record of a document: a row of its own, kept beside the document and found by the
names of index and file.
-/

namespace Corpora.Document

structure Status where
  id : String
  index : String
  filename : String
  progress : Progress
  errorMessage : Option String
  createdAt : Int
  updatedAt : Int
  deriving Repr, DecidableEq

namespace Status

open Json.Decoder (RecordField field record text signed nullable)

def json (status : Status) : Json :=
  .object [("id", .string status.id), ("index_name", .string status.index),
    ("filename", .string status.filename), ("status", status.progress.json),
    ("error_msg", match status.errorMessage with
      | some message => .string message
      | none => .null),
    ("created_at", .int status.createdAt), ("updated_at", .int status.updatedAt)]

structure Draft where
  id : Option String := none
  index : Option String := none
  filename : Option String := none
  progress : Option Progress := none
  errorMessage : Option (Option String) := none
  createdAt : Option Int := none
  updatedAt : Option Int := none

def fields : List (RecordField Draft) :=
  [field "id" Draft.id (fun value draft => { draft with id := some value }) text true,
   field "index_name" Draft.index (fun value draft => { draft with index := some value }) text true,
   field "filename" Draft.filename
     (fun value draft => { draft with filename := some value }) text true,
   field "status" Draft.progress
     (fun value draft => { draft with progress := some value }) Progress.decoder true,
   field "error_msg" Draft.errorMessage
     (fun value draft => { draft with errorMessage := some value }) (nullable text) true,
   field "created_at" Draft.createdAt
     (fun value draft => { draft with createdAt := some value }) signed true,
   field "updated_at" Draft.updatedAt
     (fun value draft => { draft with updatedAt := some value }) signed true]

def Draft.status? (draft : Draft) : Option Status := do
  return ⟨← draft.id, ← draft.index, ← draft.filename, ← draft.progress,
    draft.errorMessage.getD none, ← draft.createdAt, ← draft.updatedAt⟩

def decoder : Json.Decoder Status := record fields {} Draft.status?

end Status
end Corpora.Document
