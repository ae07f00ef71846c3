import Corpora.Document.Progress
import Corpora.Json.Writer
import Corpora.Time.Instant

/-!
A document as listings show it: the stored object together with its status record, if it has one.
-/

namespace Corpora.Document

structure Entry where
  name : String
  size : Int
  contentType : Option String
  lastModified : Time.Instant
  progress : Option Progress
  errorMessage : Option String
  deriving Repr, DecidableEq

def optionalMember (key : String) (value : Option Json) : List (String × Json) :=
  match value with
  | some held => [(key, held)]
  | none => []

def Entry.json (entry : Entry) : Json :=
  .object <|
    [("name", .string entry.name), ("size", Json.int entry.size)] ++
    optionalMember "content_type" (entry.contentType.map Json.string) ++
    [("last_modified", .string entry.lastModified.text)] ++
    optionalMember "status" (entry.progress.map Progress.json) ++
    optionalMember "error_msg" (entry.errorMessage.map Json.string)

end Corpora.Document
