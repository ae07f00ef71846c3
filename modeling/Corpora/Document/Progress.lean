import Corpora.Failure
import Corpora.Json.Decoder
import Corpora.Text.Blank

/-!
How far the processing of a document has come, as a worker outside reports it.
-/

namespace Corpora.Document

inductive Progress where
  | pending
  | processing
  | completed
  | failed
  deriving Repr, DecidableEq

namespace Progress

def name : Progress → String
  | pending => "pending"
  | processing => "processing"
  | completed => "completed"
  | failed => "failed"

def named? (text : String) : Option Progress :=
  [pending, processing, completed, failed].find? (·.name == text)

def parse (text : String) : Attempt Progress :=
  let word := Text.lower (Text.trim text)
  match named? word with
  | some progress => .ok progress
  | none => Attempt.fail ("invalid status '" ++ word ++
      "': must be one of pending, processing, completed, failed")

def json (progress : Progress) : Json := .string progress.name

def decoder : Json.Decoder Progress := Json.Decoder.variant named?

end Progress
end Corpora.Document
