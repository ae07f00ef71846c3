import Corpora.Json.Decoder
import Corpora.Json.Writer
import Corpora.Number.Rounding

/-!
A chunk that a search found, with its score.
-/

namespace Corpora

structure Hit where
  filename : String
  chunk : Int
  content : String
  score : Float
  deriving DecidableEq

namespace Hit

open Json.Decoder (RecordField field record text signed float)

def json (hit : Hit) : Json :=
  .object [("chunk_index", .int hit.chunk), ("content", .string hit.content),
    ("filename", .string hit.filename), ("score", .real hit.score)]

structure Draft where
  filename : Option String := none
  chunk : Option Int := none
  content : Option String := none
  score : Option Float := none

def fields : List (RecordField Draft) :=
  [field "filename" Draft.filename
     (fun value draft => { draft with filename := some value }) text true,
   field "chunk_index" Draft.chunk
     (fun value draft => { draft with chunk := some value }) signed true,
   field "content" Draft.content
     (fun value draft => { draft with content := some value }) text true,
   field "score" Draft.score (fun value draft => { draft with score := some value }) float true]

def Draft.hit? (draft : Draft) : Option Hit := do
  return ⟨← draft.filename, ← draft.chunk, ← draft.content, ← draft.score⟩

def decoder : Json.Decoder Hit := record fields {} Draft.hit?

end Hit
end Corpora
