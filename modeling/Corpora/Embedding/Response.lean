import Corpora.Failure
import Corpora.Json.Basic
import Corpora.Order.StableSort
import Corpora.Vector.Basic

/-!
Vectors out of the answers of remote providers.
-/

namespace Corpora.Embedding

def vector? (value : Json) : Option Vector32 := do
  (← value.array?).mapM fun item => item.float?.map Element.nearest

/-- An item of an answer, with its place: its index, or its position if it has none. -/
def placedVector? (item : Json) (position : Nat) : Option (Nat × Vector32) := do
  let vector ← (item.get? "embedding").bind vector?
  return (((item.get? "index").bind Json.unsigned?).getD position, vector)

def placedVectors? (items : List Json) : Option (List Vector32) := do
  let placed ← items.zipIdx.mapM fun (item, position) => placedVector? item position
  return (stableSort (fun a b => decide (a.1 < b.1)) placed).map Prod.snd

def ofOpenai (answer : Json) : Attempt (List Vector32) :=
  match (answer.get? "data").bind Json.array? with
  | none => Attempt.fail "Invalid OpenAI response: missing data array"
  | some items =>
      match placedVectors? items with
      | some vectors => .ok vectors
      | none => Attempt.fail "Invalid OpenAI response: missing or non-numeric embedding"

def ofOllama (answer : Json) : Attempt (List Vector32) :=
  match (answer.get? "embeddings").bind Json.array? with
  | none => Attempt.fail "Invalid Ollama response: missing embeddings array"
  | some items =>
      match items.mapM vector? with
      | some vectors => .ok vectors
      | none => Attempt.fail "Invalid Ollama response: embedding is not a numeric array"

def firstVector : List Vector32 → Attempt Vector32
  | vector :: _ => .ok vector
  | [] => Attempt.fail "Empty embedding response"

end Corpora.Embedding
