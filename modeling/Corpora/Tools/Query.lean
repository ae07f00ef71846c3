import Corpora.Embedding.Response
import Corpora.Json.Writer
import Corpora.Search.ChunkStore
import Corpora.Service.Error
import Corpora.Text.Blank
import Corpora.Text.Search

/-!
The query tool of an index: it embeds a query, searches its one index and ranks what it found.
-/

namespace Corpora

structure Retrieval where
  embed : List String → Attempt (List Vector32)
  search : String → Vector32 → Nat → Attempt (List Hit)

namespace Retrieval

def embedQuery (retrieval : Retrieval) (text : String) : Attempt Vector32 :=
  (retrieval.embed [text]).bind Embedding.firstVector

end Retrieval

def queryToolStart : String := "query-"

def queryToolName (index : String) : String := queryToolStart ++ index

def queryToolIndex? (toolName : String) : Option String :=
  (Text.stripStart? queryToolStart.toList toolName.toList).map String.ofList

/-- What a query tool says about itself: the description of its index, or a sentence in place of
a blank one. -/
def queryToolDescription (index description : String) : String :=
  if (Text.trim description).isEmpty then
    "Query the '" ++ index ++ "' RAG index for relevant documents."
  else description

structure QueryTool where
  index : String
  description : String
  defaultLimit : Nat
  deriving Repr, DecidableEq

structure QueryAnswer where
  index : String
  query : String
  results : List Hit

def QueryAnswer.json (answer : QueryAnswer) : Json :=
  .object [("index", .string answer.index), ("query", .string answer.query),
    ("results", .array (answer.results.map Hit.json))]

namespace QueryTool

def new (index description : String) (defaultLimit : Nat) : QueryTool :=
  ⟨index, queryToolDescription index description, max defaultLimit 1⟩

def name (tool : QueryTool) : String := queryToolName tool.index

def schema (tool : QueryTool) : Json :=
  .object [
    ("properties", .object [
      ("query", .object [
        ("description", .string "Text to search for"), ("type", .string "string")]),
      ("top_k", .object [
        ("default", Json.nat tool.defaultLimit),
        ("description", .string "Maximum number of results"),
        ("minimum", Json.nat 1), ("type", .string "integer")])]),
    ("required", .array [.string "query"]),
    ("type", .string "object")]

structure Wanted where
  query : String
  limit : Nat
  deriving Repr, DecidableEq

/-- Checks a query. It is trimmed, and the limit is by default the one that the tool says. -/
def check (tool : QueryTool) (query : String) (limit : Option Nat) : Answered Wanted :=
  let query := Text.trim query
  let limit := limit.getD tool.defaultLimit
  if query.isEmpty then .error (.badRequest "query must not be empty")
  else if limit = 0 then .error (.badRequest "top_k must be >= 1")
  else .ok ⟨query, limit⟩

def conclude (tool : QueryTool) (search : String → Vector32 → Nat → Attempt (List Hit))
    (wanted : Wanted) (embedded : Attempt Vector32) : Answered QueryAnswer := do
  let vector ← embedded.internal "Failed to embed query"
  let hits ← (search tool.index vector wanted.limit).internal "Failed to search index"
  return ⟨tool.index, wanted.query, Hit.rank wanted.limit hits⟩

def invoke (tool : QueryTool) (retrieval : Retrieval) (query : String) (limit : Option Nat) :
    Answered QueryAnswer := do
  let wanted ← tool.check query limit
  tool.conclude retrieval.search wanted (retrieval.embedQuery wanted.query)

def limitOf (parameters : Json) : Answered (Option Nat) :=
  match parameters.get? "top_k" with
  | none => .ok none
  | some .null => .ok none
  | some given =>
      match given.unsigned? with
      | some limit =>
          if limit ≥ 1 then .ok (some limit)
          else .error (.badRequest "top_k must be an integer >= 1")
      | none => .error (.badRequest "top_k must be an integer >= 1")

def execute (tool : QueryTool) (retrieval : Retrieval) (parameters : Json) : Answered Json := do
  match (parameters.get? "query").bind Json.string? with
  | none => throw (.badRequest "missing required parameter: query")
  | some query =>
      let limit ← limitOf parameters
      return (← tool.invoke retrieval query limit).json

end QueryTool
end Corpora
