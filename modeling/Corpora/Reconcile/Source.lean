import Corpora.Index.Metadata
import Corpora.Text.Search
import Corpora.Wire.Conversation
import Corpora.Wire.Phrase

/-!
The indices that a server lists, read from the answer of its API.
-/

namespace Corpora

open Wire (Conversation Outcome Reply)
open Json.Decoder (RecordField field record nullable list)

structure RemoteIndices where
  url : String
  deriving Repr, DecidableEq

namespace RemoteIndices

def at_ (base : String) : RemoteIndices := ⟨Text.withoutEndSlashes base ++ "/api/indices"⟩

/-- A listing in its envelope; missing data is an empty listing. -/
def decoder : Json.Decoder (List IndexSummary) :=
  record [field "data" id (fun value _ => some value) (nullable (list IndexSummary.decoder)) false]
    (none : Option (Option (List IndexSummary)))
    fun held => some ((held.getD none).getD [])

def ofOutcome (source : RemoteIndices) : Outcome → Attempt (List IndexSummary)
  | .dropped => .error (Failure.foreign.within ("Failed to fetch " ++ source.url))
  | .answered reply =>
      if !reply.isSuccess then
        Attempt.fail ("GET " ++ source.url ++ " failed (HTTP " ++
          Wire.statusText reply.status ++ ")")
      else match Json.decode decoder reply.body with
        | .ok summaries => .ok summaries
        | .error _ =>
            .error (Failure.foreign.within ("Invalid index listing from " ++ source.url))

def fetch (source : RemoteIndices) (conversation : Conversation) :
    Attempt (List IndexSummary) × Conversation :=
  let (outcome, after) :=
    conversation.sendIfPossible (Wire.request? .get source.url [] [])
  (source.ofOutcome outcome, after)

end RemoteIndices
end Corpora
