import Corpora.Embedding.Provider
import Corpora.Embedding.Response
import Corpora.Json.Reader
import Corpora.Json.Writer
import Corpora.Wire.Conversation
import Corpora.Wire.Phrase

/-!
Embedding texts through a remote provider. A request is sent again as long as the provider is
overloaded, fails or cannot be reached, and as long as retries are left; any other answer decides.
-/

namespace Corpora.Embedding

open Wire (Conversation Outcome Reply Sent)

structure Target where
  label : String
  url : String
  bearer : Option String
  deriving Repr, DecidableEq

namespace Target

def shownUrl (target : Target) : String :=
  match Wire.Url.parse? target.url with
  | some url => url.text
  | none => target.url

@[irreducible] def request? (target : Target) (body : Json) : Option Sent :=
  Wire.request? .post target.url
    (⟨"content-type", "application/json"⟩ ::
      (match target.bearer with
        | some token => [⟨"authorization", "Bearer " ++ token⟩]
        | none => []))
    (Text.Utf8.encode body.compactText)

def isPassing (status : Nat) : Bool := status = 429 || (500 ≤ status && status < 600)

def statusFailure (target : Target) (reply : Reply) : Failure :=
  .because (target.label ++ " API error " ++ Wire.statusText reply.status ++ ": " ++ reply.text)

def droppedFailure (target : Target) : Failure :=
  .because (target.label ++ " connection error: error sending request for url (" ++
    target.shownUrl ++ ")")

/-- What an outcome decides: a final answer, or the reason to tell if no retry is left. -/
def judge (target : Target) : Outcome → Attempt Json ⊕ Failure
  | .answered reply =>
      if reply.isSuccess then
        match Json.parse? reply.body with
        | some value => .inl (.ok value)
        | none => .inl (.error .foreign)
      else if isPassing reply.status then .inr (target.statusFailure reply)
      else .inl (.error (target.statusFailure reply))
  | .dropped => .inr target.droppedFailure

/-- Posts a body until an outcome decides or `retries` further requests have been made. -/
def post (target : Target) (body : Json) :
    (retries : Nat) → Conversation → Attempt Json × Conversation
  | 0, conversation =>
      let (outcome, after) := conversation.sendIfPossible (target.request? body)
      match target.judge outcome with
      | .inl decided => (decided, after)
      | .inr why => (.error why, after)
  | retries + 1, conversation =>
      let (outcome, after) := conversation.sendIfPossible (target.request? body)
      match target.judge outcome with
      | .inl decided => (decided, after)
      | .inr _ => target.post body retries after

end Target

def question (model : Model) (texts : List String) : Json :=
  .object [("input", .array (texts.map Json.string)), ("model", .string model.name)]

def Provider.openaiTarget (apiKey : String) : Target :=
  ⟨"OpenAI", "https://api.openai.com/v1/embeddings", some apiKey⟩

def Provider.ollamaTarget (url : String) : Target := ⟨"Ollama", url ++ "/api/embed", none⟩

def Provider.embed (provider : Provider) (retries : Nat) (texts : List String)
    (conversation : Conversation) : Attempt (List Vector32) × Conversation :=
  match provider with
  | .disabled => (Attempt.fail "Embedding provider is disabled", conversation)
  | .openai model apiKey =>
      let (answer, after) := (openaiTarget apiKey).post (question model texts) retries conversation
      (answer.bind ofOpenai, after)
  | .ollama model url =>
      let (answer, after) := (ollamaTarget url).post (question model texts) retries conversation
      (answer.bind ofOllama, after)

def Provider.embedQuery (provider : Provider) (retries : Nat) (text : String)
    (conversation : Conversation) : Attempt Vector32 × Conversation :=
  let (vectors, after) := provider.embed retries [text] conversation
  (vectors.bind firstVector, after)

end Corpora.Embedding
