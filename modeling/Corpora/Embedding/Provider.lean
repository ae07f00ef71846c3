import Corpora.Config.Settings
import Corpora.Text.Blank
import Corpora.Text.Search

/-!
Providers of embeddings, as the settings choose them.
-/

namespace Corpora.Embedding

structure Model where
  name : String
  dims : Nat
  deriving Repr, DecidableEq

inductive Provider where
  | disabled
  | openai (model : Model) (apiKey : String)
  | ollama (model : Model) (url : String)
  deriving Repr, DecidableEq

/-- Takes repeated occurrences of a nonempty piece off the start. -/
def stripRepeated (piece cs : List Char) : List Char :=
  match _found : Text.stripStart? piece cs with
  | some rest => if _long : piece = [] then rest else stripRepeated piece rest
  | none => cs
  termination_by cs.length
  decreasing_by
    have whole := congrArg List.length (Text.stripStart?_eq_some.mp _found)
    have := List.length_pos_iff.mpr _long
    simp only [List.length_append] at whole
    omega

def modelFamily : String := "sentence-transformers/"

def normalizeModel (name : String) : String :=
  Text.lower (String.ofList (stripRepeated modelFamily.toList (Text.trimChars name.toList)))

def defaultOllamaUrl : String := "http://localhost:11434"

namespace Provider

def modelName : Provider → String
  | disabled => "disabled"
  | openai model _ => model.name
  | ollama model _ => model.name

def dims : Provider → Nat
  | disabled => 0
  | openai model _ => model.dims
  | ollama model _ => model.dims

def modelOf (settings : EmbeddingSettings) (label : String) : Attempt Model := do
  match settings.model with
  | none => Attempt.fail ("embedding.model required for " ++ label ++ " provider")
  | some name =>
      match settings.dims with
      | none => Attempt.fail ("embedding.dims required for " ++ label ++ " provider")
      | some dims => return ⟨name, dims⟩

def ofSettings (settings : EmbeddingSettings) (apiKey : Option String) : Attempt Provider := do
  if settings.provider == "disabled" then return disabled
  else if settings.provider == "openai" then
    let model ← modelOf settings "OpenAI"
    match apiKey with
    | some key => return openai model key
    | none => Attempt.fail "OPENAI_API_KEY environment variable not set"
  else if settings.provider == "ollama" then
    let model ← modelOf settings "Ollama"
    return ollama model (Text.withoutEndSlashes (settings.url.getD defaultOllamaUrl))
  else if settings.provider == "local" then
    Attempt.fail "Local embedding provider requires --features local-embeddings-fastembed"
  else Attempt.fail ("Unknown embedding provider: " ++ settings.provider)

end Provider
end Corpora.Embedding
