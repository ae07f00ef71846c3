import Corpora.Config.Overlay
import Corpora.Toml.Document

/-!
Settings from a file, and the checks before they are used. Every section and field of the file is
optional and unknown ones are passed over; a section may also be an array of its fields in order.
-/

namespace Corpora

open Toml (Value Scalar)

structure FileField (σ : Type) where
  name : String
  read : Value → σ → Option σ

namespace FileField

def text (name : String) (put : String → σ → σ) : FileField σ where
  name := name
  read
    | .scalar (.string value), state => some (put value state)
    | _, _ => none

def number (name : String) (bound : Nat) (put : Nat → σ → σ) : FileField σ where
  name := name
  read
    | .scalar (.integer value), state =>
        if 0 ≤ value ∧ value ≤ bound then some (put value.toNat state) else none
    | _, _ => none

def texts (name : String) (put : List String → σ → σ) : FileField σ where
  name := name
  read
    | .array items, state => do
        let values ← items.mapM fun
          | .scalar (.string value) => some value
          | _ => none
        return put values state
    | _, _ => none

/-- Reads a section over its defaults. A date is a section of which nothing is known. -/
def readSection (fields : List (FileField σ)) (defaults : σ) : Value → Option σ
  | .table entries =>
      entries.foldlM (fun state (name, value) =>
        match fields.find? (·.name == name) with
        | some field => field.read value state
        | none => some state) defaults
  | .array items =>
      (fields.zip items).foldlM (fun state (field, value) => field.read value state) defaults
  | .scalar .dateTime => some defaults
  | .scalar _ => none

def section_ (name : String) (fields : List (FileField τ)) (get : σ → τ) (put : τ → σ → σ) :
    FileField σ where
  name := name
  read value state := (readSection fields (get state) value).map fun read => put read state

end FileField

open FileField (text number texts section_)

def ServerSettings.fields : List (FileField ServerSettings) :=
  [text "bind" fun value s => { s with bind := value },
   text "tools_bind" fun value s => { s with toolsBind := value },
   number "max_upload_bytes" Number.maxUnsigned64 fun value s => { s with maxUploadBytes := value }]

def ObjectStoreSettings.fields : List (FileField ObjectStoreSettings) :=
  [text "backend" fun value s => { s with backend := value },
   text "endpoint_url" fun value s => { s with endpointUrl := value },
   text "region" fun value s => { s with region := value }]

def NotificationTarget.fields : List (FileField NotificationTarget) :=
  [text "target_id" fun value s => { s with id := value },
   text "target_type" fun value s => { s with kind := value },
   text "region" fun value s => { s with region := value },
   texts "events" fun values s => { s with events := values }]

def DatabaseSettings.fields : List (FileField DatabaseSettings) :=
  [text "url" fun value s => { s with url := value },
   number "max_connections" Number.maxUnsigned32 fun value s => { s with maxConnections := value },
   number "acquire_timeout_secs" Number.maxUnsigned64
     fun value s => { s with acquireTimeoutSecs := value }]

def EmbeddingSettings.fields : List (FileField EmbeddingSettings) :=
  [text "provider" fun value s => { s with provider := value },
   text "model" fun value s => { s with model := some value },
   number "dims" Number.maxUnsigned64 fun value s => { s with dims := some value },
   text "url" fun value s => { s with url := some value },
   number "batch_size" Number.maxUnsigned64 fun value s => { s with batchSize := value },
   number "max_retries" Number.maxUnsigned32 fun value s => { s with maxRetries := value },
   number "timeout_secs" Number.maxUnsigned64 fun value s => { s with timeoutSecs := value }]

def ReconcilerSettings.fields : List (FileField ReconcilerSettings) :=
  [text "index_api_url" fun value s => { s with indexApiUrl := some value },
   number "interval_secs" Number.maxUnsigned64 fun value s => { s with intervalSecs := value },
   number "poll_timeout_secs" Number.maxUnsigned64
     fun value s => { s with pollTimeoutSecs := value },
   number "default_top_k" Number.maxUnsigned64 fun value s => { s with defaultTopK := value }]

def LogSettings.fields : List (FileField LogSettings) :=
  [text "level" fun value s => { s with level := value }]

namespace Settings

def sections : List (FileField Settings) :=
  [section_ "server" ServerSettings.fields server fun value s => { s with server := value },
   section_ "object_store" ObjectStoreSettings.fields objectStore
     fun value s => { s with objectStore := value },
   section_ "notifications" NotificationTarget.fields notifications
     fun value s => { s with notifications := value },
   section_ "database" DatabaseSettings.fields database fun value s => { s with database := value },
   section_ "embedding" EmbeddingSettings.fields embedding
     fun value s => { s with embedding := value },
   section_ "reconciler" ReconcilerSettings.fields reconciler
     fun value s => { s with reconciler := value },
   section_ "log" LogSettings.fields log fun value s => { s with log := value }]

def ofFile? (content : String) : Option Settings :=
  (Toml.parse? content).bind (FileField.readSection sections {})

/-- Refuses settings with which the program cannot run; the first fault found is told. -/
def validate (settings : Settings) : Attempt Unit := do
  if settings.reconciler.intervalSecs = 0 then
    Attempt.fail "reconciler.interval_secs must be > 0"
  if settings.reconciler.defaultTopK = 0 then
    Attempt.fail "reconciler.default_top_k must be >= 1"
  if settings.server.maxUploadBytes = 0 then
    Attempt.fail "server.max_upload_bytes must be > 0"
  let backend := settings.objectStore.backend
  if !(["s3", "memory"].contains backend) then
    Attempt.fail ("Unknown object_store backend: '" ++ backend ++ "'. Must be s3 or memory.")
  let provider := settings.embedding.provider
  if !(["disabled", "openai", "ollama", "local"].contains provider) then
    Attempt.fail ("Unknown embedding provider: '" ++ provider ++
      "'. Must be disabled, openai, ollama, or local.")
  if ["openai", "ollama"].contains provider then
    if settings.embedding.model.isNone then
      Attempt.fail ("embedding.model must be specified when provider is '" ++ provider ++ "'")
    if settings.embedding.dims.getD 0 = 0 then
      Attempt.fail ("embedding.dims must be > 0 when provider is '" ++ provider ++ "'")

def load (path : String) (file : Option Bytes) (environment : List Overlay.Variable) :
    Attempt Settings := do
  let base ← match file with
    | none => pure {}
    | some bytes =>
        match Text.Utf8.decode? bytes with
        | none => .error (Failure.foreign.within ("Failed to read config file: " ++ path))
        | some content =>
            match ofFile? content with
            | none => .error (Failure.foreign.within "Failed to parse config file")
            | some settings => pure settings
  let settings := (Overlay.apply base environment).1
  settings.validate
  return settings

def textOrNull : Option String → Json
  | some value => .string value
  | none => .null

def json (settings : Settings) : Json :=
  .object [
    ("database", .object [
      ("acquire_timeout_secs", Json.nat settings.database.acquireTimeoutSecs),
      ("max_connections", Json.nat settings.database.maxConnections),
      ("url", .string settings.database.url)]),
    ("embedding", .object [
      ("batch_size", Json.nat settings.embedding.batchSize),
      ("dims", (settings.embedding.dims.map Json.nat).getD .null),
      ("enabled", .bool settings.embedding.isEnabled),
      ("max_retries", Json.nat settings.embedding.maxRetries),
      ("model", textOrNull settings.embedding.model),
      ("provider", .string settings.embedding.provider),
      ("timeout_secs", Json.nat settings.embedding.timeoutSecs),
      ("url", textOrNull settings.embedding.url)]),
    ("log", .object [("level", .string settings.log.level)]),
    ("notifications", .object [
      ("events", .array (settings.notifications.events.map Json.string)),
      ("region", .string settings.notifications.region),
      ("target_id", .string settings.notifications.id),
      ("target_type", .string settings.notifications.kind)]),
    ("object_store", .object [
      ("backend", .string settings.objectStore.backend),
      ("endpoint_url", .string settings.objectStore.endpointUrl),
      ("region", .string settings.objectStore.region)]),
    ("reconciler", .object [
      ("default_top_k", Json.nat settings.reconciler.defaultTopK),
      ("index_api_url", textOrNull settings.reconciler.indexApiUrl),
      ("interval_secs", Json.nat settings.reconciler.intervalSecs),
      ("poll_timeout_secs", Json.nat settings.reconciler.pollTimeoutSecs)]),
    ("server", .object [
      ("bind", .string settings.server.bind),
      ("max_upload_bytes", Json.nat settings.server.maxUploadBytes),
      ("tools_bind", .string settings.server.toolsBind)])]

end Settings
end Corpora
