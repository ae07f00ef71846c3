import Corpora.Config.Settings
import Corpora.Text.Blank
import Corpora.Text.Search

/-!
Keys of single settings. A key names a section and a field, and reads and writes that field alone.
-/

namespace Corpora

inductive SettingsSection where
  | objectStore
  | notifications
  | reconciler
  | embedding
  | database
  | server
  | log
  deriving Repr, DecidableEq

namespace SettingsSection

def name : SettingsSection → String
  | objectStore => "object_store"
  | notifications => "notifications"
  | reconciler => "reconciler"
  | embedding => "embedding"
  | database => "database"
  | server => "server"
  | log => "log"

/-- The sections in the order in which the start of a variable name is compared with them. -/
def all : List SettingsSection :=
  [objectStore, notifications, reconciler, embedding, database, server, log]

end SettingsSection

inductive SettingsKey where
  | bind | toolsBind | maxUploadBytes
  | backend | endpointUrl | storeRegion
  | targetId | targetType | targetRegion | events
  | databaseUrl | maxConnections | acquireTimeoutSecs
  | provider | model | dims | embeddingUrl | batchSize | maxRetries | timeoutSecs
  | indexApiUrl | intervalSecs | pollTimeoutSecs | defaultTopK
  | logLevel
  deriving Repr, DecidableEq

inductive SettingKind where
  | text
  | number (bound : Nat)
  | texts
  deriving Repr, DecidableEq

inductive SettingValue where
  | text (value : String)
  | number (value : Nat)
  | texts (values : List String)
  deriving Repr, DecidableEq

def commaList (text : String) : List String :=
  ((Text.splitAt ',' text.toList).map fun piece => String.ofList (Text.trimChars piece)).filter
    fun piece => !piece.isEmpty

def SettingKind.parse? (text : String) : SettingKind → Option SettingValue
  | .text => some (.text text)
  | .number bound => (Number.unsigned? bound (Text.trim text)).map .number
  | .texts => some (.texts (commaList text))

namespace SettingsKey

def all : List SettingsKey :=
  [bind, toolsBind, maxUploadBytes, backend, endpointUrl, storeRegion, targetId, targetType,
    targetRegion, events, databaseUrl, maxConnections, acquireTimeoutSecs, provider, model, dims,
    embeddingUrl, batchSize, maxRetries, timeoutSecs, indexApiUrl, intervalSecs, pollTimeoutSecs,
    defaultTopK, logLevel]

def path : SettingsKey → SettingsSection × String
  | bind => (.server, "bind")
  | toolsBind => (.server, "tools_bind")
  | maxUploadBytes => (.server, "max_upload_bytes")
  | backend => (.objectStore, "backend")
  | endpointUrl => (.objectStore, "endpoint_url")
  | storeRegion => (.objectStore, "region")
  | targetId => (.notifications, "target_id")
  | targetType => (.notifications, "target_type")
  | targetRegion => (.notifications, "region")
  | events => (.notifications, "events")
  | databaseUrl => (.database, "url")
  | maxConnections => (.database, "max_connections")
  | acquireTimeoutSecs => (.database, "acquire_timeout_secs")
  | provider => (.embedding, "provider")
  | model => (.embedding, "model")
  | dims => (.embedding, "dims")
  | embeddingUrl => (.embedding, "url")
  | batchSize => (.embedding, "batch_size")
  | maxRetries => (.embedding, "max_retries")
  | timeoutSecs => (.embedding, "timeout_secs")
  | indexApiUrl => (.reconciler, "index_api_url")
  | intervalSecs => (.reconciler, "interval_secs")
  | pollTimeoutSecs => (.reconciler, "poll_timeout_secs")
  | defaultTopK => (.reconciler, "default_top_k")
  | logLevel => (.log, "level")

def kind : SettingsKey → SettingKind
  | maxUploadBytes => .number Number.maxUnsigned64
  | maxConnections => .number Number.maxUnsigned32
  | acquireTimeoutSecs => .number Number.maxUnsigned64
  | dims => .number Number.maxUnsigned64
  | batchSize => .number Number.maxUnsigned64
  | maxRetries => .number Number.maxUnsigned32
  | timeoutSecs => .number Number.maxUnsigned64
  | intervalSecs => .number Number.maxUnsigned64
  | pollTimeoutSecs => .number Number.maxUnsigned64
  | defaultTopK => .number Number.maxUnsigned64
  | events => .texts
  | _ => .text

def find? (section_ : SettingsSection) (field : String) : Option SettingsKey :=
  all.find? fun key => key.path == (section_, field)

def get? (settings : Settings) : SettingsKey → Option SettingValue
  | bind => some (.text settings.server.bind)
  | toolsBind => some (.text settings.server.toolsBind)
  | maxUploadBytes => some (.number settings.server.maxUploadBytes)
  | backend => some (.text settings.objectStore.backend)
  | endpointUrl => some (.text settings.objectStore.endpointUrl)
  | storeRegion => some (.text settings.objectStore.region)
  | targetId => some (.text settings.notifications.id)
  | targetType => some (.text settings.notifications.kind)
  | targetRegion => some (.text settings.notifications.region)
  | events => some (.texts settings.notifications.events)
  | databaseUrl => some (.text settings.database.url)
  | maxConnections => some (.number settings.database.maxConnections)
  | acquireTimeoutSecs => some (.number settings.database.acquireTimeoutSecs)
  | provider => some (.text settings.embedding.provider)
  | model => settings.embedding.model.map .text
  | dims => settings.embedding.dims.map .number
  | embeddingUrl => settings.embedding.url.map .text
  | batchSize => some (.number settings.embedding.batchSize)
  | maxRetries => some (.number settings.embedding.maxRetries)
  | timeoutSecs => some (.number settings.embedding.timeoutSecs)
  | indexApiUrl => settings.reconciler.indexApiUrl.map .text
  | intervalSecs => some (.number settings.reconciler.intervalSecs)
  | pollTimeoutSecs => some (.number settings.reconciler.pollTimeoutSecs)
  | defaultTopK => some (.number settings.reconciler.defaultTopK)
  | logLevel => some (.text settings.log.level)

/-- Writes a value under a key; one of another kind changes nothing. -/
def set (settings : Settings) : SettingsKey → SettingValue → Settings
  | bind, .text value => { settings with server.bind := value }
  | toolsBind, .text value => { settings with server.toolsBind := value }
  | maxUploadBytes, .number value => { settings with server.maxUploadBytes := value }
  | backend, .text value => { settings with objectStore.backend := value }
  | endpointUrl, .text value => { settings with objectStore.endpointUrl := value }
  | storeRegion, .text value => { settings with objectStore.region := value }
  | targetId, .text value => { settings with notifications.id := value }
  | targetType, .text value => { settings with notifications.kind := value }
  | targetRegion, .text value => { settings with notifications.region := value }
  | events, .texts values => { settings with notifications.events := values }
  | databaseUrl, .text value => { settings with database.url := value }
  | maxConnections, .number value => { settings with database.maxConnections := value }
  | acquireTimeoutSecs, .number value => { settings with database.acquireTimeoutSecs := value }
  | provider, .text value => { settings with embedding.provider := value }
  | model, .text value => { settings with embedding.model := some value }
  | dims, .number value => { settings with embedding.dims := some value }
  | embeddingUrl, .text value => { settings with embedding.url := some value }
  | batchSize, .number value => { settings with embedding.batchSize := value }
  | maxRetries, .number value => { settings with embedding.maxRetries := value }
  | timeoutSecs, .number value => { settings with embedding.timeoutSecs := value }
  | indexApiUrl, .text value => { settings with reconciler.indexApiUrl := some value }
  | intervalSecs, .number value => { settings with reconciler.intervalSecs := value }
  | pollTimeoutSecs, .number value => { settings with reconciler.pollTimeoutSecs := value }
  | defaultTopK, .number value => { settings with reconciler.defaultTopK := value }
  | logLevel, .text value => { settings with log.level := value }
  | _, _ => settings

end SettingsKey
end Corpora
