import Corpora.Cli.Help
import Corpora.Config.Database
import Corpora.Config.File
import Corpora.Embedding.Client
import Corpora.Number.Fixed
import Corpora.S3.Remote
import Corpora.Search.Backend
import Corpora.Server.Listen
import Corpora.Tools.Query

/-!
What a command does on a machine: its files, variables, databases and the peer that it talks to
are given, and what it prints and sends is the result.
-/

namespace Corpora.Cli

open Wire (Conversation Outcome Sent)
open S3 (RemoteSession)

structure Database where
  statuses : StatusBackend
  chunks : ChunkBackend

structure Machine where
  environment : List Overlay.Variable
  file? : String → Option Bytes
  database? : String → Option Database
  now : Time.Instant
  ids : Nat → String

namespace Machine

def lookup? (machine : Machine) (name : String) : Option String :=
  (machine.environment.find? fun variable_ => variable_.name == name).map Overlay.Variable.value

def connect (machine : Machine) (settings : Settings) : Attempt Database := do
  let kind ← DatabaseKind.ofUrl settings.database.url
  match machine.database? settings.database.url with
  | some database => return database
  | none =>
      .error (Failure.foreign.within ("Failed to connect to " ++ kind.name ++ " database"))

end Machine

inductive Objects where
  | memory
  | remote (client : S3.Client)
  deriving Repr, DecidableEq

def Objects.ofSettings (machine : Machine) (settings : ObjectStoreSettings) : Attempt Objects :=
  if settings.backend == "s3" then do
    let credentials ← S3.Client.credentialsOf machine.lookup?
    return .remote (← S3.Client.new settings.endpointUrl settings.region credentials)
  else if settings.backend == "memory" then .ok .memory
  else Attempt.fail ("Unknown object_store backend: '" ++ settings.backend ++ "'")

def Objects.run (objects : Objects) (machine : Machine) (statuses : StatusBackend)
    (program : Service.Program α) (conversation : Conversation) : α × Conversation :=
  match objects with
  | memory =>
      let (result, _) := program.run
        ⟨fun _ _ => .performed, fun _ _ => .performed, fun _ => machine.now, machine.ids⟩
        (.start ⟨.empty, statuses⟩)
      (result, conversation)
  | remote client =>
      let (result, session) := client.run machine.now machine.ids program
        ⟨conversation, statuses, 0, 0⟩
      (result, session.conversation)

structure Backends where
  objects : Objects
  database : Database

def Backends.ofSettings (machine : Machine) (settings : Settings) : Attempt Backends := do
  let objects ← Objects.ofSettings machine settings.objectStore
  return ⟨objects, ← machine.connect settings⟩

inductive Ending where
  | printed (text : String)
  | serving (addresses : List String)
  deriving Repr, DecidableEq

def indexLine (index : Index) : String :=
  (if index.description.isEmpty then index.name else index.name ++ "  " ++ index.description) ++
    "\n"

def listingText (indices : List Index) : String :=
  if indices.isEmpty then "No indices.\n" else String.join (indices.map indexLine)

def hitLines (hit : Hit) (rank : Nat) : String :=
  Number.ofNat rank ++ ". [" ++ Number.fixedText 4 hit.score.toBits.toNat ++ "] " ++
    hit.filename ++ " #" ++ Number.ofInt hit.chunk ++ "\n   " ++
    Text.replace "\n" " " hit.content ++ "\n"

def answerText (answer : QueryAnswer) : String :=
  if answer.results.isEmpty then "No results.\n"
  else String.join (answer.results.zipIdx.map fun (hit, place) => hitLines hit (place + 1))

def attempt (answered : Answered α) : Attempt α := answered.mapError ServiceError.toFailure

def listIndices (machine : Machine) (settings : Settings) (conversation : Conversation) :
    Attempt Ending × Conversation :=
  match Backends.ofSettings machine settings with
  | .error why => (.error why, conversation)
  | .ok backends =>
      let (listed, after) := backends.objects.run machine backends.database.statuses
        Service.listIndices.run conversation
      ((attempt listed).map fun indices => .printed (listingText indices), after)

def providerOf (machine : Machine) (settings : Settings) : Attempt Embedding.Provider :=
  Embedding.Provider.ofSettings settings.embedding (machine.lookup? "OPENAI_API_KEY")

def query (machine : Machine) (settings : Settings) (index text : String) (limit : Option Nat)
    (conversation : Conversation) : Attempt Ending × Conversation :=
  let prepared : Attempt (Database × Embedding.Provider) := do
    let database ← machine.connect settings
    return (database, ← providerOf machine settings)
  match prepared with
  | .error why => (.error why, conversation)
  | .ok (database, provider) =>
      let tool := QueryTool.new index "" settings.reconciler.defaultTopK
      match tool.check text limit with
      | .error error => (.error error.toFailure, conversation)
      | .ok wanted =>
          let (embedded, after) :=
            provider.embedQuery settings.embedding.maxRetries wanted.query conversation
          ((attempt (tool.conclude database.chunks.search wanted embedded)).map
            fun answer => .printed (answerText answer), after)

def serve (machine : Machine) (settings : Settings) : ServeTarget → Attempt Ending
  | .api => do
      let _ ← Backends.ofSettings machine settings
      Server.listen settings.server.bind
      return .serving [settings.server.bind]
  | .tools => do
      if settings.reconciler.indexApiUrl.isNone then
        let _ ← Backends.ofSettings machine settings
      let _ ← machine.connect settings
      let _ ← providerOf machine settings
      Server.listen settings.server.toolsBind
      return .serving [settings.server.toolsBind]
  | .all => do
      let _ ← Backends.ofSettings machine settings
      let _ ← machine.connect settings
      let _ ← providerOf machine settings
      Server.listen settings.server.bind
      Server.listen settings.server.toolsBind
      return .serving [settings.server.bind, settings.server.toolsBind]

def defaultConfigPath : String := "./config/ragx.toml"

def Command.run (command : Command) (machine : Machine) (settings : Settings)
    (conversation : Conversation) : Attempt Ending × Conversation :=
  match command with
  | .migrate =>
      ((machine.connect settings).map fun _ => .printed "Migrations applied.\n", conversation)
  | .serve target => (Cli.serve machine settings target, conversation)
  | .indices => listIndices machine settings conversation
  | .query index text limit => Cli.query machine settings index text limit conversation

structure Result where
  code : Nat
  ending : Ending
  failure : Option Failure
  sent : List Sent

def run (machine : Machine) (script : List Outcome) (arguments : List String) : Result :=
  match parse arguments with
  | .refused => ⟨2, .printed "", none, []⟩
  | .version => ⟨0, .printed versionText, none, []⟩
  | .help topic => ⟨0, .printed topic.page, none, []⟩
  | .run command config =>
      let path := config.getD defaultConfigPath
      match Settings.load path (machine.file? path) machine.environment with
      | .error why => ⟨1, .printed "", some why, []⟩
      | .ok settings =>
          match command.run machine settings (.start script) with
          | (.ok ending, after) => ⟨0, ending, none, after.sent⟩
          | (.error why, after) => ⟨1, .printed "", some why, after.sent⟩

end Corpora.Cli
