import Corpora.Cli.Arguments
import Corpora.Server.Health

/-!
The pages of help of the command line.
-/

namespace Corpora.Cli

def programName : String := "ragx"

def versionText : String := programName ++ " " ++ Server.version ++ "\n"

structure Entry where
  term : String
  meaning : String

namespace Topic

def about : Topic → String
  | program => "RAG index management and per-index retrieval tools for agents"
  | migrate => "Create the status and embedding tables. Idempotent"
  | serve => "Start a server"
  | indices => "List valid indices"
  | query => "Query one index through its query tool"
  | target .api => "Index management API on \x60server.bind\x60"
  | target .tools => "Tool server and reconciler on \x60server.tools_bind\x60"
  | target .all => "Both servers; the reconciler lists indices in-process"

def path : Topic → List String
  | program => []
  | migrate => ["migrate"]
  | serve => ["serve"]
  | indices => ["indices"]
  | query => ["query"]
  | target .api => ["serve", "api"]
  | target .tools => ["serve", "tools"]
  | target .all => ["serve", "all"]

def plainArguments : Topic → List Entry
  | query => [⟨"<INDEX>", "Index name"⟩, ⟨"<TEXT>", "Query text"⟩]
  | _ => []

def commands (topic : Topic) : List Entry :=
  if topic.words.isEmpty then []
  else topic.words.map (fun (word, inner) => ⟨word, inner.about⟩) ++
    [⟨"help", "Print this message or the help of the given subcommand(s)"⟩]

def options (topic : Topic) : List Entry :=
  (if topic = .query then [⟨"    --top-k <TOP_K>",
    "Maximum number of results (default: \x60reconciler.default_top_k\x60)"⟩] else []) ++
  [⟨"    --config <CONFIG>", "Path to configuration file (TOML). Defaults to " ++
      "\x60./config/ragx.toml\x60; a missing file means built-in defaults plus " ++
      "\x60RAGX_*\x60 overrides"⟩,
    ⟨"-h, --help", "Print help"⟩] ++
  (if topic = .program then [⟨"-V, --version", "Print version"⟩] else [])

def column (entries : List Entry) : String :=
  let width := entries.foldl (fun widest entry => max widest entry.term.length) 0
  String.join (entries.map fun entry =>
    "  " ++ entry.term ++ String.ofList (List.replicate (width - entry.term.length) ' ') ++
      "  " ++ entry.meaning ++ "\n")

def section_ (title : String) (entries : List Entry) : String :=
  if entries.isEmpty then "" else title ++ ":\n" ++ column entries ++ "\n"

def page (topic : Topic) : String :=
  topic.about ++ "\n\nUsage: " ++ " ".intercalate
      ([programName] ++ topic.path ++ ["[OPTIONS]"] ++ topic.plainArguments.map Entry.term ++
        (if topic.words.isEmpty then [] else ["<COMMAND>"])) ++ "\n\n" ++
    section_ "Commands" topic.commands ++ section_ "Arguments" topic.plainArguments ++
    "Options:\n" ++ column topic.options

end Topic
end Corpora.Cli
