import Corpora.Cli.Run

/-!
The command line on the machine at hand. Nothing is reached over a network here: every request is
dropped, no server can be kept up, and the only database is the one in memory.
-/

namespace Corpora.Cli

def variableNames : List String :=
  Overlay.plainVariables.map Prod.fst ++
    SettingsKey.all.map (fun key =>
      Overlay.nameStart ++ Text.upper (key.path.1.name ++ "_" ++ key.path.2)) ++
    ["AWS_ACCESS_KEY_ID", "AWS_SECRET_ACCESS_KEY", "AWS_SESSION_TOKEN", "OPENAI_API_KEY"]

def readVariables : IO (List Overlay.Variable) :=
  variableNames.filterMapM fun name => do
    return (← IO.getEnv name).map fun value => ⟨name, value⟩

def readFile? (path : String) : IO (Option Bytes) := do
  try
    return some (← IO.FS.readBinFile path).data.toList
  catch _ => return none

def memoryDatabase? (url : String) : Option Database :=
  if url == "sqlite::memory:" then some ⟨.unprepared, .unprepared⟩ else none

def configPath (arguments : List String) : String :=
  match parse arguments with
  | .run _ config => config.getD defaultConfigPath
  | _ => defaultConfigPath

def printReasons (failure : Failure) : IO Unit := do
  IO.eprintln ("Error: " ++ failure.message)
  for reason in failure.causes do
    IO.eprintln ("  " ++ reason)

end Corpora.Cli

def main (arguments : List String) : IO UInt32 := do
  let path := Corpora.Cli.configPath arguments
  let file ← Corpora.Cli.readFile? path
  let machine : Corpora.Cli.Machine :=
    { environment := ← Corpora.Cli.readVariables
      file? := fun asked => if asked = path then file else none
      database? := Corpora.Cli.memoryDatabase?
      now := Corpora.Time.Instant.epoch
      ids := Corpora.Number.ofNat }
  let result := Corpora.Cli.run machine [] arguments
  match result.ending with
  | .printed text => IO.print text
  | .serving _ => IO.eprintln "Error: no network to serve on"
  match result.failure with
  | some failure => Corpora.Cli.printReasons failure
  | none => pure ()
  return result.code.toUInt32
