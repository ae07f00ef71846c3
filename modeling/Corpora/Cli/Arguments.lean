import Corpora.Number.Decimal
import Corpora.Text.Search

/-!
The arguments of the command line: a command with its own arguments, and options that may stand
anywhere before a double dash. Whatever is unknown, missing or given twice refuses the whole line.
-/

namespace Corpora.Cli

inductive ServeTarget where
  | api
  | tools
  | all
  deriving Repr, DecidableEq

inductive Command where
  | migrate
  | serve (target : ServeTarget)
  | indices
  | query (index text : String) (limit : Option Nat)
  deriving Repr, DecidableEq

inductive Topic where
  | program
  | migrate
  | serve
  | indices
  | query
  | target (target : ServeTarget)
  deriving Repr, DecidableEq

inductive Line where
  | run (command : Command) (config : Option String)
  | help (topic : Topic)
  | version
  | refused
  deriving Repr, DecidableEq

namespace Topic

def words : Topic → List (String × Topic)
  | program => [("migrate", migrate), ("serve", serve), ("indices", indices), ("query", query)]
  | serve => [("api", target .api), ("tools", target .tools), ("all", target .all)]
  | _ => []

def arity : Topic → Nat
  | query => 2
  | _ => 0

def command? (limit : Option Nat) : Topic → List String → Option Command
  | migrate, [] => some .migrate
  | indices, [] => some .indices
  | query, [index, text] => some (.query index text limit)
  | target chosen, [] => some (.serve chosen)
  | _, _ => none

end Topic

structure Draft where
  topic : Topic
  plain : List String
  config : Option String
  limit : Option Nat
  deriving Repr, DecidableEq

namespace Draft

def start : Draft := ⟨.program, [], none, none⟩

def takePlain? (draft : Draft) (argument : String) : Option Draft :=
  if draft.topic.words.isEmpty then
    if draft.plain.length < draft.topic.arity then
      some { draft with plain := draft.plain ++ [argument] }
    else none
  else (draft.topic.words.lookup argument).map fun topic => { draft with topic := topic }

def takeOption? (draft : Draft) (name value : String) : Option Draft :=
  if name == "config" then
    if draft.config.isSome then none else some { draft with config := some value }
  else if name == "top-k" && draft.topic == .query && draft.limit.isNone then
    (Number.unsigned? Number.maxUnsigned64 value).map fun limit =>
      { draft with limit := some limit }
  else none

def finish (draft : Draft) : Line :=
  match draft.topic.command? draft.limit draft.plain with
  | some command => .run command draft.config
  | none => .refused

end Draft

def helpFor (topic : Topic) : List String → Line
  | [] => .help topic
  | "help" :: [] => .help topic
  | word :: rest =>
      match topic.words.lookup word with
      | some inner => helpFor inner rest
      | none => .refused

def looksLikeOption (argument : String) : Bool :=
  match argument.toList with
  | '-' :: _ :: _ => true
  | _ => false

def readLine (draft : Draft) : List String → Line
  | [] => draft.finish
  | "--" :: rest =>
      match rest.foldlM Draft.takePlain? draft with
      | some draft => draft.finish
      | none => .refused
  | argument :: rest =>
      match argument.toList with
      | '-' :: '-' :: option =>
          if option = "help".toList then .help draft.topic
          else if option = "version".toList && draft.topic = .program then .version
          else match Text.splitFirst? ['='] option with
            | some (name, value) =>
                match draft.takeOption? (String.ofList name) (String.ofList value) with
                | some draft => readLine draft rest
                | none => .refused
            | none =>
                match rest with
                | value :: rest =>
                    if looksLikeOption value then .refused
                    else match draft.takeOption? (String.ofList option) value with
                      | some draft => readLine draft rest
                      | none => .refused
                | [] => .refused
      | ['-', 'h'] => .help draft.topic
      | ['-', 'V'] => if draft.topic = .program then .version else .refused
      | '-' :: _ :: _ => .refused
      | _ =>
          if argument = "help" && !draft.topic.words.isEmpty then helpFor draft.topic rest
          else match draft.takePlain? argument with
            | some draft => readLine draft rest
            | none => .refused

def parse (arguments : List String) : Line := readLine .start arguments

end Corpora.Cli
