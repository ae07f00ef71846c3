import Corpora.Order.SortedMap
import Corpora.Tools.Query

/-!
The registry of tools that agents can call, sorted by name. A tool that was taken out of it can
still be called by whoever holds it.
-/

namespace Corpora

inductive Tool where
  | query (tool : QueryTool)
  | echo (name : String)
  deriving Repr, DecidableEq

namespace Tool

def name : Tool → String
  | query tool => tool.name
  | echo name => name

def description : Tool → String
  | query tool => tool.description
  | echo _ => "Echo"

def schema : Tool → Json
  | query tool => tool.schema
  | echo _ => .bool true

def execute (retrieval : Retrieval) (parameters : Json) : Tool → Answered Json
  | query tool => tool.execute retrieval parameters
  | echo _ => .ok (.object [("echo", parameters)])

def json (tool : Tool) : Json :=
  .object [("description", .string tool.description), ("name", .string tool.name),
    ("parameters", tool.schema)]

end Tool

structure ToolRegistry where
  tools : SortedMap String Tool

namespace ToolRegistry

def empty : ToolRegistry := ⟨∅⟩

def register (registry : ToolRegistry) (tool : Tool) : ToolRegistry :=
  ⟨registry.tools.insert tool.name tool⟩

def unregister (registry : ToolRegistry) (name : String) : ToolRegistry :=
  ⟨registry.tools.erase name⟩

def contains (registry : ToolRegistry) (name : String) : Bool := registry.tools.contains name

def get? (registry : ToolRegistry) (name : String) : Option Tool := registry.tools.get? name

def names (registry : ToolRegistry) : List String := registry.tools.keys

def list (registry : ToolRegistry) : List Tool := registry.tools.values

def toolMissing (name : String) : ServiceError :=
  .notFound ("no tool registered with name: " ++ name)

def invoke (registry : ToolRegistry) (retrieval : Retrieval) (name : String)
    (parameters : Json) : Answered Json :=
  match registry.get? name with
  | some tool => tool.execute retrieval parameters
  | none => .error (toolMissing name)

def indices (registry : ToolRegistry) : SortedMap String String :=
  SortedMap.ofList (registry.list.filterMap fun tool =>
    (queryToolIndex? tool.name).map fun index => (index, tool.description))

end ToolRegistry
end Corpora
