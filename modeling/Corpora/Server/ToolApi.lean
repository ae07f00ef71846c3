import Corpora.Http.JsonBody
import Corpora.Http.Route
import Corpora.Server.Health
import Corpora.Tools.Registry

/-!
The tools over HTTP: a list of them, and calls with JSON parameters.
-/

namespace Corpora.Server

open Http (Method Request Response UndecodableParameter)

inductive ToolResource where
  | health
  | tools
  | tool (name : String)
  deriving Repr, DecidableEq

namespace ToolResource

/-- The resource of the segments of a path; the list is found before a tool of its name. -/
def ofSegments? : List String → Option ToolResource
  | ["health"] => some health
  | ["tools", "list"] => some tools
  | ["tools", name] => if name.isEmpty then none else some (tool name)
  | _ => none

def methods : ToolResource → List Method
  | health => [.get]
  | tools => [.get]
  | tool _ => [.post]

end ToolResource

def callLimit : Nat := 2097152

def callTool (registry : ToolRegistry) (retrieval : Retrieval) (rawName : String)
    (request : Request) : Response :=
  match Http.decodeParameter "name" rawName with
  | .error fault => fault.response
  | .ok name =>
      match request.readJson callLimit Json.value with
      | .error fault => .ofError fault.toError
      | .ok parameters =>
          .ofAnswered (fun result => .json 200 (.object [("result", result)]))
            (registry.invoke retrieval name parameters)

def handleTools (registry : ToolRegistry) (retrieval : Retrieval) (request : Request) : Response :=
  let resource := ToolResource.ofSegments? (Http.segments request.target)
  Id.run <| Http.dispatch (resource.map ToolResource.methods) request.method fun _ =>
    match resource with
    | none => .empty 404
    | some .health => health
    | some .tools =>
        .json 200 (.object [("tools", .array (registry.list.map Tool.json))])
    | some (.tool name) => callTool registry retrieval name request

end Corpora.Server
