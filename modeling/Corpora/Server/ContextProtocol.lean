import Corpora.Json.Writer
import Corpora.Server.Health
import Corpora.Tools.Registry

/-!
The tools as agents see them over the Model Context Protocol: what the server says about itself,
the descriptors of the tools, and calls. A tool that fails gives a result that tells so; a tool
that is not there is an error of the protocol.
-/

namespace Corpora.ContextProtocol

structure CallError where
  code : Int
  message : String
  deriving Repr, DecidableEq

def methodMissing (message : String) : CallError := ⟨-32601, message⟩

def revision : String := "2025-03-26"

def instructions : String :=
  "Each RAG index is exposed as a \x60query-<index>\x60 tool. Call it with a \x60query\x60 " ++
    "string and an optional \x60top_k\x60 to retrieve the most relevant document chunks."

def greeting : Json :=
  .object [("protocolVersion", .string revision),
    ("capabilities", .object [("tools", .object [])]),
    ("serverInfo", .object [("name", .string "rag-indices"), ("title", .string "RAG Indices"),
      ("version", .string Server.version)]),
    ("instructions", .string instructions)]

def inputSchema : Json → Json
  | .object members => .object members
  | _ => .object []

def descriptor (tool : Tool) : Json :=
  .object [("name", .string tool.name), ("description", .string tool.description),
    ("inputSchema", inputSchema tool.schema),
    ("annotations", .object [("readOnlyHint", .bool true)])]

def list (registry : ToolRegistry) : Json :=
  .object [("tools", .array (registry.list.map descriptor))]

def textResult (text : String) (isError : Bool) : Json :=
  .object [("content", .array [.object [("type", .string "text"), ("text", .string text)]]),
    ("isError", .bool isError)]

def call (registry : ToolRegistry) (retrieval : Retrieval) (name : String)
    (arguments : Option Json) : Except CallError Json :=
  let run (parameters : Json) : Except CallError Json :=
    match registry.get? name with
    | none => .error (methodMissing (ToolRegistry.toolMissing name).message)
    | some tool =>
        match tool.execute retrieval parameters with
        | .ok result => .ok (textResult result.prettyText false)
        | .error error => .ok (textResult error.message true)
  match arguments with
  | none => run (.object [])
  | some .null => run (.object [])
  | some (.object members) => run (.object members)
  | some _ => .error (methodMissing "tools/call")

end Corpora.ContextProtocol
