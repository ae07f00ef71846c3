import Corpora.Http.Message

/-!
The answer that tells that a server is up, and the version that it tells.
-/

namespace Corpora.Server

def version : String := "0.1.0"

def health : Http.Response :=
  .json 200 (.object [("status", .string "ok"), ("version", .string version)])

end Corpora.Server
