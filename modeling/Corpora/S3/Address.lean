import Corpora.Failure
import Corpora.Text.Percent
import Corpora.Text.Search

/-!
Where a bucket or object is found: the endpoint of the service and the path below it.
-/

namespace Corpora.S3

inductive Address where
  | service
  | bucket (name : String)
  | object (bucket key : String)
  deriving Repr, DecidableEq

def encodeChars (cs : List Char) : List Char :=
  (Text.Percent.encode (String.ofList cs)).toList

def Address.path : Address → String
  | service => "/"
  | bucket name => "/" ++ Text.Percent.encode name
  | object container key => "/" ++ Text.Percent.encode container ++ "/" ++
      String.ofList (['/'].intercalate ((Text.splitAt '/' key.toList).map encodeChars))

structure Endpoint where
  scheme : String
  host : String
  deriving Repr, DecidableEq

/-- The endpoint of a URL; without a scheme it is a secure one. -/
def Endpoint.ofUrl (url : String) : Attempt Endpoint :=
  let trimmed := Text.withoutEndSlashes url
  let endpoint : Endpoint := match Text.splitFirst? "://".toList trimmed.toList with
    | some (scheme, host) => ⟨String.ofList scheme, String.ofList host⟩
    | none => ⟨"https", trimmed⟩
  if endpoint.host.isEmpty then Attempt.fail "object_store.endpoint_url must include a host"
  else .ok endpoint

end Corpora.S3
