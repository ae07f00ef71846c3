import Corpora.Http.MediaType
import Corpora.Json.Reader

/-!
JSON bodies of requests, and the four ways in which one is refused. The content type is looked at
first, then the length, and the text last.
-/

namespace Corpora.Http

inductive BodyFault where
  | notJson
  | tooLong
  | malformed
  | mismatched
  deriving Repr, DecidableEq

namespace BodyFault

def reason : BodyFault → String
  | notJson => "Expected request with \x60Content-Type: application/json\x60"
  | tooLong => "Failed to buffer the request body: length limit exceeded"
  | malformed => "Failed to parse the request body as JSON"
  | mismatched => "Failed to deserialize the JSON body into the target type"

def toError (fault : BodyFault) : ServiceError :=
  .badRequest ("Invalid request body: " ++ fault.reason)

end BodyFault

def hasJsonType (headers : List Header) : Bool :=
  match (header? headers "content-type").bind MediaType.ofHeader? with
  | some type_ => type_.isJson
  | none => false

def Request.readJson (request : Request) (limit : Nat) (decoder : Json.Decoder α) :
    Except BodyFault α :=
  if !hasJsonType request.headers then .error .notJson
  else if request.body.length > limit then .error .tooLong
  else match Json.decode decoder request.body with
    | .ok value => .ok value
    | .error .malformed => .error .malformed
    | .error .mismatched => .error .mismatched

end Corpora.Http
