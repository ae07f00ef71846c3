import Corpora.Http.Message
import Corpora.Text.Percent
import Corpora.Text.Search

/-!
How a request finds its resource. The segments of a path are compared as they are written, and
the parameters among them are decoded once afterwards. Every origin may read an answer.
-/

namespace Corpora.Http

def segments (target : String) : List String :=
  match Text.splitAt '/' (pathOf target) with
  | _ :: rest => rest.map String.ofList
  | [] => []

structure UndecodableParameter where
  name : String
  deriving Repr, DecidableEq

def UndecodableParameter.response (fault : UndecodableParameter) : Response :=
  .plainText 400 ("Invalid URL: Invalid UTF-8 in \x60" ++ fault.name ++ "\x60")

def decodeParameter (name raw : String) : Except UndecodableParameter String :=
  match Text.Percent.decode? raw with
  | some text => .ok text
  | none => .error ⟨name⟩

/-- The methods that are answered besides those of a resource: where there is `GET` there is
`HEAD`. -/
def withHead : List Method → List Method
  | [] => []
  | .get :: rest => .get :: .head :: withHead rest
  | method :: rest => method :: withHead rest

def allowHeader (methods : List Method) : String :=
  ",".intercalate ((withHead methods).map Method.name)

def allowOrigin (response : Response) : Response :=
  response.withHeader "access-control-allow-origin" "*"

/-- Answers a request for a resource, if there is one, with its methods. `respond` gives the
response to one of them; `HEAD` is `GET` without the body, and `OPTIONS` is always answered. -/
def dispatch [Monad m] (methods : Option (List Method)) (method : Method)
    (respond : Method → m Response) : m Response := do
  match methods with
  | none =>
      return allowOrigin (.empty (if method = .options then 200 else 404))
  | some methods =>
      if method = .options then
        return allowOrigin ((Response.empty 200).withHeader "allow" (allowHeader methods))
      else if method = .head ∧ .get ∈ methods then
        return allowOrigin (← respond .get).withoutBody
      else if method ∈ methods then
        return allowOrigin (← respond method)
      else
        return allowOrigin ((Response.empty 405).withHeader "allow" (allowHeader methods))

end Corpora.Http
