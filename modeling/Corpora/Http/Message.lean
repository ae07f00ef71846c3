import Corpora.Json.Writer
import Corpora.Service.Error
import Corpora.Text.Ascii

/-!
Requests and responses. The names of headers are kept in small letters, and of several headers of
one name the first one counts.
-/

namespace Corpora.Http

inductive Method where
  | get
  | head
  | post
  | put
  | delete
  | options
  | other (name : String)
  deriving Repr, DecidableEq

namespace Method

def ofName (name : String) : Method :=
  match name with
  | "GET" => get
  | "HEAD" => head
  | "POST" => post
  | "PUT" => put
  | "DELETE" => delete
  | "OPTIONS" => options
  | name => other name

def name : Method → String
  | get => "GET"
  | head => "HEAD"
  | post => "POST"
  | put => "PUT"
  | delete => "DELETE"
  | options => "OPTIONS"
  | other name => name

end Method

structure Header where
  name : String
  value : String
  deriving Repr, DecidableEq

structure Request where
  method : Method
  target : String
  headers : List Header
  body : Bytes

def header? (headers : List Header) (name : String) : Option String :=
  (headers.find? fun header => header.name == name).map Header.value

def pathOf (target : String) : List Char :=
  target.toList.takeWhile fun c => c != '?' && c != '#'

structure Response where
  status : Nat
  headers : List Header
  body : Bytes
  deriving Repr, DecidableEq

/-- Whether a text may be the value of a header: no control character but the tab, and no
delete character. -/
def isHeaderValue (text : String) : Bool :=
  (Text.Utf8.encode text).all fun b => (b ≥ 0x20 || b == 0x09) && b != 0x7F

def isPrintable (text : String) : Bool :=
  text.toList.all fun c => (0x20 ≤ c.toNat && c.toNat < 0x7F) || c == '\t'

namespace Response

def contentType (value : String) : Header := ⟨"content-type", value⟩

def jsonType : String := "application/json"

def empty (status : Nat) : Response := ⟨status, [], []⟩

def json (status : Nat) (value : Json) : Response :=
  ⟨status, [contentType jsonType], Text.Utf8.encode value.compactText⟩

def plainText (status : Nat) (text : String) : Response :=
  ⟨status, [contentType "text/plain; charset=utf-8"], Text.Utf8.encode text⟩

/-- How an error is answered. The reasons of an internal error are not told. -/
def ofError (error : ServiceError) : Response :=
  json error.status (.object [("error", .string error.message)])

def ofAnswered (render : α → Response) : Answered α → Response
  | .ok value => render value
  | .error error => ofError error

def withHeader (response : Response) (name value : String) : Response :=
  { response with headers := response.headers ++ [⟨name, value⟩] }

def withoutBody (response : Response) : Response := { response with body := [] }

end Response
end Corpora.Http
