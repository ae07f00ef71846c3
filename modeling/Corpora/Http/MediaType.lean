import Corpora.Http.Message
import Corpora.Text.Search

/-!
Media types such as `text/plain; charset=utf-8`: a kind, a subtype that may end in a suffix behind
a plus sign, and parameters.
-/

namespace Corpora.Http

def isMediaTypeChar (c : Char) : Bool :=
  Text.isAlphanumeric c || "!#$%&+-.^_\x60".toList.contains c

def isQuotedChar (c : Char) : Bool := 0x1F < c.toNat && c.toNat != 0x7F

structure Parameter where
  name : String
  value : String
  deriving Repr, DecidableEq

structure MediaType where
  kind : String
  subtype : String
  suffix : Option String
  parameters : List Parameter
  text : String
  deriving Repr, DecidableEq

namespace MediaType

/-- A value between quotes with what follows the closing one; a quote as its first character
belongs to the value. -/
def quotedValue? : List Char → Option (List Char × List Char)
  | [] => none
  | first :: rest =>
      if !isQuotedChar first then none
      else
        let inner := rest.takeWhile fun c => c != '"'
        match rest.dropWhile fun c => c != '"' with
        | '"' :: behind =>
            if inner.all isQuotedChar then some (first :: inner, behind) else none
        | _ => none

structure ReadParameter where
  name : List Char
  written : List Char
  value : List Char
  gap : List Char
  rest : List Char

def readParameter? (cs : List Char) : Option ReadParameter :=
  let name := cs.takeWhile isMediaTypeChar
  if name.isEmpty then none
  else match cs.drop name.length with
    | '=' :: '"' :: behind => do
        let (value, rest) ← quotedValue? behind
        let blanks := rest.takeWhile (· == ' ')
        let written := '"' :: (value ++ ['"'])
        match rest.drop blanks.length with
        | [] => return ⟨name, written, value, blanks, []⟩
        | ';' :: rest => return ⟨name, written, value, blanks ++ [';'], rest⟩
        | _ => none
    | '=' :: behind =>
        let value := behind.takeWhile isMediaTypeChar
        match behind.drop value.length with
        | [] => some ⟨name, value, value, [], []⟩
        | ';' :: rest => if value.isEmpty then none else some ⟨name, value, value, [';'], rest⟩
        | _ => none
    | _ => none

/-- The parameters behind the first separator, each with the text that it is normalised to: names
in small letters, and likewise the value of `charset`. -/
def readParameters? : (fuel : Nat) → List Char → Option (List Parameter × List Char)
  | 0, _ => none
  | fuel + 1, cs =>
      let blanks := cs.takeWhile (· == ' ')
      match cs.drop blanks.length with
      | [] => some ([], blanks)
      | start => do
          let found ← readParameter? start
          let (more, text) ← readParameters? fuel found.rest
          let name := found.name.map Text.lowerChar
          let written := if name = "charset".toList then found.written.map Text.lowerChar
            else found.written
          return (⟨String.ofList name, String.ofList found.value⟩ :: more,
            blanks ++ name ++ '=' :: written ++ found.gap ++ text)

/-- The suffix of a subtype: what stands behind its last plus sign, unless that comes first. -/
def splitSuffix (subtype : List Char) : List Char × Option (List Char) :=
  let behind := (subtype.reverse.takeWhile (· != '+')).reverse
  let before := subtype.take (subtype.length - behind.length - 1)
  if before.isEmpty || behind.length = subtype.length then (subtype, none)
  else (before, some behind)

def build (kind subtype : List Char) (parameters : List Parameter) (ending : List Char) :
    MediaType :=
  let kind := kind.map Text.lowerChar
  let subtype := subtype.map Text.lowerChar
  let (stem, suffix) := splitSuffix subtype
  ⟨String.ofList kind, String.ofList stem, suffix.map String.ofList, parameters,
    String.ofList (kind ++ '/' :: subtype ++ ending)⟩

def parse? (text : String) : Option MediaType :=
  if text = "*/*" then some (build ['*'] ['*'] [] [])
  else
    let cs := text.toList
    let kind := cs.takeWhile isMediaTypeChar
    match kind.isEmpty, cs.drop kind.length with
    | false, '/' :: behind =>
        let subtype := if behind.head? == some '*' then ['*'] else behind.takeWhile isMediaTypeChar
        let ended (separator : Char) (rest : List Char) : Option MediaType := do
          let (parameters, ending) ← readParameters? (rest.length + 1) rest
          return build kind subtype parameters
            (if parameters.isEmpty then [] else separator :: ending)
        match subtype.isEmpty, behind.drop subtype.length with
        | true, _ => none
        | false, [] => some (build kind subtype [] [])
        | false, ';' :: rest => ended ';' rest
        | false, ' ' :: rest => if subtype = ['*'] then none else ended ' ' rest
        | false, _ => none
    | _, _ => none

def parameter? (type_ : MediaType) (name : String) : Option String :=
  (type_.parameters.find? fun parameter => parameter.name == name).map Parameter.value

def isJson (type_ : MediaType) : Bool :=
  type_.kind == "application" && (type_.subtype == "json" || type_.suffix == some "json")

def ofHeader? (value : String) : Option MediaType :=
  if isPrintable value then parse? value else none

end MediaType
end Corpora.Http
