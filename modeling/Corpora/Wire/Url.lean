import Corpora.Number.Decimal
import Corpora.Text.Percent
import Corpora.Text.Search

/-!
Web addresses as they are put on the wire. Reading one makes it normal: scheme and host are in
small letters, the usual port is left out, and the segments `.` and `..` are taken out of the path.
-/

namespace Corpora.Wire

structure Url where
  scheme : String
  host : String
  port : Option Nat
  path : String
  query : Option String
  deriving Repr, DecidableEq

namespace Url

def usualPort? : String → Option Nat
  | "http" => some 80
  | "https" => some 443
  | _ => none

def portNumber (url : Url) : Nat := url.port.getD ((usualPort? url.scheme).getD 0)

def authority (url : Url) : String :=
  match url.port with
  | some port => url.host ++ ":" ++ Number.ofNat port
  | none => url.host

def text (url : Url) : String :=
  url.scheme ++ "://" ++ url.authority ++ url.path ++
    (match url.query with
      | some query => "?" ++ query
      | none => "")

def dots : List String := [".", "%2e"]

def isSingleDot (segment : List Char) : Bool :=
  dots.contains (Text.lower (String.ofList segment))

def isDoubleDot (segment : List Char) : Bool :=
  (dots.flatMap fun a => dots.map (a ++ ·)).contains (Text.lower (String.ofList segment))

/-- The segments of a path without `.` and `..`; `kept` are those before, in reverse order. -/
def resolve : (kept : List (List Char)) → List (List Char) → List (List Char)
  | kept, [] => kept.reverse
  | kept, segment :: rest =>
      let closing (kept : List (List Char)) : List (List Char) :=
        if rest.isEmpty then [] :: kept else kept
      if isDoubleDot segment then resolve (closing kept.tail) rest
      else if isSingleDot segment then resolve (closing kept) rest
      else resolve (segment :: kept) rest

def isPathEncoded (c : Char) : Bool :=
  c.toNat ≤ 0x20 || 0x7E < c.toNat || "\"#<>?\x60\x7b\x7d".toList.contains c

def isQueryEncoded (c : Char) : Bool :=
  c.toNat ≤ 0x20 || 0x7E < c.toNat || "\"#<>'".toList.contains c

def encodeWhere (encoded : Char → Bool) (cs : List Char) : List Char :=
  cs.flatMap fun c =>
    if encoded c then
      (Text.Utf8.encode (String.singleton c)).flatMap fun b =>
        ['%', Text.upperHexDigit (b.toNat / 16), Text.upperHexDigit (b.toNat % 16)]
    else [c]

def normalPath (cs : List Char) : String :=
  match Text.splitAt '/' (cs.map fun c => if c = '\\' then '/' else c) with
  | _ :: segments =>
      String.ofList ('/' :: ['/'].intercalate
        ((resolve [] segments).map (encodeWhere isPathEncoded)))
  | [] => "/"

def isHostChar (c : Char) : Bool :=
  0x20 < c.toNat && c.toNat < 0x7F && !"#%/:<>?@[\\]^|".toList.contains c

def hostText? : List Char → Option (List Char × List Char)
  | '[' :: inner =>
      let host := inner.takeWhile (· != ']')
      match inner.drop host.length with
      | ']' :: rest => some ('[' :: (host ++ [']']), rest)
      | _ => none
  | cs =>
      let host := cs.takeWhile (· != ':')
      if host.all isHostChar then some (host, cs.drop host.length) else none

/-- The port that follows a host; there may be none, and the one that the scheme implies counts
as none. -/
def port? (scheme : String) : List Char → Option (Option Nat)
  | [] => some none
  | [':'] => some none
  | ':' :: digits =>
      if digits.all Text.isDigit then
        (Number.unsigned? 65535 (String.ofList digits)).map fun port =>
          if usualPort? scheme = some port then none else some port
      else none
  | _ => none

def hostAndPort? (scheme : String) (authority : List Char) : Option (String × Option Nat) := do
  let (host, rest) ← hostText? (authority.reverse.takeWhile (· != '@')).reverse
  if host.isEmpty then none
  else return (Text.lower (String.ofList host), ← port? scheme rest)

def isSeparator (c : Char) : Bool := c == '/' || c == '\\'

def parse? (text : String) : Option Url := do
  let trimmed := (text.toList.dropWhile (·.toNat ≤ 0x20)).reverse.dropWhile (·.toNat ≤ 0x20)
  let cs := trimmed.reverse.filter fun c => c != '\t' && c != '\n' && c != '\r'
  let scheme := Text.lower (String.ofList (cs.takeWhile (· != ':')))
  let _ ← usualPort? scheme
  let behind := (cs.drop (scheme.length + 1)).dropWhile isSeparator
  let authority := behind.takeWhile fun c => !isSeparator c && c != '?' && c != '#'
  let (host, port) ← hostAndPort? scheme authority
  let rest := behind.drop authority.length
  let path := rest.takeWhile fun c => c != '?' && c != '#'
  let query := match rest.drop path.length with
    | '?' :: query => some (String.ofList
        (encodeWhere isQueryEncoded (query.takeWhile (· != '#'))))
    | _ => none
  return ⟨scheme, host, port, normalPath path, query⟩

end Url
end Corpora.Wire
