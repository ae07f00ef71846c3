import Corpora.Crypto.Sha256
import Corpora.Order.StableSort
import Corpora.Proofs.Text.Search
import Corpora.Wire.Conversation

/-!
The other side of a signed request. A verifier knows the access key and the secret of a client
and nothing else but the request as it arrived: it reads from the authorization what was claimed,
puts together what should have been signed, and signs it again.
-/

namespace Corpora.S3.Verifier

open Wire (Sent)

/-- What an authorization claims: the day and the region of its key, the names of the headers
that were signed, and the signature. -/
structure Claims where
  date : String
  region : String
  names : List String
  signature : String
  deriving Repr, DecidableEq

/-- Reads an authorization of an access key. Nothing in a list of names or in a signature is an
equals sign, so both are looked for from the end. -/
def claims? (accessKey value : String) : Option Claims := do
  let credential ← Text.stripStart?
    ("AWS4-HMAC-SHA256 Credential=" ++ accessKey ++ "/").toList value.toList
  let (front, signature) ← Text.splitLast? ", Signature=".toList credential
  let (scope, names) ← Text.splitLast? ", SignedHeaders=".toList front
  let (date, place) ← Text.splitFirst? "/".toList scope
  let region ← Text.stripStart? "/s3/aws4_request".toList.reverse place.reverse
  return ⟨String.ofList date, String.ofList region.reverse,
    (Text.splitAt ';' names).map String.ofList, String.ofList signature⟩

def received? (sent : Sent) (name : String) : Option String :=
  match (sent.headers.filter fun header => header.name == name).map Http.Header.value with
  | [] => none
  | values => some (",".intercalate values)

def reencode (cs : List Char) : String :=
  String.ofList (Text.Percent.encodeBytes (Text.Percent.decodeBytes
    (Text.Utf8.encode (String.ofList cs))))

def parameter (cs : List Char) : String × String :=
  (reencode (cs.takeWhile (· != '=')), reencode ((cs.dropWhile (· != '=')).drop 1))

def canonicalQuery (query : Option String) : String :=
  match query with
  | none => ""
  | some text =>
      let parameters := (Text.splitAt '&' text.toList).map parameter
      "&".intercalate ((stableSort (fun a b => a.1 < b.1) parameters).map fun (name, value) =>
        name ++ "=" ++ value)

/-- What should have been signed of a request; nothing if a header of the names is missing. -/
def canonicalRequest? (sent : Sent) (names : List String) : Option String := do
  let lines ← names.mapM fun name =>
    (received? sent name).map fun value => name ++ ":" ++ value ++ "\n"
  return "\n".intercalate
    [sent.method.name, sent.url.path, canonicalQuery sent.url.query, String.join lines,
      ";".intercalate names, Sha256.hexDigest sent.body]

def sign (secret date region stamp canonical : String) : String :=
  let code (key : Bytes) (text : String) : Bytes := Sha256.hmac key (Text.Utf8.encode text)
  let dayKey := code (Text.Utf8.encode ("AWS4" ++ secret)) date
  let serviceKey := code (code dayKey region) "s3"
  let scope := date ++ "/" ++ region ++ "/s3/aws4_request"
  Text.hex (code (code serviceKey "aws4_request") ("\n".intercalate
    ["AWS4-HMAC-SHA256", stamp, scope, Sha256.hexDigest (Text.Utf8.encode canonical)]))

def required (sent : Sent) : List String :=
  ["host", "x-amz-content-sha256", "x-amz-date"] ++
    (if (received? sent "x-amz-security-token").isSome then ["x-amz-security-token"] else [])

def dayOf (stamp : String) : String := String.ofList (stamp.toList.takeWhile (· != 'T'))

/-- Whether a request verifies: its signed headers are in order and cover what is required, its
key is of the day on which it was signed, its hash is that of its body, and its signature is that
of the request as it arrived. -/
def accepts (accessKey secret : String) (sent : Sent) : Bool :=
  match (received? sent "authorization").bind (claims? accessKey),
      received? sent "x-amz-date" with
  | some claims, some stamp =>
      decide (claims.names.Pairwise (· < ·)) &&
        (required sent).all claims.names.contains &&
        claims.date == dayOf stamp &&
        received? sent "x-amz-content-sha256" == some (Sha256.hexDigest sent.body) &&
        (canonicalRequest? sent claims.names).map
          (sign secret claims.date claims.region stamp) == some claims.signature
  | _, _ => false

end Corpora.S3.Verifier
