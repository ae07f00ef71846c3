import Corpora.Crypto.Sha256
import Corpora.Http.Message
import Corpora.S3.Address
import Corpora.Time.Instant

/-!
Signatures of requests, version 4. What is signed is a text made from the request; the key is
derived from the secret for one day, region and service.
-/

namespace Corpora.S3

open Http (Method Header)

structure Credentials where
  accessKey : String
  secretKey : String
  sessionToken : Option String
  deriving Repr, DecidableEq

structure QueryPair where
  name : String
  value : String
  deriving Repr, DecidableEq

namespace Signature

def algorithm : String := "AWS4-HMAC-SHA256"

def service : String := "s3"

def scopeEnd : String := "aws4_request"

def signingKey (secret date region service : String) : Bytes :=
  let step (key : Bytes) (text : String) : Bytes := Sha256.hmac key (Text.Utf8.encode text)
  step (step (step (step (Text.Utf8.encode ("AWS4" ++ secret)) date) region) service) scopeEnd

def insertPair (pair : QueryPair) : List QueryPair → List QueryPair
  | [] => [pair]
  | first :: rest =>
      if pair.name < first.name || (pair.name == first.name && pair.value < first.value) then
        pair :: first :: rest
      else first :: insertPair pair rest

def sortPairs (pairs : List QueryPair) : List QueryPair :=
  pairs.foldl (fun sorted pair => insertPair pair sorted) []

def queryText (pairs : List QueryPair) : String :=
  "&".intercalate ((sortPairs pairs).map fun pair =>
    Text.Percent.encode pair.name ++ "=" ++ Text.Percent.encode pair.value)

def insertHeader (header : Header) : List Header → List Header
  | [] => [header]
  | first :: rest =>
      if header.name < first.name then header :: first :: rest
      else first :: insertHeader header rest

def sortHeaders (headers : List Header) : List Header :=
  headers.foldl (fun sorted header => insertHeader header sorted) []

structure Signed where
  method : Method
  path : String
  query : String
  headers : List Header
  payloadHash : String

namespace Signed

def headerNames (signed : Signed) : String := ";".intercalate (signed.headers.map Header.name)

def canonicalRequest (signed : Signed) : String :=
  "\n".intercalate
    [signed.method.name, signed.path, signed.query,
     String.join (signed.headers.map fun header => header.name ++ ":" ++ header.value ++ "\n"),
     signed.headerNames, signed.payloadHash]

end Signed

def scope (now : Time.Instant) (region : String) : String :=
  now.compactDate ++ "/" ++ region ++ "/" ++ service ++ "/" ++ scopeEnd

def stringToSign (now : Time.Instant) (region : String) (signed : Signed) : String :=
  "\n".intercalate
    [algorithm, now.compactText, scope now region,
     Sha256.hexDigest (Text.Utf8.encode signed.canonicalRequest)]

def signature (secret : String) (now : Time.Instant) (region : String) (signed : Signed) : String :=
  Text.hex (Sha256.hmac (signingKey secret now.compactDate region service)
    (Text.Utf8.encode (stringToSign now region signed)))

def authorization (credentials : Credentials) (now : Time.Instant) (region : String)
    (signed : Signed) : String :=
  algorithm ++ " Credential=" ++ credentials.accessKey ++ "/" ++ scope now region ++
    ", SignedHeaders=" ++ signed.headerNames ++
    ", Signature=" ++ signature credentials.secretKey now region signed

end Signature
end Corpora.S3
