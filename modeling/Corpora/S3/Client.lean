import Corpora.S3.Listing
import Corpora.S3.Signature
import Corpora.Time.Clock
import Corpora.Wire.Conversation
import Corpora.Wire.Phrase

/-!
An object store behind the S3 protocol, as a client that holds a conversation with it. A listing
goes on as long as pages are truncated and carry a token; a bucket is deleted after its objects,
and only if every one of them could be removed. The clock is read for each request: its reading has
the number that the request has in the conversation. A request that cannot be put together leaves no
trace, whatever the clock showed for it.
-/

namespace Corpora.S3

open Http (Method Header)
open Wire (Conversation Outcome Reply Sent)

structure Client where
  endpoint : Endpoint
  region : String
  credentials : Credentials
  deriving Repr, DecidableEq

structure Call where
  method : Method
  address : Address
  query : List QueryPair := []
  body : Bytes := []
  contentType : Option String := none
  deriving Repr, DecidableEq

def Page.next? (page : Page) : Option String := if page.truncated then page.nextToken else none

/-- A way to fetch the page behind a token. A page that is had was an outcome of the script. -/
structure PageSource where
  fetch : Option String → Conversation → Attempt Page × Conversation
  shorter : ∀ {token conversation page after},
    fetch token conversation = (.ok page, after) →
      after.script.length < conversation.script.length

def PageSource.objectsFrom (source : PageSource) (token : Option String)
    (conversation : Conversation) : Attempt (List ObjectInfo) × Conversation :=
  match _fetched : source.fetch token conversation with
  | (.error why, after) => (.error why, after)
  | (.ok page, after) =>
      match page.next? with
      | none => (.ok page.objects, after)
      | some next =>
          let (rest, last) := source.objectsFrom (some next) after
          (rest.map (page.objects ++ ·), last)
  termination_by conversation.script.length
  decreasing_by exact source.shorter _fetched

namespace Client

def new (endpointUrl region : String) (credentials : Credentials) : Attempt Client := do
  return ⟨← Endpoint.ofUrl endpointUrl, region, credentials⟩

/-- The credentials that variables give; the key is looked for before the secret. -/
def credentialsOf (lookup? : String → Option String) : Attempt Credentials := do
  let required (name : String) : Attempt String :=
    match lookup? name with
    | some value => .ok value
    | none => Attempt.fail (name ++ " environment variable not set")
  return ⟨← required "AWS_ACCESS_KEY_ID", ← required "AWS_SECRET_ACCESS_KEY",
    lookup? "AWS_SESSION_TOKEN"⟩

def tokenHeader (client : Client) : List Header :=
  match client.credentials.sessionToken with
  | some token => [⟨"x-amz-security-token", token⟩]
  | none => []

def signed (client : Client) (now : Time.Instant) (call : Call) : Signature.Signed where
  method := call.method
  path := call.address.path
  query := Signature.queryText call.query
  headers := Signature.sortHeaders
    (⟨"host", client.endpoint.host⟩ ::
      ⟨"x-amz-content-sha256", Sha256.hexDigest call.body⟩ ::
      ⟨"x-amz-date", now.compactText⟩ :: client.tokenHeader)
  payloadHash := Sha256.hexDigest call.body

def urlText (client : Client) (call : Call) : String :=
  let query := Signature.queryText call.query
  client.endpoint.scheme ++ "://" ++ client.endpoint.host ++ call.address.path ++
    (if query.isEmpty then "" else "?" ++ query)

def headers (client : Client) (now : Time.Instant) (call : Call) : List Header :=
  [⟨"authorization", Signature.authorization client.credentials now client.region
      (client.signed now call)⟩,
    ⟨"x-amz-content-sha256", Sha256.hexDigest call.body⟩,
    ⟨"x-amz-date", now.compactText⟩] ++ client.tokenHeader ++
    (match call.contentType with
      | some kind => [⟨"content-type", kind⟩]
      | none => [])

@[irreducible] def request? (client : Client) (now : Time.Instant) (call : Call) : Option Sent :=
  Wire.request? call.method (client.urlText call) (client.headers now call) call.body

def send (client : Client) (clock : Time.Clock) (call : Call) (conversation : Conversation) :
    Attempt Reply × Conversation :=
  match conversation.sendIfPossible
      (client.request? (clock.reading conversation.sent.length) call) with
  | (.answered reply, after) => (.ok reply, after)
  | (.dropped, after) => (.error (Failure.foreign.within
      ("S3 " ++ call.method.name ++ " " ++ call.address.path ++ " failed")), after)

theorem length_script_send {client : Client} {clock : Time.Clock} {call : Call}
    {conversation after : Conversation} {reply : Reply}
    (answered : client.send clock call conversation = (.ok reply, after)) :
    after.script.length < conversation.script.length := by
  simp only [send] at answered
  split at answered
  · next found later outcome =>
    simp only [Prod.mk.injEq] at answered
    obtain ⟨-, rfl⟩ := answered
    simp only [Conversation.sendIfPossible] at outcome
    split at outcome
    · exact Conversation.length_script_send outcome
    · simp at outcome
  · simp at answered

def refusal (operation : String) (reply : Reply) : Failure :=
  .because ("S3 " ++ operation ++ " failed (HTTP " ++ Wire.statusText reply.status ++ "): " ++
    String.ofList (reply.text.toList.take 500))

def accepted (operation : String) (reply : Reply) : Attempt Reply :=
  if reply.isSuccess then .ok reply else .error (refusal operation reply)

def perform (client : Client) (clock : Time.Clock) (operation : String) (call : Call)
    (conversation : Conversation) : Attempt Reply × Conversation :=
  let (reply, after) := client.send clock call conversation
  (reply.bind (accepted operation), after)

def performOnly (client : Client) (clock : Time.Clock) (operation : String) (call : Call)
    (conversation : Conversation) : Attempt Unit × Conversation :=
  let (reply, after) := client.perform clock operation call conversation
  (reply.map fun _ => (), after)

def bucketExists (client : Client) (clock : Time.Clock) (bucket : String)
    (conversation : Conversation) : Attempt Bool × Conversation :=
  let (reply, after) := client.send clock { method := .head, address := .bucket bucket } conversation
  (reply.bind fun reply =>
    if reply.isSuccess then .ok true
    else if reply.status = 404 then .ok false
    else Attempt.fail ("S3 HeadBucket failed (HTTP " ++ Wire.statusText reply.status ++
      ") for bucket '" ++ bucket ++ "'"), after)

def xmlType : String := "application/xml"

def createBucket (client : Client) (clock : Time.Clock) (bucket : String) :
    Conversation → Attempt Unit × Conversation :=
  client.performOnly clock "CreateBucket"
    { method := .put, address := .bucket bucket,
      body := Text.Utf8.encode (createBucketXml client.region), contentType := some xmlType }

def listBuckets (client : Client) (clock : Time.Clock) (conversation : Conversation) :
    Attempt (List String) × Conversation :=
  let (reply, after) :=
    client.perform clock "ListBuckets" { method := .get, address := .service } conversation
  (reply.map fun reply => bucketNames reply.text, after)

def putObject (client : Client) (clock : Time.Clock) (bucket key : String) (content : Content) :
    Conversation → Attempt Unit × Conversation :=
  client.performOnly clock "PutObject"
    { method := .put, address := .object bucket key, body := content.data,
      contentType := some content.contentType }

def defaultContentType : String := "application/octet-stream"

def getObject (client : Client) (clock : Time.Clock) (bucket key : String)
    (conversation : Conversation) : Attempt (Option Content) × Conversation :=
  let (reply, after) :=
    client.send clock { method := .get, address := .object bucket key } conversation
  (reply.bind fun reply =>
    if reply.status = 404 then .ok none
    else if reply.isSuccess then
      .ok (some ⟨reply.body, (reply.contentType.filter Http.isPrintable).getD defaultContentType⟩)
    else Attempt.fail ("S3 GetObject failed (HTTP " ++ Wire.statusText reply.status ++
      ") for key '" ++ key ++ "'"), after)

def deleteObject (client : Client) (clock : Time.Clock) (bucket key : String) :
    Conversation → Attempt Unit × Conversation :=
  client.performOnly clock "DeleteObject" { method := .delete, address := .object bucket key }

def pageCall (bucket : String) (token : Option String) : Call where
  method := .get
  address := .bucket bucket
  query := [⟨"list-type", "2"⟩, ⟨"max-keys", "1000"⟩] ++
    (match token with
      | some token => [⟨"continuation-token", token⟩]
      | none => [])

def fetchPage (client : Client) (clock : Time.Clock) (bucket : String) (token : Option String)
    (conversation : Conversation) : Attempt Page × Conversation :=
  let (reply, after) := client.send clock (pageCall bucket token) conversation
  ((reply.bind (accepted "ListObjectsV2")).map fun reply => Page.ofXml reply.text, after)

theorem length_script_fetchPage {client : Client} {clock : Time.Clock} {bucket : String}
    {token : Option String} {conversation after : Conversation} {page : Page}
    (fetched : client.fetchPage clock bucket token conversation = (.ok page, after)) :
    after.script.length < conversation.script.length := by
  simp only [fetchPage] at fetched
  generalize answered : client.send clock (pageCall bucket token) conversation = outcome at fetched
  obtain ⟨reply, later⟩ := outcome
  obtain ⟨read, rfl⟩ := Prod.mk.injEq .. ▸ fetched
  cases reply with
  | error why => cases read
  | ok reply => exact length_script_send answered

def pageSource (client : Client) (clock : Time.Clock) (bucket : String) : PageSource :=
  ⟨client.fetchPage clock bucket, length_script_fetchPage⟩

def listObjects (client : Client) (clock : Time.Clock) (bucket : String) :
    Conversation → Attempt (List ObjectInfo) × Conversation :=
  (client.pageSource clock bucket).objectsFrom none

/-- Deletes objects in order, up to the first that cannot be removed. -/
def deleteObjects (client : Client) (clock : Time.Clock) (bucket : String) :
    List ObjectInfo → Conversation → Attempt Unit × Conversation
  | [], conversation => (.ok (), conversation)
  | object :: rest, conversation =>
      match client.deleteObject clock bucket object.key conversation with
      | (.ok (), after) => client.deleteObjects clock bucket rest after
      | (.error why, after) =>
          (.error (why.within ("failed to remove object " ++ object.key)), after)

def deleteBucket (client : Client) (clock : Time.Clock) (bucket : String)
    (conversation : Conversation) : Attempt Unit × Conversation :=
  match client.listObjects clock bucket conversation with
  | (.error why, after) => (.error why, after)
  | (.ok objects, after) =>
      match client.deleteObjects clock bucket objects after with
      | (.error why, after) => (.error why, after)
      | (.ok (), after) =>
          client.performOnly clock "DeleteBucket" { method := .delete, address := .bucket bucket }
            after

def setNotification (client : Client) (clock : Time.Clock) (bucket : String)
    (notification : Notification) : Conversation → Attempt Unit × Conversation :=
  client.performOnly clock "PutBucketNotificationConfiguration"
    { method := .put, address := .bucket bucket, query := [⟨"notification", ""⟩],
      body := Text.Utf8.encode (notificationXml notification), contentType := some xmlType }

end Client
end Corpora.S3
