import Corpora.Index.Name
import Corpora.Proofs.S3.Sending
import Corpora.S3.Remote

/-!
Every operation on the store talks to it in requests that verify. One call is one request that is
signed for what arrives; an operation is a row of calls, and a run a row of operations. A bucket
is deleted behind the objects that its pages list, so the keys in these count like keys that an
operation is given.
-/

namespace Corpora.S3

open Service (ObjectCall)
open Text (splitAt)
open Wire (Authority Conversation Outcome Reply Sent)

def Client.performAll (client : Client) :
    List (Time.Clock × ObjectCall) → Conversation → Conversation
  | [], conversation => conversation
  | (clock, call) :: rest, conversation =>
      client.performAll rest (client.performCall clock call conversation).2

section Addresses

def KeyUndotted (key : String) : Prop :=
  ∀ segment ∈ splitAt '/' key.toList, segment ≠ ['.'] ∧ segment ≠ ['.', '.']

theorem bucket_undotted {bucket : String} (valid : Index.isValidName bucket = true) :
    bucket.toList ≠ ['.'] ∧ bucket.toList ≠ ['.', '.'] := by
  constructor <;> intro dots <;> rw [Index.isValidName, dots] at valid <;>
    exact absurd valid (by decide)

theorem undotted_service : Address.service.Undotted := by
  intro segment member
  obtain rfl := List.mem_singleton.mp member
  decide

theorem undotted_bucket {bucket : String} (valid : Index.isValidName bucket = true) :
    (Address.bucket bucket).Undotted := by
  intro segment member
  obtain rfl := List.mem_singleton.mp member
  exact bucket_undotted valid

theorem undotted_object {bucket key : String} (valid : Index.isValidName bucket = true)
    (undotted : KeyUndotted key) : (Address.object bucket key).Undotted := by
  intro segment member
  rcases List.mem_cons.mp member with rfl | inside
  · exact bucket_undotted valid
  · exact undotted segment inside

theorem call_sound {method : Http.Method} {address : Address} {body : Bytes}
    {contentType : Option String} (undotted : address.Undotted) :
    (⟨method, address, [], body, contentType⟩ : Call).Sound :=
  Call.sound_of_plain undotted fun _ member => absurd member List.not_mem_nil

theorem pageCall_sound {bucket : String} (valid : Index.isValidName bucket = true)
    (token : Option String) : (Client.pageCall bucket token).Sound := by
  have kind : Text.Percent.encode "list-type" = "list-type" := by decide
  have bound : Text.Percent.encode "max-keys" = "max-keys" := by decide
  have place : Text.Percent.encode "continuation-token" = "continuation-token" := by decide
  refine Call.sound_of_plain (undotted_bucket valid) fun pair member => ?_
  simp only [Client.pageCall, List.cons_append, List.nil_append, List.mem_cons] at member
  rcases member with rfl | rfl | rest
  · exact kind
  · exact bound
  · cases token with
    | none => exact absurd rest List.not_mem_nil
    | some token =>
        obtain rfl := List.mem_singleton.mp rest
        exact place

theorem notificationCall_sound {bucket : String} {body : Bytes} {contentType : Option String}
    (valid : Index.isValidName bucket = true) :
    (⟨.put, .bucket bucket, [⟨"notification", ""⟩], body, contentType⟩ : Call).Sound := by
  have plain : Text.Percent.encode "notification" = "notification" := by decide
  refine Call.sound_of_plain (undotted_bucket valid) fun pair member => ?_
  obtain rfl := List.mem_singleton.mp member
  exact plain

end Addresses

section Exchange

/-- The objects that a page among the outcomes of a script lists. -/
def Shown (script : List Outcome) (object : ObjectInfo) : Prop :=
  ∃ reply, Outcome.answered reply ∈ script ∧ object ∈ (Page.ofXml reply.text).objects

/-- A conversation goes on to another one by requests that verify, at least as many as counted. -/
structure Exchange (client : Client) (count : Nat) (before after : Conversation) : Prop where
  script : after.script <:+ before.script
  sent : ∃ requests, after.sent = before.sent ++ requests ∧ count ≤ requests.length ∧
    ∀ request ∈ requests, Verifier.accepts client.credentials.accessKey
      client.credentials.secretKey request = true

namespace Exchange

variable {client : Client} {first second : Nat} {before between after : Conversation}

theorem none : Exchange client 0 before before where
  script := List.suffix_rfl
  sent := ⟨[], (List.append_nil _).symm, Nat.zero_le _, by simp⟩

theorem trans (early : Exchange client first before between)
    (late : Exchange client second between after) : Exchange client (first + second) before after where
  script := late.script.trans early.script
  sent := by
    obtain ⟨requests, shape, many, verified⟩ := early.sent
    obtain ⟨others, shape', many', verified'⟩ := late.sent
    refine ⟨requests ++ others, ?_, ?_, fun request member => ?_⟩
    · rw [shape', shape, List.append_assoc]
    · rw [List.length_append]
      omega
    · rcases List.mem_append.mp member with now | later
      · exact verified request now
      · exact verified' request later

theorem fewer (exchange : Exchange client first before after) (less : second ≤ first) :
    Exchange client second before after where
  script := exchange.script
  sent := by
    obtain ⟨requests, shape, many, verified⟩ := exchange.sent
    exact ⟨requests, shape, Nat.le_trans less many, verified⟩

end Exchange

theorem Shown.of_suffix {early late : List Outcome} {object : ObjectInfo} (behind : late <:+ early)
    (shown : Shown late object) : Shown early object := by
  obtain ⟨reply, member, listed⟩ := shown
  exact ⟨reply, behind.subset member, listed⟩

end Exchange

section Pages

variable {source : PageSource} {token : Option String} {conversation after : Conversation}

theorem objectsFrom_refused {why : Failure}
    (fetched : source.fetch token conversation = (.error why, after)) :
    source.objectsFrom token conversation = (.error why, after) := by
  rw [PageSource.objectsFrom]
  split
  · next found later outcome =>
    rw [fetched] at outcome
    cases outcome
    rfl
  · next found later outcome =>
    rw [fetched] at outcome
    cases outcome

theorem objectsFrom_fetched {page : Page}
    (fetched : source.fetch token conversation = (.ok page, after)) :
    source.objectsFrom token conversation = match page.next? with
      | none => (.ok page.objects, after)
      | some next => ((source.objectsFrom (some next) after).1.map (page.objects ++ ·),
          (source.objectsFrom (some next) after).2) := by
  rw [PageSource.objectsFrom]
  split
  · next found later outcome =>
    rw [fetched] at outcome
    cases outcome
  · next found later outcome =>
    rw [fetched] at outcome
    cases outcome
    rfl

/-- What every page keeps, a listing keeps, if it goes on from page to page. -/
theorem objectsFrom_exchange {client : Client} {count : Nat}
    (verified : ∀ token conversation,
      Exchange client count conversation (source.fetch token conversation).2)
    (shown : ∀ token conversation page after, source.fetch token conversation = (.ok page, after) →
      ∀ object ∈ page.objects, Shown conversation.script object)
    (token : Option String) (conversation : Conversation) :
    Exchange client count conversation (source.objectsFrom token conversation).2 ∧
      ∀ objects, (source.objectsFrom token conversation).1 = .ok objects →
        ∀ object ∈ objects, Shown conversation.script object := by
  -- Each page that is had takes an outcome from the script; what is left is a suffix of it, so
  -- the objects of later pages were shown by the whole script too.
  induction token, conversation using PageSource.objectsFrom.induct source with
  | case1 token conversation why after fetched =>
      have page := verified token conversation
      rw [fetched] at page
      rw [objectsFrom_refused fetched]
      exact ⟨page, fun objects had => nomatch had⟩
  | case2 token conversation page after fetched last =>
      have exchange := verified token conversation
      rw [fetched] at exchange
      rw [objectsFrom_fetched fetched, last]
      refine ⟨exchange, fun objects had object member => ?_⟩
      cases had
      exact shown _ _ _ _ fetched object member
  | case3 token conversation page after fetched next more _ _ _ ih =>
      have exchange := verified token conversation
      rw [fetched] at exchange
      rw [objectsFrom_fetched fetched, more]
      obtain ⟨later, listed⟩ := ih
      refine ⟨(exchange.trans later).fewer (Nat.le_add_right _ _), fun objects had => ?_⟩
      change (source.objectsFrom (some next) after).1.map (page.objects ++ ·) = .ok objects at had
      cases others : (source.objectsFrom (some next) after).1 with
      | error why =>
          rw [others] at had
          cases had
      | ok rest =>
          rw [others] at had
          cases had
          intro object member
          rcases List.mem_append.mp member with here | behind
          · exact shown _ _ _ _ fetched object here
          · exact (listed rest others object behind).of_suffix exchange.script

end Pages

section Calls

def givenType : ObjectCall → Option String
  | .putObject _ _ content => some content.contentType
  | _ => none

/-- A call on buckets that are named like indices, and on keys without a segment of dots. -/
def Addressed (script : List Outcome) : ObjectCall → Prop
  | .listBuckets => True
  | .bucketExists bucket | .createBucket bucket | .listObjects bucket | .setNotification bucket _ =>
      Index.isValidName bucket = true
  | .putObject bucket key _ | .getObject bucket key | .deleteObject bucket key =>
      Index.isValidName bucket = true ∧ KeyUndotted key
  | .deleteBucket bucket =>
      Index.isValidName bucket = true ∧
        ∀ object, Shown script object → KeyUndotted object.key

theorem sends_xml (client : Client) : client.sends (some Client.xmlType) = client.sends none := by
  have kind : Http.isHeaderValue Client.xmlType = true := by decide
  rw [Client.sends, Client.sends, Option.all_some, kind]
  rfl

theorem Addressed.of_suffix {early late : List Outcome} {call : ObjectCall} (behind : late <:+ early)
    (addressed : Addressed early call) : Addressed late call := by
  cases call with
  | deleteBucket bucket =>
      exact ⟨addressed.1, fun object shown => addressed.2 object (shown.of_suffix behind)⟩
  | _ => exact addressed

end Calls

section Operations

variable {scheme : String} {authority : Authority scheme} {client : Client} {clock : Time.Clock}
  {conversation after : Conversation}

theorem answered_of_sendIfPossible {request : Option Sent} {reply : Reply}
    (answered : conversation.sendIfPossible request = (.answered reply, after)) :
    Outcome.answered reply ∈ conversation.script := by
  cases request with
  | none => cases answered
  | some request =>
      rw [Conversation.sendIfPossible, Conversation.send] at answered
      cases script : conversation.script with
      | nil =>
          rw [script] at answered
          cases answered
      | cons outcome later =>
          rw [script] at answered
          cases answered
          exact List.mem_cons_self

theorem answered_of_send {call : Call} {reply : Reply}
    (answered : client.send clock call conversation = (.ok reply, after)) :
    Outcome.answered reply ∈ conversation.script := by
  simp only [Client.send] at answered
  split at answered
  · next found later outcome =>
    cases answered
    exact answered_of_sendIfPossible outcome
  · cases answered

theorem send_next (call : Call) : (client.send clock call conversation).2 =
    (conversation.sendIfPossible
      (client.request? (clock.reading conversation.sent.length) call)).2 := by
  rw [Client.send]
  obtain ⟨outcome, later⟩ := conversation.sendIfPossible
    (client.request? (clock.reading conversation.sent.length) call)
  cases outcome <;> rfl

variable (here : client.At scheme authority) (visible : client.credentials.VisibleToken)

include here visible

theorem send_exchange {call : Call} (sound : call.Sound) :
    Exchange client (client.sends call.contentType).toNat conversation
      (client.send clock call conversation).2 := by
  let now := clock.reading conversation.sent.length
  have verified := arrived_accepted visible now call here sound
  have request := request?_of_sound now here visible sound
  rw [send_next, request]
  cases client.sends call.contentType with
  | false => exact Exchange.none
  | true =>
      have later : (conversation.send (client.arrived now call authority)).2 =
          ⟨conversation.script.tail, conversation.sent ++ [client.arrived now call authority]⟩ := by
        rw [Conversation.send]
        cases conversation.script <;> rfl
      rw [if_pos rfl, Conversation.sendIfPossible, later]
      refine ⟨List.tail_suffix _, _, rfl, Nat.le_refl _, fun request member => ?_⟩
      obtain rfl := List.mem_singleton.mp member
      exact verified

theorem performOnly_exchange {operation : String} {call : Call} (sound : call.Sound) :
    Exchange client (client.sends call.contentType).toNat conversation
      (client.performOnly clock operation call conversation).2 :=
  send_exchange here visible sound

section Listing

variable {bucket : String} (valid : Index.isValidName bucket = true)

include valid

theorem fetchPage_exchange (token : Option String) :
    Exchange client (client.sends none).toNat conversation
      (client.fetchPage clock bucket token conversation).2 :=
  send_exchange here visible (pageCall_sound valid token)

omit here visible valid in
theorem shown_of_fetchPage {token : Option String} {page : Page}
    (fetched : client.fetchPage clock bucket token conversation = (.ok page, after)) :
    ∀ object ∈ page.objects, Shown conversation.script object := by
  rw [Client.fetchPage] at fetched
  cases outcome : client.send clock (Client.pageCall bucket token) conversation with
  | mk answer later =>
      rw [outcome] at fetched
      cases answer with
      | error why => cases fetched
      | ok reply =>
          by_cases success : reply.isSuccess = true
          · simp only [Except.bind, Client.accepted, if_pos success, Except.map, Prod.mk.injEq,
              Except.ok.injEq] at fetched
            obtain ⟨rfl, _⟩ := fetched
            exact fun object member => ⟨reply, answered_of_send outcome, member⟩
          · simp only [Except.bind, Client.accepted, if_neg success] at fetched
            cases fetched

theorem listObjects_exchange :
    Exchange client (client.sends none).toNat conversation
        (client.listObjects clock bucket conversation).2 ∧
      ∀ objects, (client.listObjects clock bucket conversation).1 = .ok objects →
        ∀ object ∈ objects, Shown conversation.script object :=
  objectsFrom_exchange (fun token _ => fetchPage_exchange here visible valid token)
    (fun _ _ _ _ fetched => shown_of_fetchPage fetched) none conversation

theorem deleteObjects_exchange {objects : List ObjectInfo}
    (undotted : ∀ object ∈ objects, KeyUndotted object.key) :
    Exchange client 0 conversation (client.deleteObjects clock bucket objects conversation).2 := by
  induction objects generalizing conversation with
  | nil => exact Exchange.none
  | cons object rest ih =>
      have key := undotted object List.mem_cons_self
      have first : Exchange client 0 conversation
          (client.deleteObject clock bucket object.key conversation).2 :=
        (performOnly_exchange here visible (call_sound (undotted_object valid key))).fewer
          (Nat.zero_le _)
      rw [Client.deleteObjects]
      split
      · next later outcome =>
        rw [outcome] at first
        exact first.trans (ih fun object member => undotted object (List.mem_cons_of_mem _ member))
      · next why later outcome =>
        rw [outcome] at first
        exact first

theorem deleteBucket_exchange
    (listed : ∀ object, Shown conversation.script object → KeyUndotted object.key) :
    Exchange client (client.sends none).toNat conversation
      (client.deleteBucket clock bucket conversation).2 := by
  obtain ⟨listing, shown⟩ : Exchange client (client.sends none).toNat conversation
      (client.listObjects clock bucket conversation).2 ∧ _ :=
    listObjects_exchange here visible valid
  rw [Client.deleteBucket]
  split
  · next why later outcome =>
    rw [outcome] at listing
    exact listing
  · next objects later outcome =>
    rw [outcome] at listing shown
    have removal : Exchange client 0 later
        (client.deleteObjects clock bucket objects later).2 :=
      deleteObjects_exchange here visible valid fun object member =>
        listed object (shown objects rfl object member)
    split
    · next why last removed =>
      rw [removed] at removal
      exact listing.trans removal
    · next last removed =>
      rw [removed] at removal
      have bucketCall : Exchange client (client.sends none).toNat last
          (client.performOnly clock "DeleteBucket" ⟨.delete, .bucket bucket, [], [], none⟩ last).2 :=
        performOnly_exchange here visible (call_sound (undotted_bucket valid))
      -- The listing alone has sent as many requests as are counted.
      exact ((listing.trans removal).trans bucketCall).fewer (by omega)

end Listing

theorem performCall_exchange {call : ObjectCall} (addressed : Addressed conversation.script call) :
    Exchange client (client.sends (givenType call)).toNat conversation
      (client.performCall clock call conversation).2 := by
  cases call with
  | bucketExists bucket =>
      exact send_exchange here visible (call_sound (undotted_bucket addressed))
  | createBucket bucket =>
      have sent : Exchange client (client.sends (some Client.xmlType)).toNat conversation
          (client.createBucket clock bucket conversation).2 :=
        performOnly_exchange here visible (call_sound (undotted_bucket addressed))
      rwa [sends_xml] at sent
  | deleteBucket bucket => exact deleteBucket_exchange here visible addressed.1 addressed.2
  | listBuckets => exact send_exchange here visible (call_sound undotted_service)
  | putObject bucket key content =>
      exact performOnly_exchange here visible
        (call_sound (undotted_object addressed.1 addressed.2))
  | getObject bucket key =>
      exact send_exchange here visible (call_sound (undotted_object addressed.1 addressed.2))
  | deleteObject bucket key =>
      exact performOnly_exchange here visible
        (call_sound (undotted_object addressed.1 addressed.2))
  | listObjects bucket => exact (listObjects_exchange here visible addressed).1
  | setNotification bucket notification =>
      have sent : Exchange client (client.sends (some Client.xmlType)).toNat conversation
          (client.setNotification clock bucket notification conversation).2 :=
        performOnly_exchange here visible (notificationCall_sound addressed)
      rwa [sends_xml] at sent

/-- A run of operations goes on by requests that verify, at least one for each call that can be
sent. -/
theorem performAll_exchange {calls : List (Time.Clock × ObjectCall)}
    (addressed : ∀ call ∈ calls, Addressed conversation.script call.2) :
    Exchange client (calls.countP fun call => client.sends (givenType call.2)) conversation
      (client.performAll calls conversation) := by
  induction calls generalizing conversation with
  | nil => exact Exchange.none
  | cons first rest ih =>
      obtain ⟨clock, call⟩ := first
      have step : Exchange client _ conversation (client.performCall clock call conversation).2 :=
        performCall_exchange here visible (addressed _ List.mem_cons_self)
      -- The later calls meet a script of which only the front is gone.
      have others := ih fun call member =>
        (addressed call (List.mem_cons_of_mem _ member)).of_suffix step.script
      refine (step.trans others).fewer ?_
      rw [List.countP_cons]
      cases client.sends (givenType call) <;> simp +arith

end Operations

section Verified

variable {scheme : String} (known : scheme = "http" ∨ scheme = "https")
  (authority : Authority scheme) (slashes : Nat) (region : String) {credentials : Credentials}
  (visible : credentials.VisibleToken) {calls : List (Time.Clock × ObjectCall)}
  {script : List Outcome} (addressed : ∀ call ∈ calls, Addressed script call.2)

include known visible addressed

/-- Whatever is answered, every request of a run verifies, and there are at least as many requests
as calls whose texts can stand in headers. -/
theorem every_request_verifies : ∃ client,
    Client.new (scheme ++ "://" ++ String.ofList authority.text ++
      String.ofList (List.replicate slashes '/')) region credentials = .ok client ∧
    (∀ sent ∈ (client.performAll calls (Conversation.start script)).sent,
      Verifier.accepts credentials.accessKey credentials.secretKey sent = true) ∧
    (calls.countP fun call => client.sends (givenType call.2)) ≤
      (client.performAll calls (Conversation.start script)).sent.length := by
  have opened := ofUrl_authority known authority slashes
  let client : Client := ⟨⟨scheme, String.ofList authority.text⟩, region, credentials⟩
  have here : client.At scheme authority := ⟨known, rfl⟩
  obtain ⟨_, requests, shape, many, verified⟩ :
      Exchange client _ (Conversation.start script) _ :=
    performAll_exchange here visible addressed
  rw [Conversation.start, List.nil_append] at shape
  refine ⟨client, ?_, ?_, ?_⟩
  · rw [Client.new, opened]
    rfl
  · rw [Conversation.start, shape]
    exact verified
  · rw [Conversation.start, shape]
    exact many

omit known visible addressed

def loopback : Authority "http" where
  host := .v4 127 0 0 1
  port := some 9000
  small := by
    rintro number ⟨⟩
    decide
  unusual := by
    rintro number ⟨⟩
    decide

/-- A note is put into a bucket, and the bucket is deleted behind it. -/
def noteCalls : List (Time.Clock × ObjectCall) :=
  let ticking : Time.Clock := ⟨fun number => ⟨1700000000 + number, 0⟩⟩
  [(ticking, .putObject "docs" "notes/a b" ⟨[0x68, 0x69], "text/plain"⟩),
    (ticking, .deleteBucket "docs")]

def noteReplies : List Reply :=
  [⟨200, none, []⟩, ⟨200, none, Text.Utf8.encode "<Contents><Key>notes/a b</Key></Contents>"⟩,
    ⟨204, none, []⟩, ⟨204, none, []⟩]

theorem noteCalls_addressed :
    ∀ call ∈ noteCalls, Addressed (noteReplies.map Outcome.answered) call.2 := by
  have named : Index.isValidName "docs" = true := by decide
  have undotted : KeyUndotted "notes/a b" := by
    rw [KeyUndotted]
    decide
  have keys : ((noteReplies.flatMap fun reply => (Page.ofXml reply.text).objects).all
      fun object => object.key == "notes/a b") = true := by decide +kernel
  intro call member
  rcases List.mem_cons.mp member with rfl | rest
  · exact ⟨named, undotted⟩
  · obtain rfl := List.mem_singleton.mp rest
    refine ⟨named, fun object shown => ?_⟩
    obtain ⟨reply, among, listed⟩ := shown
    obtain ⟨_, given, ⟨⟩⟩ := List.mem_map.mp among
    have key := List.all_eq_true.mp keys object (List.mem_flatMap.mpr ⟨reply, given, listed⟩)
    exact beq_iff_eq.mp key ▸ undotted

theorem note_requests_verify :
    Credentials.VisibleToken ⟨"AKIDEXAMPLE", "secret", some "session"⟩ ∧
    (∀ call ∈ noteCalls, Addressed (noteReplies.map Outcome.answered) call.2) ∧ ∃ client,
      Client.new "http://127.0.0.1:9000/" "eu-west-1" ⟨"AKIDEXAMPLE", "secret", some "session"⟩ =
        .ok client ∧
      (∀ sent ∈ (client.performAll noteCalls
          (Conversation.start (noteReplies.map Outcome.answered))).sent,
        Verifier.accepts "AKIDEXAMPLE" "secret" sent = true) ∧
      2 ≤ (client.performAll noteCalls
        (Conversation.start (noteReplies.map Outcome.answered))).sent.length := by
  have visible : Credentials.VisibleToken ⟨"AKIDEXAMPLE", "secret", some "session"⟩ := by
    rintro token ⟨⟩ c member
    have all : ("session".toList.all fun c => 0x20 < c.toNat && c.toNat < 0x7F) = true := by decide
    simpa using List.all_eq_true.mp all c member
  have address : "http" ++ "://" ++ String.ofList loopback.text ++
      String.ofList (List.replicate 1 '/') = "http://127.0.0.1:9000/" := by
    decide +kernel
  obtain ⟨client, opened, verified, many⟩ :=
    every_request_verifies (Or.inl rfl) loopback 1 "eu-west-1" visible noteCalls_addressed
  have count : (noteCalls.countP fun call => client.sends (givenType call.2)) = 2 := by
    rw [Client.new, ofUrl_authority (Or.inl rfl) loopback 1] at opened
    cases opened
    decide +kernel
  rw [address] at opened
  exact ⟨visible, noteCalls_addressed, client, opened, verified, count ▸ many⟩

end Verified

end Corpora.S3
