import Corpora.Proofs.Index.Metadata
import Corpora.Proofs.S3.Addressing
import Corpora.Proofs.S3.Operation
import Corpora.Proofs.Service.Calls

/-!
Requests about documents on a remote store. Each call that such a request makes is one request to
the store, and it reaches its bucket or object, except where the filename leads away from it: by
dots, which are taken out of a path behind its signature, or because it is empty.
-/

namespace Corpora.S3

open Service (Action ObjectCall Operation Program)
open Wire (Authority Conversation Outcome Sent)

section Single

def meant? : ObjectCall → Option Call
  | .bucketExists bucket => some ⟨.head, .bucket bucket, [], [], none⟩
  | .putObject bucket key content =>
      some ⟨.put, .object bucket key, [], content.data, some content.contentType⟩
  | .getObject bucket key => some ⟨.get, .object bucket key, [], [], none⟩
  | .deleteObject bucket key => some ⟨.delete, .object bucket key, [], [], none⟩
  | _ => none

variable {client : Client} {clock : Time.Clock} {call : ObjectCall} {meant : Call}

theorem sent_sendIfPossible (conversation : Conversation) (request : Option Sent) :
    (conversation.sendIfPossible request).2.sent = conversation.sent ++ request.toList := by
  cases request with
  | none => exact (List.append_nil _).symm
  | some request =>
      rw [Conversation.sendIfPossible, Conversation.send]
      cases conversation.script <;> rfl

theorem performCall_sent (single : meant? call = some meant) (conversation : Conversation) :
    (client.performCall clock call conversation).2.sent = conversation.sent ++
      (client.request? (clock.reading conversation.sent.length) meant).toList := by
  have next : (client.performCall clock call conversation).2 = (conversation.sendIfPossible
      (client.request? (clock.reading conversation.sent.length) meant)).2 := by
    cases call <;> cases single <;> exact send_next _
  rw [next, sent_sendIfPossible]

end Single

section Delivery

def RemoteSession.now (clock : Time.Clock) (session : RemoteSession) : Time.Instant :=
  clock.reading (session.clockReads + session.conversation.sent.length)

/-- Whatever run it is in, a request that is sent for a call of the action reaches what the call is
about. -/
def Client.Delivers (client : Client) (action : Action α) : Prop :=
  ∀ clock ids start call met,
    Program.Makes (RemoteSession.handle client clock ids) action.run start call met →
      ∃ meant, meant? call = some meant ∧ ∃ requests,
        (RemoteSession.handle client clock ids (.object call) met).2.conversation.sent =
          met.conversation.sent ++ requests ∧
        ∀ request ∈ requests, client.Reaches (met.now clock) meant request

section Run

variable {client : Client} {clock : Time.Clock} {ids : Nat → String}

theorem handle_sent {call : ObjectCall} {meant : Call} (single : meant? call = some meant)
    (session : RemoteSession) :
    (RemoteSession.handle client clock ids (.object call) session).2.conversation.sent =
      session.conversation.sent ++ (client.request? (session.now clock) meant).toList :=
  performCall_sent single session.conversation

theorem sent_of_makes {reached : ObjectCall → RemoteSession → Sent → Prop} {program : Program α}
    {start : RemoteSession}
    (each : ∀ call met, Program.Makes (RemoteSession.handle client clock ids) program start call met →
      ∃ requests, (RemoteSession.handle client clock ids (.object call) met).2.conversation.sent =
        met.conversation.sent ++ requests ∧ ∀ request ∈ requests, reached call met request) :
    ∃ requests, (client.run clock ids program start).2.conversation.sent =
      start.conversation.sent ++ requests ∧
      ∀ request ∈ requests, ∃ call met,
        Program.Makes (RemoteSession.handle client clock ids) program start call met ∧
          reached call met request := by
  induction program generalizing start with
  | done result => exact ⟨[], (List.append_nil _).symm, by simp⟩
  | call request next ih =>
      obtain ⟨later, sent, known⟩ := ih (RemoteSession.handle client clock ids request start).1
        fun call met makes => each call met (.later makes)
      -- The call itself sends something only if it is one on the object store.
      obtain ⟨first, before, told⟩ : ∃ requests,
          (RemoteSession.handle client clock ids request start).2.conversation.sent =
            start.conversation.sent ++ requests ∧
          ∀ sent ∈ requests, ∃ call met,
            Program.Makes (RemoteSession.handle client clock ids) (.call request next) start call
              met ∧ reached call met sent := by
        cases request with
        | object call =>
            obtain ⟨requests, appended, good⟩ := each call start (.here call start)
            exact ⟨requests, appended, fun sent member =>
              ⟨call, start, .here call start, good sent member⟩⟩
        | status call => exact ⟨[], (List.append_nil _).symm, by simp⟩
        | clock => exact ⟨[], (List.append_nil _).symm, by simp⟩
        | freshId => exact ⟨[], (List.append_nil _).symm, by simp⟩
      refine ⟨first ++ later, ?_, fun request member => ?_⟩
      · rw [← List.append_assoc, ← before]
        exact sent
      · rcases List.mem_append.mp member with early | late
        · exact told request early
        · obtain ⟨call, met, makes, good⟩ := known request late
          exact ⟨call, met, .later makes, good⟩

theorem Client.Delivers.run {action : Action α} (delivers : client.Delivers action)
    (start : RemoteSession) : ∃ requests,
      (client.run clock ids action.run start).2.conversation.sent =
        start.conversation.sent ++ requests ∧
      ∀ request ∈ requests, ∃ call met,
        Program.Makes (RemoteSession.handle client clock ids) action.run start call met ∧
          ∃ meant, meant? call = some meant ∧ client.Reaches (met.now clock) meant request := by
  apply sent_of_makes
  intro call met makes
  obtain ⟨meant, single, requests, appended, reached⟩ := delivers clock ids start call met makes
  exact ⟨requests, appended, fun request member => ⟨meant, single, reached request member⟩⟩

end Run

/-- Whether a request for the object of a document goes out, if the index is there. -/
def goesOut : Operation → Bool
  | .upload name filename _ contentType =>
      Index.isValidName name && (Document.checkFilename filename).isOk &&
        Http.isHeaderValue (Service.uploadContentType contentType)
  | .download name filename => Index.isValidName name && !Document.isReserved filename
  | .remove _ filename => !Document.isReserved filename
  | _ => false

variable {scheme : String} {authority : Authority scheme} {client : Client} {clock : Time.Clock}
  {ids : Nat → String} {operation : Operation} {name filename : String}

/-- The call was meant for an address that is filled and has no dots, unless it cannot be sent. -/
def WellMeant (call : ObjectCall) : Prop :=
  ∃ meant, meant? call = some meant ∧
    (meant.contentType.all Http.isHeaderValue = true →
      meant.address.Undotted ∧ meant.address.Filled)

theorem name_filled (valid : Index.isValidName name = true) : name ≠ "" := by
  rintro rfl
  exact absurd valid (by decide)

theorem metadataKey_undotted : KeyUndotted Document.metadataKey := by
  rw [KeyUndotted]
  decide

theorem wellMeant_of_passes {call : ObjectCall} (passes : operation.Passes name filename call)
    (good : goesOut operation = true → (Address.object name filename).Undotted ∧ filename ≠ "") :
    WellMeant call := by
  cases passes with
  | bucket valid =>
      exact ⟨_, rfl, fun _ => ⟨undotted_bucket valid, name_filled valid⟩⟩
  | metadata valid =>
      have key : Document.metadataKey ≠ "" := by decide
      exact ⟨_, rfl, fun _ => ⟨undotted_object valid metadataKey_undotted, key⟩⟩
  | upload data contentType valid admitted =>
      refine ⟨_, rfl, fun fits => good ?_⟩
      rw [Option.all_some] at fits
      rw [goesOut, valid, admitted, fits]
      rfl
  | download valid free =>
      refine ⟨_, rfl, fun _ => good ?_⟩
      rw [goesOut, valid, free]
      rfl
  | remove free =>
      refine ⟨_, rfl, fun _ => good ?_⟩
      rw [goesOut, free]
      rfl

theorem fits_of_sent {now : Time.Instant} {call : Call} {request : Sent} (here : client.At scheme authority)
    (sent : client.request? now call = some request) :
    call.contentType.all Http.isHeaderValue = true := by
  rw [request?_departed here now, headers_able, Option.ite_none_right_eq_some,
    Bool.and_eq_true] at sent
  exact sent.1.2

theorem delivers_of_wellMeant (here : client.At scheme authority) {action : Action α}
    (only : Action.MakesOnly WellMeant action) : client.Delivers action := by
  intro clock ids start call met makes
  obtain ⟨meant, single, good⟩ := makes.holds only
  refine ⟨meant, single, _, handle_sent single met, ?_⟩
  intro request member
  have sent := Option.mem_toList.mp member
  exact (reaches_iff here sent).mpr (good (fits_of_sent here sent))

theorem send_answered {call : Call} {conversation : Conversation} {request : Sent}
    {reply : Wire.Reply} {later : List Outcome}
    (sent : client.request? (clock.reading conversation.sent.length) call = some request)
    (script : conversation.script = .answered reply :: later) :
    client.send clock call conversation =
      (.ok reply, ⟨later, conversation.sent ++ [request]⟩) := by
  rw [Client.send, sent, Conversation.sendIfPossible, Conversation.send, script]

def conversing (script : List Outcome) (sent : List Sent) : RemoteSession :=
  ⟨⟨script, sent⟩, .unprepared, 0, 0⟩

def success (body : Bytes) : Outcome := .answered ⟨200, none, body⟩

section Answers

variable {bucket key : String} {request : Sent} {later : List Outcome} {before : List Sent}

theorem bucketExists_answered
    (sent : client.request? ((conversing (success [] :: later) before).now clock)
      ⟨.head, .bucket bucket, [], [], none⟩ = some request) :
    RemoteSession.handle client clock ids (.object (.bucketExists bucket))
      (conversing (success [] :: later) before) =
        (.ok true, conversing later (before ++ [request])) := by
  simp only [RemoteSession.handle, Client.performCall, Client.bucketExists]
  rw [send_answered sent rfl]
  rfl

theorem getObject_answered {body : Bytes}
    (sent : client.request? ((conversing (success body :: later) before).now clock)
      ⟨.get, .object bucket key, [], [], none⟩ = some request) :
    RemoteSession.handle client clock ids (.object (.getObject bucket key))
      (conversing (success body :: later) before) =
        (.ok (some ⟨body, Client.defaultContentType⟩), conversing later (before ++ [request])) := by
  simp only [RemoteSession.handle, Client.performCall, Client.getObject]
  rw [send_answered sent rfl]
  rfl

end Answers

def blankIndex (name : String) : Index := ⟨name, "", Time.Instant.epoch⟩

def presence (name : String) : List Outcome := [success [], success (blankIndex name).metadata]

theorem requireIndex_answered (clock : Time.Clock) (ids : Nat → String)
    (here : client.At scheme authority) (able : client.able = true)
    (valid : Index.isValidName name = true) : ∃ sent,
    Program.interpret (RemoteSession.handle client clock ids) (Service.requireIndex name).run
      (conversing (presence name) []) = (.ok (blankIndex name), conversing [] sent) := by
  let asking := client.departed ((conversing (presence name) []).now clock)
    ⟨.head, .bucket name, [], [], none⟩ authority
  let found := conversing [success (blankIndex name).metadata] [asking]
  let fetching := client.departed (found.now clock)
    ⟨.get, .object name Document.metadataKey, [], [], none⟩ authority
  have head : RemoteSession.handle client clock ids (.object (.bucketExists name))
      (conversing (presence name) []) =
        (.ok true, conversing [success (blankIndex name).metadata] [asking]) :=
    bucketExists_answered (request?_able _ here able)
  have get : RemoteSession.handle client clock ids (.object (.getObject name Document.metadataKey))
      (conversing [success (blankIndex name).metadata] [asking]) =
        (.ok (some ⟨(blankIndex name).metadata, Client.defaultContentType⟩),
          conversing [] [asking, fetching]) :=
    getObject_answered (request?_able _ here able)
  have found : Program.interpret (RemoteSession.handle client clock ids) (Service.readMetadata name)
      (conversing [success (blankIndex name).metadata] [asking]) =
        (.ok (some (blankIndex name)), conversing [] [asking, fetching]) := by
    have read : Index.ofMetadata? (blankIndex name).metadata = some (blankIndex name) :=
      Index.ofMetadata?_metadata _ Time.Instant.regular_epoch
    unfold Service.readMetadata
    rw [Program.interpret_bind_of_eq (Program.interpret_object get)]
    simp only [read]
    rfl
  refine ⟨[asking, fetching], ?_⟩
  unfold Service.requireIndex
  simp only [valid, Bool.not_true, Bool.false_eq_true, ↓reduceIte]
  rw [Action.interpret_bind (Action.interpret_object head)]
  simp only [Bool.not_true, Bool.false_eq_true, ↓reduceIte]
  rw [Action.interpret_bind (Action.interpret_lift found)]
  rfl

theorem makes_of_goesOut (clock : Time.Clock) (ids : Nat → String)
    (here : client.At scheme authority) (able : client.able = true) (target : NotificationTarget)
    (about : operation.document? = some (name, filename)) (out : goesOut operation = true) :
    ∃ start call met meant, Program.Makes (RemoteSession.handle client clock ids)
      (operation.action target).run start call met ∧ meant? call = some meant ∧
      meant.address = .object name filename ∧
      meant.contentType.all Http.isHeaderValue = true := by
  cases operation with
  | upload index file data contentType =>
      cases about
      simp only [goesOut, Bool.and_eq_true] at out
      obtain ⟨⟨valid, admitted⟩, fits⟩ := out
      obtain ⟨sent, found⟩ := requireIndex_answered clock ids here able valid
      have makes : Program.Makes (RemoteSession.handle client clock ids)
          (Service.uploadDocument name filename data contentType).run
          (conversing (presence name) [])
          (.putObject name filename ⟨data, Service.uploadContentType contentType⟩)
          (conversing [] sent) := by
        unfold Service.uploadDocument
        cases checked : Document.checkFilename filename with
        | error refusal =>
            rw [checked] at admitted
            cases admitted
        | ok _ => exact Action.makes_bind found (Action.makes_left (Action.makes_object _))
      exact ⟨_, _, _, _, Action.makes_left makes, rfl, rfl, fits⟩
  | download index file =>
      cases about
      simp only [goesOut, Bool.and_eq_true, Bool.not_eq_true'] at out
      obtain ⟨sent, found⟩ := requireIndex_answered clock ids here able out.1
      have makes : Program.Makes (RemoteSession.handle client clock ids)
          (Service.downloadDocument name filename).run (conversing (presence name) [])
          (.getObject name filename) (conversing [] sent) := by
        unfold Service.downloadDocument
        simp only [out.2, Bool.false_eq_true, ↓reduceIte]
        exact Action.makes_bind found (Action.makes_left (Action.makes_object _))
      exact ⟨_, _, _, _, Action.makes_left makes, rfl, rfl, rfl⟩
  | remove index file =>
      cases about
      simp only [goesOut, Bool.not_eq_true'] at out
      have makes : Program.Makes (RemoteSession.handle client clock ids)
          (Service.deleteDocument name filename).run (conversing [] [])
          (.deleteObject name filename) (conversing [] []) := by
        unfold Service.deleteDocument
        simp only [out, Bool.false_eq_true, ↓reduceIte]
        exact Action.makes_left (Action.makes_object _)
      exact ⟨_, _, _, _, Action.makes_left makes, rfl, rfl, rfl⟩
  | _ => cases about

/-- A request about the content of a document delivers exactly if the filename, where it goes out
at all, is neither empty nor leads astray by dots. -/
theorem document_delivers_iff (here : client.At scheme authority) (able : client.able = true)
    (target : NotificationTarget) (about : operation.document? = some (name, filename)) :
    client.Delivers (operation.action target) ↔
      (goesOut operation = true → (Address.object name filename).Undotted ∧ filename ≠ "") := by
  constructor
  · intro delivers out
    obtain ⟨start, call, met, meant, makes, single, address, fits⟩ :=
      makes_of_goesOut Time.Instant.epoch (fun _ => "") here able target about out
    obtain ⟨_, same, requests, appended, reached⟩ := delivers _ _ start call met makes
    obtain rfl := Option.some.inj (single.symm.trans same)
    -- The one request of the call is what the promise speaks of.
    have request : client.request? (met.now Time.Instant.epoch) meant =
        some (client.departed (met.now Time.Instant.epoch) meant authority) := by
      rw [request?_able _ here able, fits, if_pos rfl]
    rw [handle_sent single, request, Option.toList_some, List.append_cancel_left_eq] at appended
    have reaches := reached _ (appended ▸ List.mem_singleton_self _)
    have good := (reaches_iff here request).mp reaches
    rw [address] at good
    exact good
  · intro good
    apply delivers_of_wellMeant here
    exact (Service.action_makesOnly target about).imp fun call passes =>
      wellMeant_of_passes passes good

def localClient : Client :=
  ⟨⟨"http", String.ofList loopback.text⟩, "us-east-1", ⟨"AKIDEXAMPLE", "secret", none⟩⟩

theorem localClient_at : localClient.At "http" loopback := ⟨Or.inl rfl, rfl⟩

theorem localClient_able : localClient.able = true := by decide +kernel

theorem local_documents_delivered :
    Client.new "http://127.0.0.1:9000/" "us-east-1" ⟨"AKIDEXAMPLE", "secret", none⟩ =
      .ok localClient ∧
    localClient.At "http" loopback ∧ localClient.able = true ∧
    localClient.Delivers
      (Operation.action ⟨"q", "webhook", "", []⟩ (.remove "docs" "notes/a b")) ∧
    ¬ localClient.Delivers
      (Operation.action ⟨"q", "webhook", "", []⟩ (.upload "a" "../b/x.txt" [] none)) := by
  have opened : Client.new "http://127.0.0.1:9000/" "us-east-1" ⟨"AKIDEXAMPLE", "secret", none⟩ =
      .ok localClient := by
    have address : "http" ++ "://" ++ String.ofList loopback.text ++
        String.ofList (List.replicate 1 '/') = "http://127.0.0.1:9000/" := by
      decide +kernel
    rw [Client.new, ← address, ofUrl_authority (Or.inl rfl) loopback 1]
    rfl
  have named : Index.isValidName "docs" = true := by decide
  have undotted : KeyUndotted "notes/a b" := by
    rw [KeyUndotted]
    decide
  have out : goesOut (.upload "a" "../b/x.txt" [] none) = true := by decide +kernel
  refine ⟨opened, localClient_at, localClient_able, ?_, ?_⟩
  · refine (document_delivers_iff localClient_at localClient_able _ rfl).mpr fun _ => ?_
    exact ⟨undotted_object named undotted, by decide⟩
  · intro delivers
    have good :=
      ((document_delivers_iff localClient_at localClient_able _ rfl).mp delivers out).1
    have above : ['.', '.'] ∈ (Address.object "a" "../b/x.txt").segments := by decide
    exact (good _ above).2 rfl

theorem deleteDocument_sent (clock : Time.Clock) (ids : Nat → String)
    (free : Document.isReserved filename = false) (start : RemoteSession) :
    (client.run clock ids (Service.deleteDocument name filename).run start).2.conversation.sent =
      start.conversation.sent ++ (client.request? (start.now clock)
        ⟨.delete, .object name filename, [], [], none⟩).toList := by
  have sent := @handle_sent client clock ids (.deleteObject name filename) _ rfl start
  rw [← sent, Client.run]
  unfold Service.deleteDocument
  simp only [free, Bool.false_eq_true, ↓reduceIte]
  cases made : RemoteSession.handle client clock ids (.object (.deleteObject name filename)) start with
  | mk answer after =>
      have ran := @Action.interpret_object _ _ _ "Failed to delete document" _ _ _ made
      cases answer with
      | ok _ =>
          rw [Action.interpret_bind ran]
          rfl
      | error why => rw [Action.interpret_bind_error ran]

/-- A filename with dots leads to another bucket, and an empty one to the bucket itself. -/
theorem strayed_removals : ∃ crossing removing : Sent,
    (localClient.run Time.Instant.epoch (fun _ => "") (Service.deleteDocument "a" "../b/x").run
      (conversing [.answered ⟨204, none, []⟩] [])).2.conversation.sent = [crossing] ∧
    (localClient.signed Time.Instant.epoch
      ⟨.delete, .object "a" "../b/x", [], [], none⟩).path = "/a/../b/x" ∧
    crossing.url.path = "/b/x" ∧
    Address.ofPath? crossing.url.path = some (.object "b" "x") ∧
    (localClient.run Time.Instant.epoch (fun _ => "") (Service.deleteDocument "a" "").run
      (conversing [.answered ⟨204, none, []⟩] [])).2.conversation.sent = [removing] ∧
    removing.url.path = "/a/" ∧
    Address.ofPath? removing.url.path = some (.bucket "a") := by
  have sent : ∀ filename, Document.isReserved filename = false →
      (localClient.run Time.Instant.epoch (fun _ => "") (Service.deleteDocument "a" filename).run
        (conversing [.answered ⟨204, none, []⟩] [])).2.conversation.sent =
          [localClient.departed Time.Instant.epoch ⟨.delete, .object "a" filename, [], [], none⟩
            loopback] := by
    intro filename free
    rw [deleteDocument_sent _ _ free, request?_able _ localClient_at localClient_able]
    rfl
  have crossed : (Address.object "a" "../b/x").sentPath = "/b/x" := by decide +kernel
  have removed : (Address.object "a" "").sentPath = "/a/" := by decide +kernel
  have other : Address.ofPath? "/b/x" = some (.object "b" "x") := by decide +kernel
  have bucket : Address.ofPath? "/a/" = some (.bucket "a") := by decide +kernel
  have signed : (Address.object "a" "../b/x").path = "/a/../b/x" := by decide +kernel
  exact ⟨_, _, sent "../b/x" (by decide), signed, crossed,
    (congrArg Address.ofPath? crossed).trans other, sent "" (by decide), removed,
    (congrArg Address.ofPath? removed).trans bucket⟩

end Delivery

end Corpora.S3
