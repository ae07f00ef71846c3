import Corpora.Http.Message
import Corpora.Wire.Url

/-!
Conversations with a peer whose outcomes are laid down beforehand, one for each request; behind
the last of them every request is dropped. A conversation also keeps what was sent. A reply has a
status, a content type and a body; it has no `Location` header, so no redirect is followed and each
outcome belongs to the one request that was sent for it.
-/

namespace Corpora.Wire

open Http (Method Header)

structure Sent where
  method : Method
  url : Url
  headers : List Header
  body : Bytes
  deriving Repr, DecidableEq

structure Reply where
  status : Nat
  contentType : Option String
  body : Bytes
  deriving Repr, DecidableEq

namespace Reply

def isSuccess (reply : Reply) : Bool := 200 ≤ reply.status && reply.status < 300

def text (reply : Reply) : String := Text.Utf8.decodeLossy reply.body

end Reply

inductive Outcome where
  | answered (reply : Reply)
  | dropped
  deriving Repr, DecidableEq

structure Conversation where
  script : List Outcome
  sent : List Sent

namespace Conversation

def start (script : List Outcome) : Conversation := ⟨script, []⟩

def send (conversation : Conversation) (request : Sent) : Outcome × Conversation :=
  let sent := conversation.sent ++ [request]
  match conversation.script with
  | outcome :: later => (outcome, ⟨later, sent⟩)
  | [] => (.dropped, ⟨[], sent⟩)

theorem length_script_send {conversation after : Conversation} {request : Sent} {reply : Reply}
    (answered : conversation.send request = (.answered reply, after)) :
    after.script.length < conversation.script.length := by
  simp only [send] at answered
  split at answered
  · next script =>
    simp only [Prod.mk.injEq] at answered
    obtain ⟨-, rfl⟩ := answered
    simp [script]
  · simp at answered

end Conversation

def isGap (c : Char) : Bool := c == ' ' || c == '\t'

def received (name value : String) : Header :=
  ⟨name, String.ofList ((value.toList.dropWhile isGap).reverse.dropWhile isGap).reverse⟩

def request? (method : Method) (address : String) (headers : List Header) (body : Bytes) :
    Option Sent := do
  let url ← Url.parse? address
  if headers.all fun header => Http.isHeaderValue header.value then
    return ⟨method, url,
      ⟨"host", url.authority⟩ :: headers.map (fun header => received header.name header.value),
      body⟩
  else none

/-- Sends a request; one that cannot be sent is dropped and leaves no trace. -/
def Conversation.sendIfPossible (conversation : Conversation) (request : Option Sent) :
    Outcome × Conversation :=
  match request with
  | some request => conversation.send request
  | none => (.dropped, conversation)

end Corpora.Wire
