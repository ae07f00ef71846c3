import Corpora.S3.Client
import Corpora.Service.Program

/-!
The service on a remote object store: its object calls are held as a conversation.
-/

namespace Corpora.S3

open Service (ObjectCall)
open Wire (Conversation)

namespace Client

def performCall (client : Client) (clock : Time.Clock) :
    (call : ObjectCall) → Conversation → Attempt call.Answer × Conversation
  | .bucketExists bucket, conversation => client.bucketExists clock bucket conversation
  | .createBucket bucket, conversation => client.createBucket clock bucket conversation
  | .deleteBucket bucket, conversation => client.deleteBucket clock bucket conversation
  | .listBuckets, conversation => client.listBuckets clock conversation
  | .putObject bucket key content, conversation =>
      client.putObject clock bucket key content conversation
  | .getObject bucket key, conversation => client.getObject clock bucket key conversation
  | .deleteObject bucket key, conversation => client.deleteObject clock bucket key conversation
  | .listObjects bucket, conversation => client.listObjects clock bucket conversation
  | .setNotification bucket notification, conversation =>
      client.setNotification clock bucket notification conversation

end Client

/-- A service in the middle of a run on a remote store. What it reads of the clock itself is counted
beside its requests. -/
structure RemoteSession where
  conversation : Conversation
  statuses : StatusBackend
  clockReads : Nat
  idsDrawn : Nat

def RemoteSession.handle (client : Client) (clock : Time.Clock) (ids : Nat → String) :
    (request : Service.Call) → RemoteSession → request.Answer × RemoteSession
  | .object call, session =>
      let (answer, conversation) :=
        client.performCall (clock.later session.clockReads) call session.conversation
      (answer, { session with conversation := conversation })
  | .status call, session =>
      let (answer, statuses) := call.perform session.statuses
      (answer, { session with statuses := statuses })
  | .clock, session =>
      (clock.reading (session.clockReads + session.conversation.sent.length),
        { session with clockReads := session.clockReads + 1 })
  | .freshId, session => (ids session.idsDrawn, { session with idsDrawn := session.idsDrawn + 1 })

def Client.run (client : Client) (clock : Time.Clock) (ids : Nat → String)
    (program : Service.Program α) (session : RemoteSession) : α × RemoteSession :=
  program.interpret (RemoteSession.handle client clock ids) session

end Corpora.S3
