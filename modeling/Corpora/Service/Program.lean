import Corpora.Objects.Store
import Corpora.Status.Store

/-!
Programs of store calls. What the service does is written as a program that makes one call at a
time and goes on from its answer, so that a run can be stopped, failed or interleaved with others
between any two calls. `Program.run` runs one against stores in memory, in circumstances that
decide which calls fail, what the clock shows and which ids are drawn.
-/

namespace Corpora.Service

open Time (Instant)
open Document (Status)

inductive ObjectCall where
  | bucketExists (bucket : String)
  | createBucket (bucket : String)
  | deleteBucket (bucket : String)
  | listBuckets
  | putObject (bucket key : String) (content : Content)
  | getObject (bucket key : String)
  | deleteObject (bucket key : String)
  | listObjects (bucket : String)
  | setNotification (bucket : String) (notification : Notification)

abbrev ObjectCall.Answer : ObjectCall → Type
  | bucketExists _ => Bool
  | createBucket _ => Unit
  | deleteBucket _ => Unit
  | listBuckets => List String
  | putObject _ _ _ => Unit
  | getObject _ _ => Option Content
  | deleteObject _ _ => Unit
  | listObjects _ => List ObjectInfo
  | setNotification _ _ => Unit

inductive StatusCall where
  | upsert (status : Status)
  | list (index : String)
  | delete (key : StatusKey)
  | deleteIndex (index : String)

abbrev StatusCall.Answer : StatusCall → Type
  | upsert _ => Unit
  | list _ => List Status
  | delete _ => Bool
  | deleteIndex _ => Nat

inductive Call where
  | object (call : ObjectCall)
  | status (call : StatusCall)
  | clock
  | freshId

abbrev Call.Answer : Call → Type
  | object call => Attempt call.Answer
  | status call => Attempt call.Answer
  | clock => Instant
  | freshId => String

inductive Program (α : Type) where
  | done (result : α)
  | call (request : Call) (next : request.Answer → Program α)

namespace Program

def bind : Program α → (α → Program β) → Program β
  | done result, next => next result
  | call request first, next => call request fun answer => (first answer).bind next

instance : Monad Program where
  pure := done
  bind := bind

def object (request : ObjectCall) : Program (Attempt request.Answer) :=
  call (.object request) done

def status (request : StatusCall) : Program (Attempt request.Answer) :=
  call (.status request) done

def clock : Program Instant := call .clock done

def freshId : Program String := call .freshId done

def interpret (handle : (request : Call) → σ → request.Answer × σ) : Program α → σ → α × σ
  | done result, state => (result, state)
  | call request next, state =>
      let (answer, state) := handle request state
      (next answer).interpret handle state

def step (handle : (request : Call) → σ → request.Answer × σ) : Program α → σ → Program α × σ
  | done result, state => (done result, state)
  | call request next, state =>
      let (answer, state) := handle request state
      (next answer, state)

end Program

structure Stores where
  objects : ObjectStore
  statuses : StatusBackend

/-- What becomes of a call: it is performed, it fails without effect, or a question whether a
bucket exists is wrongly denied. -/
inductive Fate where
  | performed
  | failed (why : Failure)
  | denied

/-- What the world decides in a run, for the calls of each kind by their number. -/
structure Circumstances where
  objectFate : Nat → ObjectCall → Fate
  statusFate : Nat → StatusCall → Fate
  clock : Nat → Instant
  ids : Nat → String

structure Session where
  stores : Stores
  objectCalls : Nat
  statusCalls : Nat
  clockReads : Nat
  idsDrawn : Nat

namespace ObjectCall

def perform (now : Instant) : (call : ObjectCall) → ObjectStore → Attempt call.Answer × ObjectStore
  | bucketExists bucket, store => (.ok (store.bucketExists bucket), store)
  | createBucket bucket, store => changed store (store.createBucket bucket)
  | deleteBucket bucket, store => changed store (store.deleteBucket bucket)
  | listBuckets, store => (.ok store.listBuckets, store)
  | putObject bucket key content, store => changed store (store.putObject bucket key content now)
  | getObject bucket key, store => (store.getObject bucket key, store)
  | deleteObject bucket key, store => changed store (store.deleteObject bucket key)
  | listObjects bucket, store => (store.listObjects bucket, store)
  | setNotification bucket notification, store =>
      changed store (store.setNotification bucket notification)
where
  changed (store : ObjectStore) : Attempt ObjectStore → Attempt Unit × ObjectStore
    | .ok after => (.ok (), after)
    | .error why => (.error why, store)

/-- The wrong answer of a denied call; only the question for a bucket can be denied. -/
def denial? : (call : ObjectCall) → Option call.Answer
  | bucketExists _ => some false
  | _ => none

end ObjectCall

namespace StatusCall

def perform : (call : StatusCall) → StatusBackend → Attempt call.Answer × StatusBackend
  | upsert status, backend => valued backend ((backend.upsert status).map ((), ·))
  | list index, backend => (backend.list index, backend)
  | delete key, backend => valued backend (backend.delete key)
  | deleteIndex index, backend => valued backend (backend.deleteIndex index)
where
  valued {α : Type} (backend : StatusBackend) :
      Attempt (α × StatusBackend) → Attempt α × StatusBackend
    | .ok (value, after) => (.ok value, after)
    | .error why => (.error why, backend)

end StatusCall

namespace Session

def start (stores : Stores) : Session := ⟨stores, 0, 0, 0, 0⟩

def performObject (circumstances : Circumstances) (call : ObjectCall) (session : Session) :
    Attempt call.Answer × Session :=
  let (answer, objects) := call.perform (circumstances.clock session.clockReads)
    session.stores.objects
  (answer, { session with
    stores := { session.stores with objects := objects }
    objectCalls := session.objectCalls + 1
    clockReads := session.clockReads + 1 })

def handle (circumstances : Circumstances) :
    (request : Call) → Session → request.Answer × Session
  | .object call, session =>
      match circumstances.objectFate session.objectCalls call, call.denial? with
      | .failed why, _ => (.error why, { session with objectCalls := session.objectCalls + 1 })
      | .denied, some answer =>
          (.ok answer, { session with objectCalls := session.objectCalls + 1 })
      | _, _ => session.performObject circumstances call
  | .status call, session =>
      match circumstances.statusFate session.statusCalls call with
      | .failed why => (.error why, { session with statusCalls := session.statusCalls + 1 })
      | _ =>
          let (answer, statuses) := call.perform session.stores.statuses
          (answer, { session with
            stores := { session.stores with statuses := statuses }
            statusCalls := session.statusCalls + 1 })
  | .clock, session =>
      (circumstances.clock session.clockReads,
        { session with clockReads := session.clockReads + 1 })
  | .freshId, session =>
      (circumstances.ids session.idsDrawn, { session with idsDrawn := session.idsDrawn + 1 })

end Session

def Program.run (circumstances : Circumstances) (program : Program α) (session : Session) :
    α × Session :=
  program.interpret (Session.handle circumstances) session

end Corpora.Service
