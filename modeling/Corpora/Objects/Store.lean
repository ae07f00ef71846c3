import Corpora.Failure
import Corpora.Order.SortedMap
import Corpora.Text.Utf8
import Corpora.Time.Instant

/-!
An object store in memory: buckets by name, objects by key, and one notification at most for each
bucket. Every operation is one step: it gives the store after it, or fails and changes nothing.
-/

namespace Corpora

open Time (Instant)

structure Notification where
  id : String
  target : String
  events : List String
  deriving Repr, DecidableEq

structure Content where
  data : Bytes
  contentType : String
  deriving Repr, DecidableEq

structure StoredObject where
  content : Content
  lastModified : Instant
  deriving Repr, DecidableEq

structure ObjectInfo where
  key : String
  size : Int
  contentType : Option String
  lastModified : Instant
  deriving Repr, DecidableEq

structure Bucket where
  objects : SortedMap String StoredObject
  notification : Option Notification

def Bucket.empty : Bucket := ⟨∅, none⟩

structure ObjectStore where
  buckets : SortedMap String Bucket

namespace ObjectStore

def empty : ObjectStore := ⟨∅⟩

def bucketMissing (bucket : String) : Failure :=
  .because ("bucket '" ++ bucket ++ "' does not exist")

def bucketPresent (bucket : String) : Failure :=
  .because ("bucket '" ++ bucket ++ "' already exists")

def bucketExists (store : ObjectStore) (bucket : String) : Bool := store.buckets.contains bucket

def find (store : ObjectStore) (bucket : String) : Attempt Bucket :=
  match store.buckets.get? bucket with
  | some found => .ok found
  | none => .error (bucketMissing bucket)

def replace (store : ObjectStore) (name : String) (bucket : Bucket) : ObjectStore :=
  ⟨store.buckets.insert name bucket⟩

def createBucket (store : ObjectStore) (bucket : String) : Attempt ObjectStore :=
  if store.bucketExists bucket then .error (bucketPresent bucket)
  else .ok (store.replace bucket .empty)

def deleteBucket (store : ObjectStore) (bucket : String) : Attempt ObjectStore := do
  let _ ← store.find bucket
  return ⟨store.buckets.erase bucket⟩

def listBuckets (store : ObjectStore) : List String := store.buckets.keys

def putObject (store : ObjectStore) (bucket key : String) (content : Content) (now : Instant) :
    Attempt ObjectStore := do
  let found ← store.find bucket
  return store.replace bucket { found with objects := found.objects.insert key ⟨content, now⟩ }

def getObject (store : ObjectStore) (bucket key : String) : Attempt (Option Content) := do
  let found ← store.find bucket
  return (found.objects.get? key).map StoredObject.content

/-- Removes an object; a key that is not there is no failure. -/
def deleteObject (store : ObjectStore) (bucket key : String) : Attempt ObjectStore := do
  let found ← store.find bucket
  return store.replace bucket { found with objects := found.objects.erase key }

def listing (bucket : Bucket) : List ObjectInfo :=
  bucket.objects.entries.map fun (key, object) =>
    ⟨key, object.content.data.length, some object.content.contentType, object.lastModified⟩

def listObjects (store : ObjectStore) (bucket : String) : Attempt (List ObjectInfo) := do
  return listing (← store.find bucket)

def setNotification (store : ObjectStore) (bucket : String) (notification : Notification) :
    Attempt ObjectStore := do
  let found ← store.find bucket
  return store.replace bucket { found with notification := some notification }

end ObjectStore
end Corpora
