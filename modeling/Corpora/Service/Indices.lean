import Corpora.Document.Filename
import Corpora.Index.Metadata
import Corpora.Index.Name
import Corpora.Order.StableSort
import Corpora.Service.Error
import Corpora.Service.Program

/-!
The life of an index. An index exists if its bucket does and holds metadata that can be read;
other buckets are passed over. Creating one is a sequence of calls of which a later failure takes
the new bucket away again; the failure that is told is the first one.
-/

namespace Corpora

structure NotificationTarget where
  id : String
  kind : String
  region : String
  events : List String
  deriving Repr, DecidableEq

namespace NotificationTarget

def arn (target : NotificationTarget) : String :=
  "arn:minio:sqs:" ++ target.region ++ ":" ++ target.id ++ ":" ++ target.kind

def notification (target : NotificationTarget) (bucket : String) : Notification :=
  ⟨bucket ++ "-" ++ Text.lower target.id, target.arn, target.events⟩

end NotificationTarget

namespace Service

abbrev Action (α : Type) := ExceptT ServiceError Program α

namespace Action

def object (request : ObjectCall) (message : String) : Action request.Answer :=
  ExceptT.mk do return (← Program.object request).internal message

def status (request : StatusCall) (message : String) : Action request.Answer :=
  ExceptT.mk do return (← Program.status request).internal message

end Action

def indexMissing : ServiceError := .notFound "RAG index not found"

def nameMissing : ServiceError := .badRequest "Index name is required"

def nameInvalid : ServiceError := .badRequest
  ("Index name must be 1-63 lowercase alphanumeric characters or hyphens, " ++
    "starting and ending with an alphanumeric character")

def indexPresent (name : String) : ServiceError :=
  .conflict ("RAG index '" ++ name ++ "' already exists")

def metadataContentType : String := "application/json"

/-- The index that a bucket holds; none if its metadata is missing or cannot be read. -/
def readMetadata (bucket : String) : Program (Attempt (Option Index)) := do
  match ← Program.object (.getObject bucket Document.metadataKey) with
  | .ok (some content) => return .ok (Index.ofMetadata? content.data)
  | .ok none => return .ok none
  | .error why => return .error why

def putMetadata (index : Index) : ObjectCall :=
  .putObject index.name Document.metadataKey ⟨index.metadata, metadataContentType⟩

/-- The index of a name. Metadata that cannot be fetched counts as missing. -/
def requireIndex (name : String) : Action Index := do
  if !Index.isValidName name then throw indexMissing
  if !(← Action.object (.bucketExists name) "Failed to check index") then throw indexMissing
  match ← readMetadata name with
  | .ok (some index) => return index
  | _ => throw indexMissing

/-- The indices of several buckets, without those whose metadata cannot be had. -/
def readIndices : List String → Program (List Index)
  | [] => return []
  | bucket :: rest => do
      match ← readMetadata bucket with
      | .ok (some index) => return index :: (← readIndices rest)
      | _ => readIndices rest

def listIndices : Action (List Index) := do
  let buckets ← Action.object .listBuckets "Failed to list indices"
  let found ← readIndices buckets
  return stableSort (fun a b => decide (a.name < b.name)) found

def listSummaries : Action (List IndexSummary) := do
  return (← listIndices).map Index.summary

def getIndex (name : String) : Action Index := requireIndex name

/-- Takes a new bucket away again; that this fails is not told. -/
def rollBack (bucket : String) : Program Unit := do
  let _ ← Program.object (.deleteBucket bucket)

def createIndex (target : NotificationTarget) (name description : String) : Action Index := do
  if name.isEmpty then throw nameMissing
  if !Index.isValidName name then throw nameInvalid
  if ← Action.object (.bucketExists name) "Failed to check index" then throw (indexPresent name)
  let _ ← Action.object (.createBucket name) "Failed to create index"
  match ← Program.object (.setNotification name (target.notification name)) with
  | .error why =>
      rollBack name
      throw (.internal "Failed to configure index notifications" why)
  | .ok _ =>
      let index : Index := ⟨name, description, ← Program.clock⟩
      match ← Program.object (putMetadata index) with
      | .error why =>
          rollBack name
          throw (.internal "Failed to create index metadata" why)
      | .ok _ => return index

def updateIndex (name description : String) : Action Index := do
  let index := { ← requireIndex name with description := description }
  let _ ← Action.object (putMetadata index) "Failed to update index"
  return index

/-- Removes a bucket with all its objects, whether or not it holds metadata, and then the status
records of the index if that can be done. -/
def deleteIndex (name : String) : Action Unit := do
  if !Index.isValidName name then throw indexMissing
  if !(← Action.object (.bucketExists name) "Failed to check index") then throw indexMissing
  let _ ← Action.object (.deleteBucket name) "Failed to delete index"
  let _ ← Program.status (.deleteIndex name)

end Service
end Corpora
