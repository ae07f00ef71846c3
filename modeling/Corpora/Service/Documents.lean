import Corpora.Document.Entry
import Corpora.Service.Indices

/-!
Documents of an index and their status records. The object store decides whether a document is
there; a status record that cannot be written or removed along the way is let go.
-/

namespace Corpora.Service

open Document (Entry Progress Status)

def defaultContentType : String := "application/octet-stream"

def documentMissing : ServiceError := .notFound "Document not found"

def newStatus (index filename : String) (progress : Progress) (errorMessage : Option String) :
    Program Status := do
  let now ← Program.clock
  return ⟨← Program.freshId, index, filename, progress, errorMessage, now.seconds, now.seconds⟩

/-- Whether an object is a document: neither the metadata nor the marker of a folder. -/
def isDocument (object : ObjectInfo) : Bool :=
  !Document.isReserved object.key && object.key.toList.getLast? != some '/'

def entryOf (statuses : List Status) (object : ObjectInfo) : Entry :=
  let status := statuses.find? fun status => status.filename == object.key
  ⟨object.key, object.size, object.contentType, object.lastModified,
    status.map Status.progress, status.bind Status.errorMessage⟩

/-- The documents of an index. Without the status store they are listed without status. -/
def listDocuments (name : String) : Action (List Entry) := do
  let _ ← requireIndex name
  let objects ← Action.object (.listObjects name) "Failed to list documents"
  let statuses := match ← Program.status (.list name) with
    | .ok rows => rows
    | .error _ => []
  return (objects.filter isDocument).map (entryOf statuses)

/-- The content type of an upload; an absent or empty one is replaced by the default. -/
def uploadContentType (contentType : Option String) : String :=
  match contentType with
  | some given => if given.isEmpty then defaultContentType else given
  | none => defaultContentType

def uploadDocument (name filename : String) (data : Bytes) (contentType : Option String) :
    Action Entry := do
  match Document.checkFilename filename with
  | .error refusal => throw (.badRequest refusal.message)
  | .ok () =>
      let _ ← requireIndex name
      let kind := uploadContentType contentType
      let _ ← Action.object (.putObject name filename ⟨data, kind⟩) "Failed to upload file"
      let _ ← Program.status (.upsert (← newStatus name filename .pending none))
      return ⟨filename, data.length, some kind, ← Program.clock, some .pending, none⟩

def downloadDocument (name filename : String) : Action Content := do
  if Document.isReserved filename then throw (.badRequest "Cannot download reserved file")
  let _ ← requireIndex name
  match ← Action.object (.getObject name filename) "Failed to get document" with
  | some content => return content
  | none => throw documentMissing

/-- Removes a document, and its record if that can be done. -/
def deleteDocument (name filename : String) : Action Unit := do
  if Document.isReserved filename then throw (.badRequest "Cannot delete reserved file")
  let _ ← Action.object (.deleteObject name filename) "Failed to delete document"
  let _ ← Program.status (.delete ⟨name, filename⟩)

/-- Records the progress that a worker reports, whether or not the document is there. -/
def updateStatus (name filename progress : String) (errorMessage : Option String) :
    Action Status := do
  if (Text.trim progress).isEmpty then throw (.badRequest "Status is required")
  match Progress.parse progress with
  | .error why => throw (.badRequest why.message)
  | .ok progress =>
      let status ← newStatus name filename progress (errorMessage.filter fun text => !text.isEmpty)
      let _ ← Action.status (.upsert status) "Failed to update document status"
      return status

def deleteStatus (name filename : String) : Action Unit := do
  let _ ← Action.status (.delete ⟨name, filename⟩) "Failed to delete document status"

end Corpora.Service
