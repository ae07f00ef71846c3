import Corpora.Http.JsonBody
import Corpora.Http.Multipart
import Corpora.Http.Route
import Corpora.Number.Decimal
import Corpora.Server.Health
import Corpora.Service.Documents

/-!
The API over indices and their documents. A success is answered with its data in an envelope, an
error with its message. An upload is limited twice: its body as a whole, with some room for what
is around the file, and the file itself.
-/

namespace Corpora.Server

open Http (Method Request Response BodyFault Part UndecodableParameter)
open Service (Program Action)
open Json.Decoder (RecordField field record text nullable)

inductive Resource where
  | health
  | indices
  | index (name : String)
  | documents (name : String)
  | uploads (name : String)
  | document (name filename : String)
  | documentStatus (name filename : String)
  deriving Repr, DecidableEq

namespace Resource

/-- The resource of the segments of a path. A parameter at the end may not be empty. -/
def ofSegments? : List String → Option Resource
  | ["health"] => some health
  | ["api", "indices"] => some indices
  | ["api", "indices", name] => if name.isEmpty then none else some (index name)
  | ["api", "indices", name, "documents"] => some (documents name)
  | ["api", "indices", name, "upload"] => some (uploads name)
  | ["api", "indices", name, "documents", filename] =>
      if filename.isEmpty then none else some (document name filename)
  | ["api", "indices", name, "documents", filename, "status"] =>
      some (documentStatus name filename)
  | _ => none

def methods : Resource → List Method
  | health => [.get]
  | indices => [.get, .post]
  | index _ => [.get, .put, .delete]
  | documents _ => [.get]
  | uploads _ => [.post]
  | document _ _ => [.get, .delete]
  | documentStatus _ _ => [.put, .delete]

def decode : Resource → Except UndecodableParameter Resource
  | health => .ok health
  | indices => .ok indices
  | index name => return index (← nameOf name)
  | documents name => return documents (← nameOf name)
  | uploads name => return uploads (← nameOf name)
  | document name filename => return document (← nameOf name) (← filenameOf filename)
  | documentStatus name filename => return documentStatus (← nameOf name) (← filenameOf filename)
where
  nameOf := Http.decodeParameter "name"
  filenameOf := Http.decodeParameter "filename"

end Resource

def envelope (status : Nat) (message : String) (data : Json) : Response :=
  .json status (.object [("data", data), ("message", .string message), ("error", .bool false)])

structure NewIndex where
  name : String
  description : String
  deriving Repr, DecidableEq

namespace NewIndex

structure Draft where
  name : Option String := none
  description : Option String := none

def fields : List (RecordField Draft) :=
  [field "name" Draft.name (fun value draft => { draft with name := some value }) text false,
   field "description" Draft.description
     (fun value draft => { draft with description := some value }) text false]

def decoder : Json.Decoder NewIndex :=
  record fields {} fun draft => some ⟨draft.name.getD "", draft.description.getD ""⟩

end NewIndex

def descriptionDecoder : Json.Decoder String :=
  record [field "description" id (fun value _ => some value) text false] none
    fun held => some (held.getD "")

structure Report where
  status : String
  errorMessage : Option String
  deriving Repr, DecidableEq

namespace Report

structure Draft where
  status : Option String := none
  errorMessage : Option (Option String) := none

def fields : List (RecordField Draft) :=
  [field "status" Draft.status (fun value draft => { draft with status := some value }) text false,
   field "error_msg" Draft.errorMessage
     (fun value draft => { draft with errorMessage := some value }) (nullable text) false]

def decoder : Json.Decoder Report :=
  record fields {} fun draft => some ⟨draft.status.getD "", draft.errorMessage.getD none⟩

end Report

def formRoom : Nat := 1048576

def fileTooLarge : ServiceError := .badRequest "File exceeds the maximum upload size"

/-- The message ends where the account of the form parser would begin, which is left out. -/
def formMalformed : ServiceError := .badRequest "Invalid multipart request"

def fileMissing : ServiceError := .badRequest "Missing file in request"

structure IndexApi where
  target : NotificationTarget
  maxUploadBytes : Nat

namespace IndexApi

def bodyLimit (api : IndexApi) : Nat := min (api.maxUploadBytes + formRoom) Number.maxUnsigned64

/-- The file that a form brings: its first part of the name `file`. -/
def readUpload (api : IndexApi) (request : Request) : Answered Part :=
  match (Http.header? request.headers "content-type").bind Http.Form.boundary? with
  | none => .error formMalformed
  | some boundary =>
      if request.body.length > api.bodyLimit then .error fileTooLarge
      else match Http.Form.find boundary "file" request.body with
        | .error () => .error formMalformed
        | .ok none => .error fileMissing
        | .ok (some part) =>
            if part.data.length > api.maxUploadBytes then .error fileTooLarge else .ok part

def uploadName (part : Part) : String := Document.baseName (part.filename.getD "")

def defaultDownloadType : String := "application/octet-stream"

def disposition (filename : String) : String :=
  "attachment; filename=\"" ++ String.ofList (filename.toList.map fun c =>
    if c == '"' || c == '\\' then '_' else c) ++ "\""

/-- How a document is answered. A content type that no header can carry is replaced, and a name
that none can carry is an error. -/
def download (filename : String) (content : Content) : Response :=
  if Http.isHeaderValue (disposition filename) then
    let kind := if Http.isHeaderValue content.contentType then content.contentType
      else defaultDownloadType
    ⟨200, [Response.contentType kind, ⟨"content-disposition", disposition filename⟩], content.data⟩
  else .ofError (.internal "Failed to build response headers" .foreign)

def answer (action : Action α) (render : α → Response) : Program Response := do
  return .ofAnswered render (← action.run)

def withBody (api : IndexApi) (request : Request) (decoder : Json.Decoder α)
    (next : α → Program Response) : Program Response :=
  match request.readJson api.bodyLimit decoder with
  | .ok value => next value
  | .error fault => return .ofError fault.toError

def respond (api : IndexApi) (request : Request) (resource : Resource) (method : Method) :
    Program Response :=
  match resource, method with
  | .health, _ => return health
  | .indices, .get =>
      answer Service.listIndices fun indices =>
        envelope 200 "RAG indices listed successfully" (.array (indices.map Index.json))
  | .indices, _ =>
      api.withBody request NewIndex.decoder fun new =>
        answer (Service.createIndex api.target new.name new.description) fun index =>
          envelope 201 "RAG index created successfully" index.json
  | .index name, .get =>
      answer (Service.getIndex name) fun index =>
        envelope 200 "RAG index retrieved successfully" index.json
  | .index name, .put =>
      api.withBody request descriptionDecoder fun description =>
        answer (Service.updateIndex name description) fun index =>
          envelope 200 "RAG index updated successfully" index.json
  | .index name, _ =>
      answer (Service.deleteIndex name) fun _ =>
        envelope 200 "RAG index deleted successfully" .null
  | .documents name, _ =>
      answer (Service.listDocuments name) fun entries =>
        envelope 200 "Documents listed successfully" (.array (entries.map Document.Entry.json))
  | .uploads name, _ =>
      match api.readUpload request with
      | .error error => return .ofError error
      | .ok part =>
          answer (Service.uploadDocument name (uploadName part) part.data part.contentType)
            fun entry => envelope 201 "File uploaded successfully" entry.json
  | .document name filename, .get =>
      answer (Service.downloadDocument name filename) (download filename)
  | .document name filename, _ =>
      answer (Service.deleteDocument name filename) fun _ =>
        envelope 200 "Document deleted successfully" .null
  | .documentStatus name filename, .put =>
      api.withBody request Report.decoder fun report =>
        answer (Service.updateStatus name filename report.status report.errorMessage) fun status =>
          envelope 200 "Document status updated successfully" status.json
  | .documentStatus name filename, _ =>
      answer (Service.deleteStatus name filename) fun _ =>
        envelope 200 "Document status deleted successfully" .null

def handle (api : IndexApi) (request : Request) : Program Response :=
  let resource := Resource.ofSegments? (Http.segments request.target)
  Http.dispatch (resource.map Resource.methods) request.method fun method =>
    match resource.map Resource.decode with
    | some (.ok resource) => api.respond request resource method
    | some (.error fault) => return fault.response
    | none => return .empty 404

end IndexApi
end Corpora.Server
