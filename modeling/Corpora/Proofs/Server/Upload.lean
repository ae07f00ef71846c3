import Corpora.Proofs.Document.Filename
import Corpora.Proofs.Http.Form
import Corpora.Proofs.S3.Operation
import Corpora.Proofs.Server.Download

/-!
What an upload can store, and under which key. The key is the last segment of the filename that the
client gives, if documents can be stored under it, so that no upload gets out of its bucket or at
the metadata in it. The limit of the body and the limit of the file are one limit for uploads with
no more around the file than there is room for.
-/

namespace Corpora

open Document (LastSegment Storable checkFilename)
open Http (Part)
open Http.Form (WrittenForm)
open Server (IndexApi fileTooLarge)
open Server.Resource (At)
open Service (Circumstances Session uploadContentType uploadDocument)

namespace ObjectStore

def object? (store : ObjectStore) (name key : String) : Option StoredObject :=
  (store.buckets.get? name).bind fun bucket => bucket.objects.get? key

/-- A content is stored under a key of a bucket, in place of any other, and nothing else is
different. -/
def Stored (before : ObjectStore) (name key : String) (content : Content) (after : ObjectStore) :
    Prop :=
  ∃ bucket time, before.buckets.get? name = some bucket ∧ after = before.replace name
    { bucket with objects := bucket.objects.insert key ⟨content, time⟩ }

theorem Stored.object? {before after : ObjectStore} {name key : String} {content : Content}
    (stored : before.Stored name key content after) :
    (after.object? name key).map StoredObject.content = some content := by
  obtain ⟨bucket, time, -, rfl⟩ := stored
  rw [ObjectStore.object?, replace, SortedMap.get?_insert_self, Option.bind_some,
    SortedMap.get?_insert_self, Option.map_some]

theorem eq_of_object?_replace {store : ObjectStore} {name key : String} {bucket : Bucket}
    (held : store.buckets.get? name = some bucket) (object : StoredObject) {other otherKey : String}
    (changed : (store.replace name
      { bucket with objects := bucket.objects.insert key object }).object? other otherKey ≠
        store.object? other otherKey) : other = name ∧ otherKey = key := by
  by_contra apart
  refine changed ?_
  by_cases here : other = name
  · subst here
    have different : otherKey ≠ key := fun same => apart ⟨rfl, same⟩
    rw [object?, replace, SortedMap.get?_insert_self, Option.bind_some,
      SortedMap.get?_insert_of_ne _ _ different, object?, held, Option.bind_some]
  · rw [object?, replace, SortedMap.get?_insert_of_ne _ _ here, object?]

end ObjectStore

namespace Http.Request

/-- A request brings a form: its body is the form, written with the boundary that a header tells. -/
def Brings (request : Request) (form : WrittenForm) : Prop :=
  ∃ boundary, (header? request.headers "content-type").bind Form.boundary? = some boundary ∧
    form.WellFormed (Text.Utf8.encode boundary) ∧
    request.body = form.bytes (Text.Utf8.encode boundary)

/-- A request uploads a file to an index: the file is what its body has under the name `file`. -/
structure Uploads (request : Request) (name : String) (file : Part) : Prop where
  posts : request.method = .post
  asks : At request.target (.uploads name)
  brings : ∃ boundary,
    (header? request.headers "content-type").bind Form.boundary? = some boundary ∧
      Form.find boundary "file" request.body = .ok (some file)

theorem Brings.uploads {request : Request} {form : WrittenForm} {name : String} {file : Part}
    (brings : request.Brings form) (found : form.part? "file" = some file)
    (posts : request.method = .post) (asks : At request.target (.uploads name)) :
    request.Uploads name file where
  posts := posts
  asks := asks
  brings := by
    obtain ⟨boundary, told, wellFormed, body⟩ := brings
    refine ⟨boundary, told, ?_⟩
    rw [body, Form.find_written wellFormed, found]

end Http.Request

section Reading

variable {request : Http.Request} {name : String} {file : Part} (api : IndexApi)

/-- Of a file that is uploaded, either limit refuses what is too large in the same words. -/
theorem readUpload_eq (uploads : request.Uploads name file) :
    api.readUpload request =
      if api.bodyLimit < request.body.length ∨ api.maxUploadBytes < file.data.length then
        .error fileTooLarge
      else .ok file := by
  obtain ⟨boundary, told, found⟩ := uploads.brings
  rw [IndexApi.readUpload, told]
  by_cases long : api.bodyLimit < request.body.length
  · simp only [long, ↓reduceIte, true_or]
  · simp only [long, ↓reduceIte, false_or, found]

theorem readUpload_ok (uploads : request.Uploads name file)
    (small : file.data.length ≤ api.maxUploadBytes) (fits : request.body.length ≤ api.bodyLimit) :
    api.readUpload request = .ok file := by
  rw [readUpload_eq api uploads, if_neg (by omega)]

end Reading

section Keys

variable {circumstances : Circumstances} {session : Session} {name filename : String}

theorem uploadDocument_stored {index : Index} (faultless : circumstances.Faultless)
    (valid : Index.isValidName name)
    (holds : session.stores.objects.index? name = some index)
    (admitted : checkFilename filename = .ok ()) (data : Bytes) (contentType : Option String) :
    ∃ entry after,
      (uploadDocument name filename data contentType).outcome circumstances session =
        (.ok entry, after) ∧
      session.stores.objects.Stored name filename ⟨data, uploadContentType contentType⟩
        after.stores.objects := by
  obtain ⟨bucket, held, _⟩ := Option.bind_eq_some_iff.mp holds
  exact ⟨_, _, Service.uploadDocument_outcome_any faultless data contentType admitted valid holds
    held, bucket, _, held, rfl⟩

theorem uploadDocument_refused (refused : checkFilename filename ≠ .ok ()) (data : Bytes)
    (contentType : Option String) (circumstances : Circumstances) (session : Session) :
    ∃ message, (uploadDocument name filename data contentType).outcome circumstances session =
      (.error (.badRequest message), session) := by
  cases checked : checkFilename filename with
  | ok _ => exact absurd checked refused
  | error refusal =>
      refine ⟨refusal.message, ?_⟩
      rw [uploadDocument, checked]
      rfl

theorem Service.Effect.upload_changes {target : NotificationTarget} {before after : Service.Stores}
    {data : Bytes} {contentType : Option String} {answer : Answered Service.Reply}
    {faults : List Service.Fault}
    (effect : Service.Effect target circumstances before (.upload name filename data contentType)
      answer after faults) {bucket key : String}
    (changed : after.objects.object? bucket key ≠ before.objects.object? bucket key) :
    bucket = name ∧ key = filename ∧ Index.isValidName name ∧ checkFilename filename = .ok () := by
  cases effect with
  | refused | failed => exact absurd rfl changed
  | looked looks => cases looks
  | noted _ only => cases only
  | uploaded index found content stored statuses admitted valid holds held =>
      obtain ⟨here, this⟩ := ObjectStore.eq_of_object?_replace held _ changed
      exact ⟨here, this, valid, admitted⟩

/-- Whatever calls fail, an upload changes no other object. -/
theorem uploadDocument_changes {data : Bytes} {contentType : Option String} {bucket key : String}
    {run : Answered Document.Entry × Session}
    (ran : (uploadDocument name filename data contentType).outcome circumstances session = run)
    (changed : run.2.stores.objects.object? bucket key ≠
      session.stores.objects.object? bucket key) :
    bucket = name ∧ key = filename ∧ Index.isValidName name ∧ checkFilename filename = .ok () := by
  obtain ⟨faults, effect⟩ : ∃ faults, Service.Effect ⟨"", "", "", []⟩ circumstances session.stores
      (.upload name filename data contentType) (run.1.map Service.Reply.entry) run.2.stores
        faults := by
    rw [← ran]
    exact (Service.uploadDocument_effect name filename data contentType).outcome
  exact effect.upload_changes changed

-- A dot or two alone have no extension.
theorem undotted_of_admitted {key : String} (noSlash : '/' ∉ key.toList)
    (admitted : checkFilename key = .ok ()) : S3.KeyUndotted key := by
  intro segment member
  rw [Text.splitAt_free noSlash] at member
  obtain rfl := List.mem_singleton.mp member
  have supported := (Document.admitted_iff.mp admitted).2.2
  constructor <;> intro dots <;> rw [← String.ofList_toList (s := key), dots] at supported <;>
    exact absurd supported (by decide)

end Keys

section Handling

theorem post_offered {method : Http.Method} (posts : method = .post) (name : String) :
    method ∈ (Server.Resource.uploads name).methods := by
  rw [posts]
  exact List.mem_cons_self

variable {request : Http.Request} {name : String} {file : Part} {circumstances : Circumstances}
  (posts : request.method = .post) (asks : At request.target (.uploads name)) {api : IndexApi}

include posts asks

theorem handle_unread {error : ServiceError} (unread : api.readUpload request = .error error)
    (session : Session) :
    (api.handle request).run circumstances session =
      (Http.allowOrigin (.ofError error), session) := by
  rw [handle_run api asks (post_offered posts name), IndexApi.respond, unread]
  rfl

theorem handle_read (read : api.readUpload request = .ok file) (session : Session) :
    let run := (uploadDocument name (IndexApi.uploadName file) file.data
      file.contentType).outcome circumstances session
    (api.handle request).run circumstances session =
      (Http.allowOrigin (.ofAnswered (fun entry => Server.envelope 201 "File uploaded successfully"
        entry.json) run.1), run.2) := by
  rw [handle_run api asks (post_offered posts name), IndexApi.respond, read, answer_run]

/-- Whatever is uploaded in whatever circumstances, the objects that change are documents of the
index, at the top of its bucket. -/
theorem handle_changes {session : Session} {bucket key : String}
    (changed :
      ((api.handle request).run circumstances session).2.stores.objects.object? bucket key ≠
        session.stores.objects.object? bucket key) :
    bucket = name ∧ Storable key ∧ '/' ∉ key.toList ∧ '\\' ∉ key.toList ∧
      key.toList.getLast? ≠ some '/' ∧ (S3.Address.object bucket key).Undotted := by
  cases read : api.readUpload request with
  | error error =>
      rw [handle_unread posts asks read] at changed
      exact absurd rfl changed
  | ok file =>
      rw [handle_read posts asks read] at changed
      generalize ran : (uploadDocument name (IndexApi.uploadName file) file.data
        file.contentType).outcome circumstances session = run at changed
      obtain ⟨rfl, same, valid, admitted⟩ := uploadDocument_changes ran changed
      have last : LastSegment (file.filename.getD "") key :=
        Document.lastSegment_iff.mpr same.symm
      obtain ⟨noSlash, noBackslash, _⟩ := last
      rw [← same] at admitted
      exact ⟨rfl, Document.admitted_iff_storable.mp admitted, noSlash, noBackslash,
        Document.not_folder_of_admitted admitted,
        S3.undotted_object valid (undotted_of_admitted noSlash admitted)⟩

end Handling

section Uploads

variable (api : IndexApi) {request : Http.Request} {name : String} {file : Part} {index : Index}
  {circumstances : Circumstances} {session : Session}

section Taken

variable (uploads : request.Uploads name file) (small : file.data.length ≤ api.maxUploadBytes)
  (fits : request.body.length ≤ api.bodyLimit)

include uploads small fits

theorem handle_accepted (faultless : circumstances.Faultless) (valid : Index.isValidName name)
    (holds : session.stores.objects.index? name = some index)
    (admitted : checkFilename (IndexApi.uploadName file) = .ok ()) :
    let served := (api.handle request).run circumstances session
    served.1.status = 201 ∧ session.stores.objects.Stored name (IndexApi.uploadName file)
      ⟨file.data, uploadContentType file.contentType⟩ served.2.stores.objects := by
  obtain ⟨entry, after, ran, stored⟩ := uploadDocument_stored faultless valid holds admitted
    file.data file.contentType
  rw [handle_read uploads.posts uploads.asks (readUpload_ok api uploads small fits), ran]
  exact ⟨rfl, stored⟩

theorem handle_refused (refused : checkFilename (IndexApi.uploadName file) ≠ .ok ())
    (circumstances : Circumstances) (session : Session) :
    let served := (api.handle request).run circumstances session
    served.1.status = 400 ∧ served.2 = session := by
  obtain ⟨message, ran⟩ := uploadDocument_refused refused file.data file.contentType
    circumstances session
  rw [handle_read uploads.posts uploads.asks (readUpload_ok api uploads small fits), ran]
  exact ⟨rfl, rfl⟩

end Taken

theorem handle_tooLarge (uploads : request.Uploads name file)
    (large : api.bodyLimit < request.body.length ∨ api.maxUploadBytes < file.data.length) :
    (api.handle request).run circumstances session =
      (Http.allowOrigin (.ofError fileTooLarge), session) := by
  refine handle_unread uploads.posts uploads.asks ?_ session
  rw [readUpload_eq api uploads, if_pos large]

def fileForm (filename : String) (data : Bytes) : WrittenForm :=
  ⟨[], [⟨[], [⟨Text.Utf8.encode "Content-Disposition",
    Text.Utf8.encode ("form-data; name=\"file\"; filename=\"" ++ filename ++ "\"")⟩], data⟩], []⟩

def sendFile (filename : String) (data : Bytes) : Http.Request :=
  ⟨.post, "/api/indices/a/upload", [⟨"content-type", "multipart/form-data; boundary=x"⟩],
    (fileForm filename data).bytes (Text.Utf8.encode "x")⟩

theorem at_uploads : At "/api/indices/a/upload" (.uploads "a") :=
  ⟨.uploads "a", by decide, by decide⟩

theorem sendFile_brings {filename : String} {data : Bytes}
    (plain : (Text.Utf8.encode ("form-data; name=\"file\"; filename=\"" ++ filename ++ "\"")).all
      Http.Form.isValueByte = true)
    (apart : ¬ Http.Form.lineEnd ++ Http.Form.dashes ++ Text.Utf8.encode "x" <:+: data) :
    (sendFile filename data).Brings (fileForm filename data) := by
  have told : Http.Form.boundary? "multipart/form-data; boundary=x" = some "x" := by decide
  have oneLine : 0x0D ∉ Text.Utf8.encode "x" ∧ 0x0A ∉ Text.Utf8.encode "x" := by decide
  have begins : ¬ Http.Form.dashes ++ Text.Utf8.encode "x" <:+: [] := by decide
  have named : Text.Utf8.encode "Content-Disposition" ≠ [] := by decide
  have nameBytes : (Text.Utf8.encode "Content-Disposition").all Http.Form.isHeaderNameByte := by
    decide
  refine ⟨"x", told, ⟨oneLine, .inl rfl, begins, ?_⟩, rfl⟩
  intro part member
  obtain rfl := List.mem_singleton.mp member
  refine ⟨nofun, List.cons_ne_nil _ _, Nat.le_of_ble_eq_true rfl, ?_, apart⟩
  intro line member
  obtain rfl := List.mem_singleton.mp member
  exact ⟨named, List.all_eq_true.mp nameBytes, List.all_eq_true.mp plain⟩

end Uploads
end Corpora
