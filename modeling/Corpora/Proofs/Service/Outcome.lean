import Corpora.Proofs.Service.Faultless

/-!
What each request comes to where no store call fails, as one equation for the answer and the
session after it. The programs are opened here and nowhere above.
-/

namespace Corpora.Service

open Document (Entry Progress Status)

section Indices

variable {target : NotificationTarget} {circumstances : Circumstances} {session : Session}
  (faultless : circumstances.Faultless) {name : String} {index : Index} {bucket : Bucket}
  {store : StatusStore}
include faultless

theorem createIndex_outcome (description : String) (solid : name.isEmpty = false)
    (valid : Index.isValidName name)
    (absent : session.stores.objects.buckets.get? name = none) :
    (createIndex target name description).outcome circumstances session =
      (.ok ⟨name, description, circumstances.clock (session.clockReads + 3)⟩,
        { session with
          stores := { session.stores with
            objects := session.stores.objects.replace name
              (newBucket target ⟨name, description, circumstances.clock (session.clockReads + 3)⟩
                (circumstances.clock (session.clockReads + 4))) }
          objectCalls := session.objectCalls + 4
          clockReads := session.clockReads + 5 }) := by
  unfold createIndex
  simp only [solid, valid, Bool.not_true, Bool.false_eq_true, ↓reduceIte]
  rw [Action.outcome_bind (Action.outcome_object faultless session rfl)]
  simp only [ObjectStore.bucketExists_missing absent, Bool.false_eq_true, ↓reduceIte]
  let asked := session.performed session.stores.objects
  apply (Action.outcome_bind (Action.outcome_object faultless asked
    (ObjectCall.perform_createBucket absent))).trans
  let made := asked.performed (session.stores.objects.replace name .empty)
  have bare : made.stores.objects.buckets.get? name = some .empty :=
    SortedMap.get?_insert_self _ _ _
  apply (Action.outcome_bind (Action.outcome_lift (Program.run_object faultless made
    (ObjectCall.perform_setNotification _ bare)))).trans
  let armed := made.performed (made.stores.objects.replace name
    { Bucket.empty with notification := some (target.notification name) })
  let dated := { armed with clockReads := armed.clockReads + 1 }
  have read : Program.clock.run circumstances armed =
      (circumstances.clock armed.clockReads, dated) := rfl
  apply (Action.outcome_bind (Action.outcome_lift read)).trans
  have empty : dated.stores.objects.buckets.get? name =
      some { Bucket.empty with notification := some (target.notification name) } :=
    SortedMap.get?_insert_self _ _ _
  apply (Action.outcome_bind (Action.outcome_lift (Program.run_object faultless dated
    (ObjectCall.perform_putObject _ empty)))).trans
  -- Each change replaced the bucket as a whole, so that only the last one is left.
  let bucket := newBucket target ⟨name, description, circumstances.clock armed.clockReads⟩
    (circumstances.clock dated.clockReads)
  have same : dated.stores.objects.replace name bucket =
      session.stores.objects.replace name bucket := by
    simp [dated, armed, made, asked, Session.performed, ObjectStore.replace]
  change (Except.ok _, dated.performed (dated.stores.objects.replace name bucket)) = _
  rw [same]
  rfl

theorem updateIndex_outcome (description : String) (valid : Index.isValidName name)
    (holds : session.stores.objects.index? name = some index)
    (held : session.stores.objects.buckets.get? index.name = some bucket) :
    (updateIndex name description).outcome circumstances session =
      (.ok { index with description := description },
        session.lookedUp.performed (session.stores.objects.replace index.name
          { bucket with
            objects := bucket.objects.insert Document.metadataKey
              ⟨⟨Index.metadata { index with description := description }, metadataContentType⟩,
                circumstances.clock session.lookedUp.clockReads⟩ })) := by
  rw [updateIndex, requireIndex_outcome_bind faultless valid holds]
  exact Action.outcome_bind (Action.outcome_object faultless session.lookedUp
    (ObjectCall.perform_putObject _ held))

theorem deleteIndex_outcome (valid : Index.isValidName name)
    (held : session.stores.objects.buckets.get? name = some bucket)
    (memory : session.stores.statuses = .memory store) :
    (deleteIndex name).outcome circumstances session =
      (.ok (), ((session.performed session.stores.objects).performed
        ⟨session.stores.objects.buckets.erase name⟩).noted
          (.memory (store.deleteIndex name).2)) := by
  unfold deleteIndex
  simp only [valid, Bool.not_true, Bool.false_eq_true, ↓reduceIte]
  rw [Action.outcome_bind (Action.outcome_object faultless session rfl)]
  simp only [ObjectStore.bucketExists_found held, Bool.not_true, Bool.false_eq_true, ↓reduceIte]
  let asked := session.performed session.stores.objects
  apply (Action.outcome_bind (Action.outcome_object faultless asked
    (ObjectCall.perform_deleteBucket held))).trans
  let dropped := asked.performed ⟨session.stores.objects.buckets.erase name⟩
  exact Action.outcome_bind (Action.outcome_lift
    (Program.run_status faultless dropped (StatusCall.perform_deleteIndex name memory)))

-- A name without a bucket is refused, and so is a name that no bucket can have.
theorem deleteIndex_outcome_missing
    (absent : session.stores.objects.buckets.get? name = none) :
    ∃ after, (deleteIndex name).outcome circumstances session = (.error indexMissing, after) ∧
      after.stores = session.stores := by
  unfold deleteIndex
  by_cases valid : Index.isValidName name
  · simp only [valid, Bool.not_true, Bool.false_eq_true, ↓reduceIte]
    rw [Action.outcome_bind (Action.outcome_object faultless session rfl)]
    simp only [ObjectStore.bucketExists_missing absent, Bool.not_false, ↓reduceIte]
    exact ⟨_, rfl, rfl⟩
  · simp only [valid, Bool.not_false, ↓reduceIte]
    exact ⟨_, rfl, rfl⟩

end Indices

section Documents

variable {circumstances : Circumstances} {session : Session}
  (faultless : circumstances.Faultless) {name filename : String} {index : Index} {bucket : Bucket}
  {store : StatusStore}
include faultless

theorem uploadDocument_outcome_any (data : Bytes) (contentType : Option String)
    (admitted : Document.checkFilename filename = .ok ()) (valid : Index.isValidName name)
    (holds : session.stores.objects.index? name = some index)
    (held : session.stores.objects.buckets.get? name = some bucket) :
    let content : Content := ⟨data, uploadContentType contentType⟩
    let put := session.lookedUp.performed (session.stores.objects.replace name
      { bucket with
        objects := bucket.objects.insert filename
          ⟨content, circumstances.clock session.lookedUp.clockReads⟩ })
    let report := put.record circumstances name filename .pending none
    let noted := put.recorded.noted ((StatusCall.upsert report).perform session.stores.statuses).2
    (uploadDocument name filename data contentType).outcome circumstances session =
      (.ok ⟨filename, data.length, some content.contentType, circumstances.clock noted.clockReads,
        some .pending, none⟩, { noted with clockReads := noted.clockReads + 1 }) := by
  intro content put report noted
  simp only [uploadDocument, admitted]
  rw [requireIndex_outcome_bind faultless valid holds]
  apply (Action.outcome_bind (Action.outcome_object faultless session.lookedUp
    (ObjectCall.perform_putObject content held))).trans
  have made : (newStatus name filename .pending none).run circumstances put =
      (report, put.recorded) := rfl
  apply (Action.outcome_bind (Action.outcome_lift made)).trans
  exact Action.outcome_bind (Action.outcome_lift
    (Program.run_status faultless put.recorded
      (Prod.eta ((StatusCall.upsert report).perform session.stores.statuses)).symm))

theorem uploadDocument_outcome (data : Bytes) (contentType : Option String)
    (admitted : Document.checkFilename filename = .ok ()) (valid : Index.isValidName name)
    (holds : session.stores.objects.index? name = some index)
    (held : session.stores.objects.buckets.get? name = some bucket)
    (memory : session.stores.statuses = .memory store) :
    let content : Content := ⟨data, uploadContentType contentType⟩
    let put := session.lookedUp.performed (session.stores.objects.replace name
      { bucket with
        objects := bucket.objects.insert filename
          ⟨content, circumstances.clock session.lookedUp.clockReads⟩ })
    let report := put.record circumstances name filename .pending none
    let noted := put.recorded.noted (.memory (store.upsert report))
    (uploadDocument name filename data contentType).outcome circumstances session =
      (.ok ⟨filename, data.length, some content.contentType, circumstances.clock noted.clockReads,
        some .pending, none⟩, { noted with clockReads := noted.clockReads + 1 }) := by
  intro content put report noted
  have stored := uploadDocument_outcome_any faultless data contentType admitted valid holds held
  simp only [StatusCall.perform_upsert _ memory] at stored
  exact stored

theorem downloadDocument_outcome (free : Document.isReserved filename = false)
    (valid : Index.isValidName name)
    (holds : session.stores.objects.index? name = some index)
    (held : session.stores.objects.buckets.get? name = some bucket) :
    (downloadDocument name filename).outcome circumstances session =
      ((bucket.objects.get? filename).elim (.error documentMissing) fun object =>
        .ok object.content, session.lookedUp.performed session.stores.objects) := by
  simp only [downloadDocument, free, Bool.false_eq_true, ↓reduceIte]
  rw [requireIndex_outcome_bind faultless valid holds]
  apply (Action.outcome_bind (Action.outcome_object faultless session.lookedUp
    (ObjectCall.perform_getObject held))).trans
  cases bucket.objects.get? filename with
  | none => rfl
  | some object => rfl

theorem listDocuments_outcome (valid : Index.isValidName name)
    (holds : session.stores.objects.index? name = some index)
    (held : session.stores.objects.buckets.get? name = some bucket)
    (memory : session.stores.statuses = .memory store) :
    (listDocuments name).outcome circumstances session =
      (.ok (((ObjectStore.listing bucket).filter isDocument).map (entryOf (store.list name))),
        (session.lookedUp.performed session.stores.objects).noted (.memory store)) := by
  rw [listDocuments, requireIndex_outcome_bind faultless valid holds]
  apply (Action.outcome_bind (Action.outcome_object faultless session.lookedUp
    (ObjectCall.perform_listObjects held))).trans
  let listed := session.lookedUp.performed session.stores.objects
  exact Action.outcome_bind (Action.outcome_lift
    (Program.run_status faultless listed (StatusCall.perform_list name memory)))

theorem deleteDocument_outcome (free : Document.isReserved filename = false)
    (held : session.stores.objects.buckets.get? name = some bucket)
    (memory : session.stores.statuses = .memory store) :
    (deleteDocument name filename).outcome circumstances session =
      (.ok (), (session.performed (session.stores.objects.replace name
        { bucket with objects := bucket.objects.erase filename })).noted
          (.memory (store.delete ⟨name, filename⟩).2)) := by
  simp only [deleteDocument, free, Bool.false_eq_true, ↓reduceIte]
  apply (Action.outcome_bind (Action.outcome_object faultless session
    (ObjectCall.perform_deleteObject held))).trans
  let cleared := session.performed (session.stores.objects.replace name
    { bucket with objects := bucket.objects.erase filename })
  exact Action.outcome_bind (Action.outcome_lift
    (Program.run_status faultless cleared (StatusCall.perform_delete ⟨name, filename⟩ memory)))

-- Whether there is such an index is not looked up here: its bucket is missed by the store.
theorem deleteDocument_outcome_missing (free : Document.isReserved filename = false)
    (absent : session.stores.objects.buckets.get? name = none) :
    (deleteDocument name filename).outcome circumstances session =
      (.error (.internal "Failed to delete document" (ObjectStore.bucketMissing name)),
        session.performed session.stores.objects) := by
  simp only [deleteDocument, free, Bool.false_eq_true, ↓reduceIte]
  exact Action.outcome_bind_error (Action.outcome_object faultless session
    (ObjectCall.perform_deleteObject_missing absent))

theorem updateStatus_outcome (name filename : String) {progress : String} {progressed : Progress}
    (errorMessage : Option String) (solid : (Text.trim progress).isEmpty = false)
    (parsed : Progress.parse progress = .ok progressed)
    (memory : session.stores.statuses = .memory store) :
    let report := session.record circumstances name filename progressed
      (errorMessage.filter fun text => !text.isEmpty)
    (updateStatus name filename progress errorMessage).outcome circumstances session =
      (.ok report, session.recorded.noted (.memory (store.upsert report))) := by
  intro report
  simp only [updateStatus, solid, parsed, Bool.false_eq_true, ↓reduceIte]
  have made : (newStatus name filename progressed
      (errorMessage.filter fun text => !text.isEmpty)).run circumstances session =
        (report, session.recorded) := rfl
  apply (Action.outcome_bind (Action.outcome_lift made)).trans
  exact Action.outcome_bind (Action.outcome_status faultless session.recorded
    (StatusCall.perform_upsert report memory))

theorem deleteStatus_outcome (name filename : String)
    (memory : session.stores.statuses = .memory store) :
    (deleteStatus name filename).outcome circumstances session =
      (.ok (), session.noted (.memory (store.delete ⟨name, filename⟩).2)) :=
  Action.outcome_bind (Action.outcome_status faultless session
    (StatusCall.perform_delete ⟨name, filename⟩ memory))

end Documents
end Corpora.Service
