import Corpora.Proofs.Service.Effect
import Corpora.Proofs.Time.Instant

/-!
Runs in which no store call fails. Such a run is determined by the stores, the clock and the drawn
ids alone, so that each program has one outcome, which the equations below compute.
-/

namespace Corpora

namespace ObjectStore

variable {store : ObjectStore} {bucket : String} {found : Bucket}

theorem find_found (held : store.buckets.get? bucket = some found) :
    store.find bucket = .ok found := by
  simp only [find, held]

theorem find_missing (absent : store.buckets.get? bucket = none) :
    store.find bucket = .error (bucketMissing bucket) := by
  simp only [find, absent]

theorem bucketExists_found (held : store.buckets.get? bucket = some found) :
    store.bucketExists bucket = true := by
  simp only [bucketExists, SortedMap.contains, held, Option.isSome_some]

theorem bucketExists_missing (absent : store.buckets.get? bucket = none) :
    store.bucketExists bucket = false := by
  simp only [bucketExists, SortedMap.contains, absent, Option.isSome_none]

end ObjectStore

namespace Service

open Time (Instant)

namespace ObjectCall

variable {now : Instant} {store : ObjectStore} {bucket key : String} {found : Bucket}

theorem perform_createBucket (absent : store.buckets.get? bucket = none) :
    (createBucket bucket).perform now store = (.ok (), store.replace bucket .empty) := by
  simp only [perform, ObjectStore.createBucket, ObjectStore.bucketExists_missing absent,
    Bool.false_eq_true, ↓reduceIte, perform.changed]

theorem perform_deleteBucket (held : store.buckets.get? bucket = some found) :
    (deleteBucket bucket).perform now store = (.ok (), ⟨store.buckets.erase bucket⟩) := by
  simp only [perform, ObjectStore.deleteBucket, ObjectStore.find_found held]
  rfl

theorem perform_putObject (content : Content) (held : store.buckets.get? bucket = some found) :
    (putObject bucket key content).perform now store =
      (.ok (), store.replace bucket
        { found with objects := found.objects.insert key ⟨content, now⟩ }) := by
  simp only [perform, ObjectStore.putObject, ObjectStore.find_found held]
  rfl

theorem perform_getObject (held : store.buckets.get? bucket = some found) :
    (getObject bucket key).perform now store =
      (.ok ((found.objects.get? key).map StoredObject.content), store) := by
  simp only [perform, ObjectStore.getObject, ObjectStore.find_found held]
  rfl

theorem perform_getObject_missing (absent : store.buckets.get? bucket = none) :
    (getObject bucket key).perform now store =
      (.error (ObjectStore.bucketMissing bucket), store) := by
  simp only [perform, ObjectStore.getObject, ObjectStore.find_missing absent]
  rfl

theorem perform_deleteObject (held : store.buckets.get? bucket = some found) :
    (deleteObject bucket key).perform now store =
      (.ok (), store.replace bucket { found with objects := found.objects.erase key }) := by
  simp only [perform, ObjectStore.deleteObject, ObjectStore.find_found held]
  rfl

theorem perform_deleteObject_missing (absent : store.buckets.get? bucket = none) :
    (deleteObject bucket key).perform now store =
      (.error (ObjectStore.bucketMissing bucket), store) := by
  simp only [perform, ObjectStore.deleteObject, ObjectStore.find_missing absent]
  rfl

theorem perform_listObjects (held : store.buckets.get? bucket = some found) :
    (listObjects bucket).perform now store = (.ok (ObjectStore.listing found), store) := by
  simp only [perform, ObjectStore.listObjects, ObjectStore.find_found held]
  rfl

theorem perform_setNotification (notification : Notification)
    (held : store.buckets.get? bucket = some found) :
    (setNotification bucket notification).perform now store =
      (.ok (), store.replace bucket { found with notification := some notification }) := by
  simp only [perform, ObjectStore.setNotification, ObjectStore.find_found held]
  rfl

end ObjectCall

namespace StatusCall

variable {backend : StatusBackend} {store : StatusStore}

-- The store in memory performs every call.
theorem perform_upsert (report : Document.Status) (memory : backend = .memory store) :
    (upsert report).perform backend = (.ok (), .memory (store.upsert report)) := by
  rw [memory]
  rfl

theorem perform_list (index : String) (memory : backend = .memory store) :
    (list index).perform backend = (.ok (store.list index), .memory store) := by
  rw [memory]
  rfl

theorem perform_delete (key : StatusKey) (memory : backend = .memory store) :
    (delete key).perform backend = (.ok (store.delete key).1, .memory (store.delete key).2) := by
  rw [memory]
  rfl

theorem perform_deleteIndex (index : String) (memory : backend = .memory store) :
    (deleteIndex index).perform backend =
      (.ok (store.deleteIndex index).1, .memory (store.deleteIndex index).2) := by
  rw [memory]
  rfl

end StatusCall

/-- No call on a store fails, and no question for a bucket is wrongly denied. -/
structure Circumstances.Faultless (circumstances : Circumstances) : Prop where
  objects : ∀ number call, circumstances.objectFate number call = .performed
  statuses : ∀ number call, circumstances.statusFate number call = .performed

def calm : Circumstances where
  objectFate _ _ := .performed
  statusFate _ _ := .performed
  clock _ := Instant.epoch
  ids _ := ""

theorem calm_faultless : calm.Faultless := ⟨fun _ _ => rfl, fun _ _ => rfl⟩

theorem calm_regular (number : Nat) : (calm.clock number).Regular := Instant.regular_epoch

namespace Session

def performed (session : Session) (objects : ObjectStore) : Session :=
  { session with
    stores := { session.stores with objects := objects }
    objectCalls := session.objectCalls + 1
    clockReads := session.clockReads + 1 }

def noted (session : Session) (statuses : StatusBackend) : Session :=
  { session with
    stores := { session.stores with statuses := statuses }
    statusCalls := session.statusCalls + 1 }

def lookedUp (session : Session) : Session :=
  (session.performed session.stores.objects).performed session.stores.objects

def record (circumstances : Circumstances) (session : Session) (name filename : String)
    (progress : Document.Progress) (errorMessage : Option String) : Document.Status :=
  let now := circumstances.clock session.clockReads
  ⟨circumstances.ids session.idsDrawn, name, filename, progress, errorMessage, now.seconds,
    now.seconds⟩

def recorded (session : Session) : Session :=
  { session with
    clockReads := session.clockReads + 1
    idsDrawn := session.idsDrawn + 1 }

end Session

section Programs

variable {circumstances : Circumstances} {session after : Session} {α β : Type}

theorem Program.run_bind_of_eq {program : Program α} {next : α → Program β} {result : α}
    (first : program.run circumstances session = (result, after)) :
    (program >>= next).run circumstances session = (next result).run circumstances after := by
  have whole := run_bind circumstances program next session
  rw [first] at whole
  exact whole

theorem Program.run_object (faultless : circumstances.Faultless) (session : Session)
    {call : ObjectCall}
    {answer : Attempt call.Answer} {objects : ObjectStore}
    (performed : call.perform (circumstances.clock session.clockReads) session.stores.objects =
      (answer, objects)) :
    (Program.object call).run circumstances session = (answer, session.performed objects) := by
  have handled : session.handle circumstances (.object call) =
      session.performObject circumstances call := by
    simp only [Session.handle, faultless.objects]
  change session.handle circumstances (.object call) = _
  rw [handled, Session.performObject, performed]
  rfl

theorem Program.run_status (faultless : circumstances.Faultless) (session : Session)
    {call : StatusCall}
    {answer : Attempt call.Answer} {statuses : StatusBackend}
    (performed : call.perform session.stores.statuses = (answer, statuses)) :
    (Program.status call).run circumstances session = (answer, session.noted statuses) := by
  change session.handle circumstances (.status call) = _
  simp only [Session.handle, faultless.statuses, performed]
  rfl

def Action.outcome (circumstances : Circumstances) (action : Action α) (session : Session) :
    Answered α × Session :=
  Program.run circumstances action.run session

namespace Action

theorem Ends.outcome {action : Action α} {post : Answered α → Session → List Fault → Prop}
    (ends : Action.Ends circumstances action session post) :
    ∃ faults, post (action.outcome circumstances session).1
      (action.outcome circumstances session).2 faults := ⟨_, ends⟩

theorem outcome_bind {action : Action α} {next : α → Action β} {value : α}
    (first : action.outcome circumstances session = (.ok value, after)) :
    outcome circumstances (action >>= next) session =
      (next value).outcome circumstances after := by
  have ran : Program.run circumstances action.run session = (.ok value, after) := first
  exact Program.run_bind_of_eq ran

theorem outcome_bind_error {action : Action α} {next : α → Action β} {error : ServiceError}
    (first : action.outcome circumstances session = (.error error, after)) :
    outcome circumstances (action >>= next) session = (.error error, after) := by
  have ran : Program.run circumstances action.run session = (.error error, after) := first
  exact Program.run_bind_of_eq ran

theorem outcome_map {action : Action α} {convert : α → β} {answer : Answered α}
    (first : action.outcome circumstances session = (answer, after)) :
    outcome circumstances (do return convert (← action)) session =
      (answer.map convert, after) := by
  cases answer with
  | error error => exact outcome_bind_error first
  | ok value => exact outcome_bind first

theorem outcome_lift {program : Program α} {result : α}
    (first : program.run circumstances session = (result, after)) :
    outcome circumstances (liftM program : ExceptT ServiceError Program α) session =
      (.ok result, after) :=
  Program.run_bind_of_eq first

theorem outcome_object (faultless : circumstances.Faultless) (session : Session)
    {call : ObjectCall} {message : String}
    {answer : Attempt call.Answer} {objects : ObjectStore}
    (performed : call.perform (circumstances.clock session.clockReads) session.stores.objects =
      (answer, objects)) :
    outcome circumstances (object call message) session =
      (answer.internal message, session.performed objects) :=
  Program.run_bind_of_eq (Program.run_object faultless session performed)

theorem outcome_status (faultless : circumstances.Faultless) (session : Session)
    {call : StatusCall} {message : String}
    {answer : Attempt call.Answer} {statuses : StatusBackend}
    (performed : call.perform session.stores.statuses = (answer, statuses)) :
    outcome circumstances (status call message) session =
      (answer.internal message, session.noted statuses) :=
  Program.run_bind_of_eq (Program.run_status faultless session performed)

end Action

end Programs

section Indices

variable {circumstances : Circumstances} {session : Session}

theorem readMetadata_run (faultless : circumstances.Faultless) (session : Session)
    {bucket : String} {found : Bucket}
    (held : session.stores.objects.buckets.get? bucket = some found) :
    (readMetadata bucket).run circumstances session =
      (.ok found.index?, session.performed session.stores.objects) := by
  unfold readMetadata
  rw [Program.run_bind_of_eq (Program.run_object faultless session
    (ObjectCall.perform_getObject held))]
  cases entry : found.objects.get? Document.metadataKey with
  | none =>
      simp only [Bucket.index?, entry]
      rfl
  | some object =>
      simp only [Bucket.index?, entry]
      rfl

theorem readMetadata_run_missing (faultless : circumstances.Faultless) (session : Session)
    {bucket : String}
    (absent : session.stores.objects.buckets.get? bucket = none) :
    (readMetadata bucket).run circumstances session =
      (.error (ObjectStore.bucketMissing bucket), session.performed session.stores.objects) := by
  unfold readMetadata
  rw [Program.run_bind_of_eq
    (Program.run_object faultless session (ObjectCall.perform_getObject_missing absent))]
  rfl

theorem readIndices_run (faultless : circumstances.Faultless) (buckets : List String)
    (session : Session) :
    ∃ after, (readIndices buckets).run circumstances session =
        (buckets.filterMap session.stores.objects.index?, after) ∧
      after.stores = session.stores := by
  induction buckets generalizing session with
  | nil => exact ⟨session, rfl, rfl⟩
  | cons bucket rest ih =>
      obtain ⟨after, ends, kept⟩ := ih (session.performed session.stores.objects)
      refine ⟨after, ?_, kept⟩
      unfold readIndices
      rw [List.filterMap_cons]
      cases held : session.stores.objects.buckets.get? bucket with
      | none =>
          rw [Program.run_bind_of_eq (readMetadata_run_missing faultless _ held)]
          simp only [ObjectStore.index?, held, Option.bind_none]
          exact ends
      | some found =>
          rw [Program.run_bind_of_eq (readMetadata_run faultless _ held)]
          cases described : found.index? with
          | none =>
              simp only [ObjectStore.index?, held, Option.bind_some, described]
              exact ends
          | some index =>
              simp only [ObjectStore.index?, held, Option.bind_some, described]
              rw [Program.run_bind_of_eq ends]
              rfl

theorem requireIndex_outcome (faultless : circumstances.Faultless) {name : String} {index : Index}
    (valid : Index.isValidName name)
    (holds : session.stores.objects.index? name = some index) :
    (requireIndex name).outcome circumstances session =
      (.ok index, session.lookedUp) := by
  obtain ⟨found, held, described⟩ := Option.bind_eq_some_iff.mp holds
  have there := ObjectStore.bucketExists_found held
  unfold requireIndex
  simp only [valid, Bool.not_true, Bool.false_eq_true, ↓reduceIte]
  rw [Action.outcome_bind (Action.outcome_object faultless session rfl)]
  simp only [there, Bool.not_true, Bool.false_eq_true, ↓reduceIte]
  rw [Action.outcome_bind (Action.outcome_lift
    (readMetadata_run faultless (session.performed _) held)), described]
  rfl

theorem requireIndex_outcome_bind {α : Type} {next : Index → Action α}
    (faultless : circumstances.Faultless) {name : String} {index : Index}
    (valid : Index.isValidName name)
    (holds : session.stores.objects.index? name = some index) :
    Action.outcome circumstances (requireIndex name >>= next) session =
      (next index).outcome circumstances session.lookedUp :=
  Action.outcome_bind (requireIndex_outcome faultless valid holds)

theorem requireIndex_outcome_missing (faultless : circumstances.Faultless) {name : String}
    (absent : session.stores.objects.index? name = none) :
    ∃ after, (requireIndex name).outcome circumstances session = (.error indexMissing, after) ∧
      after.stores = session.stores := by
  unfold requireIndex
  by_cases valid : Index.isValidName name
  · simp only [valid, Bool.not_true, Bool.false_eq_true, ↓reduceIte]
    rw [Action.outcome_bind (Action.outcome_object faultless session rfl)]
    cases held : session.stores.objects.buckets.get? name with
    | none =>
        simp only [ObjectStore.bucketExists_missing held, Bool.not_false, ↓reduceIte]
        exact ⟨_, rfl, rfl⟩
    | some found =>
        have undescribed : found.index? = none := by
          simpa only [ObjectStore.index?, held, Option.bind_some] using absent
        simp only [ObjectStore.bucketExists_found held, Bool.not_true, Bool.false_eq_true,
          ↓reduceIte]
        rw [Action.outcome_bind (Action.outcome_lift
          (readMetadata_run faultless (session.performed _) held)), undescribed]
        exact ⟨_, rfl, rfl⟩
  · simp only [valid, Bool.not_false, ↓reduceIte]
    exact ⟨session, rfl, rfl⟩

theorem listIndices_outcome (faultless : circumstances.Faultless) (session : Session) :
    ∃ after, listIndices.outcome circumstances session =
        (.ok (stableSort (fun a b => decide (a.name < b.name)) session.stores.objects.indices),
          after) ∧
      after.stores = session.stores := by
  obtain ⟨after, read, kept⟩ := readIndices_run faultless session.stores.objects.buckets.keys
    (session.performed session.stores.objects)
  refine ⟨after, ?_, kept⟩
  unfold listIndices
  have listed : (ObjectCall.listBuckets).perform (circumstances.clock session.clockReads)
      session.stores.objects =
        (.ok session.stores.objects.buckets.keys, session.stores.objects) := rfl
  rw [Action.outcome_bind (Action.outcome_object faultless session listed),
    Action.outcome_bind (Action.outcome_lift read)]
  rfl

end Indices
end Service
end Corpora
