import Corpora.Proofs.Service.Execution
import Corpora.Proofs.Service.Operation
import Corpora.Proofs.SortedMap

/-!
What a single request can do to the stores, whichever calls fail along its way. `Effect` lists the
possible outcomes, and `effect_of_run` says that there are no others. What holds of every state
that requests lead to is read off this list and not off the programs.
-/

namespace Corpora

def Bucket.index? (bucket : Bucket) : Option Index :=
  (bucket.objects.get? Document.metadataKey).bind fun object =>
    Index.ofMetadata? object.content.data

def ObjectStore.index? (store : ObjectStore) (name : String) : Option Index :=
  (store.buckets.get? name).bind Bucket.index?

def ObjectStore.indices (store : ObjectStore) : List Index :=
  store.buckets.keys.filterMap store.index?

namespace Service

open Time (Instant)

def newBucket (target : NotificationTarget) (index : Index) (stored : Instant) : Bucket where
  objects := (∅ : SortedMap String StoredObject).insert Document.metadataKey
    ⟨⟨index.metadata, metadataContentType⟩, stored⟩
  notification := some (target.notification index.name)

/-- The steps of a creation that come after its bucket, with the messages of their failures. -/
inductive LateStep (target : NotificationTarget) (name description : String) :
    Call → String → Prop
  | arming : LateStep target name description
      (.object (.setNotification name (target.notification name)))
      "Failed to configure index notifications"
  | storing (now : Instant) : LateStep target name description
      (.object (putMetadata ⟨name, description, now⟩)) "Failed to create index metadata"

/-- An error that no store caused. -/
def IsRefusal : ServiceError → Prop
  | .internal _ _ => False
  | _ => True

namespace Operation

def onlyLooks : Operation → Bool
  | get _ | list | summarize | download .. | documents _ => true
  | _ => false

def faults (target : NotificationTarget) (circumstances : Circumstances) (operation : Operation)
    (session : Session) : List Fault :=
  Program.faults circumstances (operation.action target) session

def onlyStatuses : Operation → Bool
  | report .. | forget .. => true
  | _ => false

end Operation

/-- The outcomes of a request: its answer, the stores after it and the faults it met. -/
inductive Effect (target : NotificationTarget) (circumstances : Circumstances) (before : Stores) :
    Operation → Answered Reply → Stores → List Fault → Prop
  | refused {operation : Operation} {error : ServiceError} {faults : List Fault}
      (refusal : IsRefusal error) :
      Effect target circumstances before operation (.error error) before faults
  | failed {operation : Operation} (call : Call) (message : String) (why : Failure)
      (later : List Fault) :
      Effect target circumstances before operation (.error (.internal message why)) before
        (⟨call, why⟩ :: later)
  | stranded {name description : String} {call : Call} {message : String} (bucket : Bucket)
      (why undoing : Failure) (valid : Index.isValidName name)
      (absent : before.objects.buckets.get? name = none)
      (bare : bucket.objects = ∅) (late : LateStep target name description call message) :
      Effect target circumstances before (.create name description)
        (.error (.internal message why))
        { before with objects := before.objects.replace name bucket }
        [⟨call, why⟩, ⟨.object (.deleteBucket name), undoing⟩]
  | created {name description : String} {faults : List Fault} (reading : Nat) (stored : Instant)
      (valid : Index.isValidName name) (absent : before.objects.buckets.get? name = none) :
      Effect target circumstances before (.create name description)
        (.ok (.index ⟨name, description, circumstances.clock reading⟩))
        { before with
          objects := before.objects.replace name
            (newBucket target ⟨name, description, circumstances.clock reading⟩ stored) } faults
  | looked {operation : Operation} {reply : Reply} {faults : List Fault}
      (looks : operation.onlyLooks) :
      Effect target circumstances before operation (.ok reply) before faults
  | updated {name description : String} {faults : List Fault} (index : Index) (bucket : Bucket)
      (stored : Instant) (valid : Index.isValidName name)
      (holds : before.objects.index? name = some index)
      (found : before.objects.buckets.get? index.name = some bucket) :
      Effect target circumstances before (.update name description)
        (.ok (.index { index with description := description }))
        { before with
          objects := before.objects.replace index.name
            { bucket with
              objects := bucket.objects.insert Document.metadataKey
                ⟨⟨Index.metadata { index with description := description }, metadataContentType⟩,
                  stored⟩ } } faults
  | deleted {name : String} {faults : List Fault} (bucket : Bucket) (statuses : StatusBackend)
      (found : before.objects.buckets.get? name = some bucket) :
      Effect target circumstances before (.delete name) (.ok .done)
        ⟨⟨before.objects.buckets.erase name⟩, statuses⟩ faults
  | uploaded {name filename : String} {data : Bytes} {contentType : Option String} {reply : Reply}
      {faults : List Fault} (index : Index) (bucket : Bucket) (content : Content)
      (stored : Instant) (statuses : StatusBackend)
      (admitted : Document.checkFilename filename = .ok ()) (valid : Index.isValidName name)
      (holds : before.objects.index? name = some index)
      (found : before.objects.buckets.get? name = some bucket) :
      Effect target circumstances before (.upload name filename data contentType) (.ok reply)
        ⟨before.objects.replace name
          { bucket with objects := bucket.objects.insert filename ⟨content, stored⟩ }, statuses⟩
        faults
  | removed {name filename : String} {faults : List Fault} (bucket : Bucket)
      (statuses : StatusBackend) (free : Document.isReserved filename = false)
      (found : before.objects.buckets.get? name = some bucket) :
      Effect target circumstances before (.remove name filename) (.ok .done)
        ⟨before.objects.replace name { bucket with objects := bucket.objects.erase filename },
          statuses⟩ faults
  | noted {operation : Operation} {reply : Reply} {faults : List Fault} (statuses : StatusBackend)
      (only : operation.onlyStatuses) :
      Effect target circumstances before operation (.ok reply)
        { before with statuses := statuses } faults

inductive Required (store : ObjectStore) (name : String) :
    Answered Index → List Fault → Prop
  | found (index : Index) (valid : Index.isValidName name)
      (holds : store.index? name = some index) : Required store name (.ok index) []
  | missing (faults : List Fault) : Required store name (.error indexMissing) faults
  | unchecked (why : Failure) :
      Required store name (.error (.internal "Failed to check index" why))
        [⟨.object (.bucketExists name), why⟩]

section Parts

variable {circumstances : Circumstances} {session : Session}

theorem readMetadata_ends (bucket : String) :
    (readMetadata bucket).Ends circumstances session fun answer after faults =>
      after.stores = session.stores ∧ ∀ index, answer = .ok (some index) →
        session.stores.objects.index? bucket = some index ∧ faults = [] := by
  apply Program.Ends.bind (Program.ends_object _)
  intro observed after faults seen
  cases observed with
  | error why =>
      simp only [Program.ends_pure]
      exact ⟨seen.1, by simp⟩
  | ok value =>
      obtain ⟨rfl, answered⟩ := seen
      obtain ⟨objects, ⟨found, held, rfl, rfl⟩, kept⟩ := answered.does rfl
      cases entry : found.objects.get? Document.metadataKey with
      | none =>
          simp only [Option.map_none, Program.ends_pure]
          exact ⟨kept, by simp⟩
      | some object =>
          simp only [Option.map_some, Program.ends_pure]
          constructor
          · exact kept
          · intro index read
            injection read with described
            simpa [ObjectStore.index?, held, Bucket.index?, entry] using described

theorem requireIndex_ends (name : String) :
    Action.Ends circumstances (requireIndex name) session fun answer after faults =>
      after.stores = session.stores ∧ Required session.stores.objects name answer faults := by
  unfold requireIndex
  by_cases valid : Index.isValidName name
  · simp only [valid, Bool.not_true, Bool.false_eq_true, ↓reduceIte]
    apply Action.Ends.object
    · intro why after kept
      exact ⟨kept, .unchecked why⟩
    · intro there after answered
      have kept := answered.unchanged
      cases there with
      | false => exact ⟨kept, .missing []⟩
      | true =>
          simp only [Bool.not_true, Bool.false_eq_true, ↓reduceIte]
          apply Action.Ends.lift_bind (readMetadata_ends name)
          rintro answer final faults ⟨unchanged, read⟩
          rw [kept] at unchanged read
          split
          · next index =>
            obtain ⟨holds, rfl⟩ := read index rfl
            exact ⟨unchanged, .found index valid holds⟩
          · rw [Action.ends_throw]
            exact ⟨unchanged, .missing _⟩
  · simp only [valid, Bool.not_false, ↓reduceIte, Action.ends_throw_bind]
    exact ⟨trivial, .missing []⟩

theorem newStatus_ends (index filename : String) (progress : Document.Progress)
    (errorMessage : Option String) :
    (newStatus index filename progress errorMessage).Ends circumstances session
      fun _ after faults => after.stores = session.stores ∧ faults = [] := ⟨rfl, rfl⟩

theorem rollBack_ends (name : String) :
    (rollBack name).Ends circumstances session fun _ after faults =>
      (faults = [] ∧ after.stores =
          { session.stores with objects := ⟨session.stores.objects.buckets.erase name⟩ }) ∨
        ∃ why, faults = [⟨.object (.deleteBucket name), why⟩] ∧ after.stores = session.stores := by
  apply Program.Ends.bind (Program.ends_object _)
  intro observed after faults seen
  rw [Program.ends_pure, List.append_nil]
  cases observed with
  | error why => exact Or.inr ⟨why, seen.2, seen.1⟩
  | ok value =>
      obtain ⟨rfl, answered⟩ := seen
      obtain ⟨objects, ⟨found, held, rfl⟩, kept⟩ := answered.does rfl
      exact Or.inl ⟨rfl, kept⟩

end Parts

section Calls

variable {target : NotificationTarget} {circumstances : Circumstances} {session : Session}
  {before : Stores} {operation : Operation} {α : Type} {message : String} {reply : α → Reply}

-- While the stores are as before, a request may stop at any call.
theorem stopped_effect {call : Call} (kept : session.stores = before) (why : Failure) :
    Effect target circumstances before operation
      (Except.map reply (.error (.internal message why))) session.stores [⟨call, why⟩] := by
  rw [kept]
  exact .failed call message why []

theorem bucketExists_effect {name : String} {next : Bool → Action α}
    (kept : session.stores = before)
    (rest : ∀ there (after : Session), after.stores = before →
      Action.Ends circumstances (next there) after fun answer final faults =>
        Effect target circumstances before operation (answer.map reply) final.stores faults) :
    Action.Ends circumstances (Action.object (.bucketExists name) message >>= next) session
      fun answer after faults =>
        Effect target circumstances before operation (answer.map reply) after.stores faults := by
  apply Action.Ends.object
  · intro why after unchanged
    exact stopped_effect (unchanged.trans kept) why
  · intro there after answered
    exact rest there after (answered.unchanged.trans kept)

theorem performed_effect {call : ObjectCall} {next : call.Answer → Action α}
    (kept : session.stores = before) (undeniable : call.denial? = none)
    (rest : ∀ value (after : Session) objects, call.Does before.objects value objects →
      after.stores = { before with objects := objects } →
      Action.Ends circumstances (next value) after fun answer final faults =>
        Effect target circumstances before operation (answer.map reply) final.stores faults) :
    Action.Ends circumstances (Action.object call message >>= next) session
      fun answer after faults =>
        Effect target circumstances before operation (answer.map reply) after.stores faults := by
  apply Action.Ends.object
  · intro why after unchanged
    exact stopped_effect (unchanged.trans kept) why
  · intro value after answered
    obtain ⟨objects, does, changed⟩ := answered.does undeniable
    rw [kept] at does changed
    exact rest value after objects does changed

end Calls

section Indices

variable {target : NotificationTarget} {circumstances : Circumstances} {session : Session}

-- Taking the new bucket away gives back the store from before it was created.
theorem rollBack_effect {name description message : String} {call : Call} {before : Stores}
    {bucket : Bucket} {why : Failure} (valid : Index.isValidName name)
    (absent : before.objects.buckets.get? name = none)
    (bare : bucket.objects = ∅) (late : LateStep target name description call message)
    (bucketMade : session.stores =
      { before with objects := before.objects.replace name bucket }) :
    Action.Ends circumstances
      (do
        liftM (rollBack name)
        throw (.internal message why) : Action Index) session
      fun answer after faults => Effect target circumstances before (.create name description)
        (answer.map Reply.index) after.stores (⟨call, why⟩ :: faults) := by
  apply Action.Ends.lift_bind (rollBack_ends name)
  rintro _ after faults (⟨rfl, undone⟩ | ⟨undoing, rfl, kept⟩)
  · rw [Action.ends_throw]
    have restored : after.stores = before := by
      rw [undone, bucketMade]
      simp [ObjectStore.replace, SortedMap.erase_insert_of_absent _ _ absent]
    rw [restored]
    exact .failed call message why _
  · rw [Action.ends_throw, kept, bucketMade]
    exact .stranded bucket why undoing valid absent bare late

-- The bucket is there and still empty; what follows furnishes it or takes it away again.
theorem furnish_effect {name description : String} {before : Stores}
    (valid : Index.isValidName name) (absent : before.objects.buckets.get? name = none)
    (made : session.stores = { before with objects := before.objects.replace name .empty }) :
    Action.Ends circumstances
      (do
        match ← Program.object (.setNotification name (target.notification name)) with
        | .error why =>
            rollBack name
            throw (.internal "Failed to configure index notifications" why)
        | .ok _ =>
            let index : Index := ⟨name, description, ← Program.clock⟩
            match ← Program.object (putMetadata index) with
            | .error why =>
                rollBack name
                throw (.internal "Failed to create index metadata" why)
            | .ok _ => return index : Action Index) session
      fun answer after faults => Effect target circumstances before (.create name description)
        (answer.map Reply.index) after.stores faults := by
  apply Action.Ends.lift_bind (Program.ends_object _)
  intro arming armed faults seen
  cases arming with
  | error why =>
      obtain ⟨kept, rfl⟩ := seen
      exact rollBack_effect valid absent rfl .arming (kept.trans made)
  | ok _ =>
      obtain ⟨rfl, answered⟩ := seen
      obtain ⟨objects, ⟨found, held, rfl⟩, set⟩ := answered.does rfl
      rw [made] at held set
      simp only [ObjectStore.replace, SortedMap.get?_insert_self] at held
      cases held
      apply Action.Ends.lift_bind Program.ends_clock
      rintro _ timed _ ⟨kept, rfl, reading, rfl⟩
      apply Action.Ends.lift_bind (Program.ends_object _)
      intro storing final faults seen
      have here : timed.stores = { before with
          objects := before.objects.replace name ⟨∅, some (target.notification name)⟩ } := by
        rw [kept, set]
        simp [ObjectStore.replace, SortedMap.insert_insert, Bucket.empty]
      cases storing with
      | error why =>
          obtain ⟨still, rfl⟩ := seen
          exact rollBack_effect valid absent rfl (.storing _) (still.trans here)
      | ok _ =>
          obtain ⟨rfl, answered⟩ := seen
          obtain ⟨objects, ⟨found, stored, held, rfl⟩, put⟩ := answered.does rfl
          rw [here] at held put
          simp only [ObjectStore.replace, SortedMap.get?_insert_self] at held
          cases held
          simp only [Action.ends_pure, put, ObjectStore.replace, SortedMap.insert_insert]
          exact .created reading stored valid absent

theorem createIndex_effect (name description : String) :
    Action.Ends circumstances (createIndex target name description) session
      fun answer after faults => Effect target circumstances session.stores
        (.create name description) (answer.map Reply.index) after.stores faults := by
  unfold createIndex
  by_cases empty : name.isEmpty
  · simp only [empty, ↓reduceIte, Action.ends_throw_bind]
    exact .refused trivial
  by_cases valid : Index.isValidName name
  · simp only [empty, valid, Bool.not_true, Bool.false_eq_true, ↓reduceIte]
    apply bucketExists_effect rfl
    intro there checked kept
    cases there with
    | true =>
        simp only [↓reduceIte, Action.ends_throw_bind, kept]
        exact .refused trivial
    | false =>
        simp only [Bool.false_eq_true, ↓reduceIte]
        apply performed_effect kept rfl
        rintro _ bucketed objects ⟨absent, rfl⟩ grown
        exact furnish_effect valid absent grown
  · simp only [empty, valid, Bool.not_false, Bool.false_eq_true, ↓reduceIte, Action.ends_throw_bind]
    exact .refused trivial

theorem Required.error {store : ObjectStore} {name : String} {error : ServiceError}
    {faults : List Fault} {before : Stores} {operation : Operation}
    (required : Required store name (.error error) faults) :
    Effect target circumstances before operation (.error error) before faults := by
  cases required with
  | missing => exact .refused trivial
  | unchecked why => exact .failed _ _ why []

-- A request that starts by looking its index up has nothing to answer for if there is none.
theorem requireIndex_bind {α : Type} {name : String} {operation : Operation}
    {next : Index → Action α} {reply : α → Reply}
    (rest : ∀ index after, after.stores = session.stores → Index.isValidName name →
      session.stores.objects.index? name = some index →
      Action.Ends circumstances (next index) after fun answer final faults =>
        Effect target circumstances session.stores operation (answer.map reply) final.stores
          faults) :
    Action.Ends circumstances (requireIndex name >>= next) session fun answer after faults =>
      Effect target circumstances session.stores operation (answer.map reply) after.stores
        faults := by
  apply Action.Ends.bind (requireIndex_ends name)
  · rintro error after faults ⟨kept, required⟩
    rw [kept]
    exact required.error
  · rintro index after faults ⟨kept, required⟩
    cases required with
    | found _ valid holds => exact rest index after kept valid holds

theorem getIndex_effect (name : String) :
    Action.Ends circumstances (getIndex name) session
      fun answer after faults => Effect target circumstances session.stores
        (.get name) (answer.map Reply.index) after.stores faults := by
  apply (requireIndex_ends name).imp
  rintro answer after faults ⟨kept, required⟩
  rw [kept]
  cases answer with
  | error error => exact required.error
  | ok index => exact .looked rfl

theorem updateIndex_effect (name description : String) :
    Action.Ends circumstances (updateIndex name description) session
      fun answer after faults => Effect target circumstances session.stores
        (.update name description) (answer.map Reply.index) after.stores faults := by
  apply requireIndex_bind
  intro index checked kept valid holds
  apply performed_effect kept rfl
  rintro _ after objects ⟨found, stored, held, rfl⟩ put
  rw [Action.ends_pure, put]
  exact .updated index found stored valid holds held

theorem deleteIndex_effect (name : String) :
    Action.Ends circumstances (deleteIndex name) session
      fun answer after faults => Effect target circumstances session.stores
        (.delete name) (answer.map fun _ => Reply.done) after.stores faults := by
  unfold deleteIndex
  by_cases valid : Index.isValidName name
  · simp only [valid, Bool.not_true, Bool.false_eq_true, ↓reduceIte]
    apply bucketExists_effect rfl
    intro there checked kept
    cases there with
    | false =>
        simp only [Bool.not_false, ↓reduceIte, Action.ends_throw_bind, kept]
        exact .refused trivial
    | true =>
        simp only [Bool.not_true, Bool.false_eq_true, ↓reduceIte]
        apply performed_effect kept rfl
        rintro _ dropped objects ⟨found, held, rfl⟩ gone
        apply Action.Ends.lift_bind (Program.ends_status _)
        intro cleared after faults seen
        obtain ⟨statuses, final⟩ := seen.stores
        rw [Action.ends_pure, final, gone]
        exact .deleted found statuses held
  · simp only [valid, Bool.not_false, ↓reduceIte, Action.ends_throw_bind]
    exact .refused trivial

theorem readIndices_ends (buckets : List String) :
    (readIndices buckets).Ends circumstances session fun found after _ =>
      after.stores = session.stores ∧
        found.Sublist (buckets.filterMap session.stores.objects.index?) := by
  induction buckets generalizing session with
  | nil => exact ⟨rfl, .slnil⟩
  | cons bucket rest ih =>
      apply Program.Ends.bind (readMetadata_ends bucket)
      rintro read after faults ⟨kept, holds⟩
      rw [List.filterMap_cons]
      split
      · next index =>
        obtain ⟨described, _⟩ := holds index rfl
        apply Program.Ends.bind ih
        rintro indices final more ⟨unchanged, fewer⟩
        rw [kept] at unchanged fewer
        rw [described]
        exact ⟨unchanged, fewer.cons_cons index⟩
      · apply Program.Ends.imp ih
        rintro indices final more ⟨unchanged, fewer⟩
        rw [kept] at unchanged fewer
        constructor
        · exact unchanged
        · -- Metadata that could not be fetched may still be there.
          cases session.stores.objects.index? bucket with
          | none => exact fewer
          | some hidden => exact fewer.cons hidden

theorem listIndices_effect (target : NotificationTarget) {operation : Operation}
    (looks : operation.onlyLooks) (reply : List Index → Reply) :
    Action.Ends circumstances listIndices session
      fun answer after faults => Effect target circumstances session.stores operation
        (answer.map reply) after.stores faults := by
  apply performed_effect rfl rfl
  rintro buckets listed objects ⟨_, rfl⟩ kept
  apply Action.Ends.lift_bind (readIndices_ends buckets)
  rintro indices after faults ⟨unchanged, _⟩
  rw [Action.ends_pure, unchanged, kept]
  exact .looked looks

end Indices
section Documents

variable {target : NotificationTarget} {circumstances : Circumstances} {session : Session}

theorem uploadDocument_effect (name filename : String) (data : Bytes)
    (contentType : Option String) :
    Action.Ends circumstances (uploadDocument name filename data contentType) session
      fun answer after faults => Effect target circumstances session.stores
        (.upload name filename data contentType) (answer.map Reply.entry) after.stores faults := by
  unfold uploadDocument
  cases admitted : Document.checkFilename filename with
  | error refusal =>
      simp only [Action.ends_throw]
      exact .refused trivial
  | ok _ =>
      apply requireIndex_bind
      intro index checked kept valid holds
      apply performed_effect kept rfl
      rintro _ put objects ⟨found, stored, held, rfl⟩ grown
      apply Action.Ends.lift_bind (newStatus_ends _ _ _ _)
      rintro status drawn _ ⟨unchanged, rfl⟩
      apply Action.Ends.lift_bind (Program.ends_status _)
      intro recorded after more seen
      obtain ⟨statuses, noted⟩ := seen.stores
      apply Action.Ends.lift_bind Program.ends_clock
      rintro shown final _ ⟨last, rfl, _⟩
      rw [Action.ends_pure, last, noted, unchanged, grown]
      exact .uploaded index found _ stored statuses admitted valid holds held

theorem downloadDocument_effect (name filename : String) :
    Action.Ends circumstances (downloadDocument name filename) session
      fun answer after faults => Effect target circumstances session.stores
        (.download name filename) (answer.map Reply.content) after.stores faults := by
  unfold downloadDocument
  by_cases reserved : Document.isReserved filename
  · simp only [reserved, ↓reduceIte, Action.ends_throw_bind]
    exact .refused trivial
  · simp only [reserved, Bool.false_eq_true, ↓reduceIte]
    apply requireIndex_bind
    intro index checked kept valid holds
    apply performed_effect kept rfl
    rintro content after objects ⟨_, _, _, rfl⟩ unchanged
    cases content with
    | some content =>
        rw [Action.ends_pure, unchanged]
        exact .looked rfl
    | none =>
        rw [Action.ends_throw, unchanged]
        exact .refused trivial

theorem listDocuments_effect (name : String) :
    Action.Ends circumstances (listDocuments name) session
      fun answer after faults => Effect target circumstances session.stores
        (.documents name) (answer.map Reply.entries) after.stores faults := by
  apply requireIndex_bind
  intro index checked kept valid holds
  apply performed_effect kept rfl
  rintro shown listed objects ⟨_, _, _, rfl⟩ unchanged
  apply Action.Ends.lift_bind (Program.ends_status _)
  intro rows after faults seen
  rw [Action.ends_pure, seen.listed, unchanged]
  exact .looked rfl

theorem deleteDocument_effect (name filename : String) :
    Action.Ends circumstances (deleteDocument name filename) session
      fun answer after faults => Effect target circumstances session.stores
        (.remove name filename) (answer.map fun _ => Reply.done) after.stores faults := by
  unfold deleteDocument
  cases free : Document.isReserved filename with
  | true =>
      simp only [↓reduceIte, Action.ends_throw_bind]
      exact .refused trivial
  | false =>
      simp only [Bool.false_eq_true, ↓reduceIte]
      apply performed_effect rfl rfl
      rintro _ cleared objects ⟨found, held, rfl⟩ gone
      apply Action.Ends.lift_bind (Program.ends_status _)
      intro forgotten after faults seen
      obtain ⟨statuses, final⟩ := seen.stores
      rw [Action.ends_pure, final, gone]
      exact .removed found statuses free held

theorem updateStatus_effect (name filename progress : String) (errorMessage : Option String) :
    Action.Ends circumstances (updateStatus name filename progress errorMessage) session
      fun answer after faults => Effect target circumstances session.stores
        (.report name filename progress errorMessage) (answer.map Reply.status) after.stores
        faults := by
  unfold updateStatus
  by_cases blank : (Text.trim progress).isEmpty
  · simp only [blank, ↓reduceIte, Action.ends_throw_bind]
    exact .refused trivial
  · simp only [blank, Bool.false_eq_true, ↓reduceIte]
    cases Document.Progress.parse progress with
    | error why =>
        simp only [Action.ends_throw]
        exact .refused trivial
    | ok progress =>
        apply Action.Ends.lift_bind (newStatus_ends _ _ _ _)
        rintro status drawn _ ⟨kept, rfl⟩
        apply Action.Ends.status
        · intro why after unchanged
          exact stopped_effect (unchanged.trans kept) why
        · intro _ after statuses noted
          rw [Action.ends_pure, noted, kept]
          exact .noted statuses rfl

theorem deleteStatus_effect (name filename : String) :
    Action.Ends circumstances (deleteStatus name filename) session
      fun answer after faults => Effect target circumstances session.stores
        (.forget name filename) (answer.map fun _ => Reply.done) after.stores faults := by
  apply Action.Ends.status
  · intro why after kept
    exact stopped_effect kept why
  · intro _ after statuses noted
    rw [Action.ends_pure, noted]
    exact .noted statuses rfl

end Documents

theorem action_effect (target : NotificationTarget) (circumstances : Circumstances)
    (operation : Operation) (session : Session) :
    Action.Ends circumstances (operation.action target) session fun answer after faults =>
      Effect target circumstances session.stores operation answer after.stores faults := by
  cases operation with
  | create name description => exact .map (createIndex_effect name description)
  | get name => exact .map (getIndex_effect name)
  | list => exact .map (listIndices_effect target rfl Reply.indices)
  | summarize =>
      have looks : Operation.summarize.onlyLooks := rfl
      refine .map (.map ?_)
      refine (listIndices_effect target looks
        fun found => Reply.summaries (found.map Index.summary)).imp ?_
      intro answer after faults effect
      cases answer <;> exact effect
  | update name description => exact .map (updateIndex_effect name description)
  | delete name => exact .map (deleteIndex_effect name)
  | upload name filename data contentType =>
      exact .map (uploadDocument_effect name filename data contentType)
  | download name filename => exact .map (downloadDocument_effect name filename)
  | documents name => exact .map (listDocuments_effect name)
  | remove name filename => exact .map (deleteDocument_effect name filename)
  | report name filename progress errorMessage =>
      exact .map (updateStatus_effect name filename progress errorMessage)
  | forget name filename => exact .map (deleteStatus_effect name filename)

/-- Whatever request is made in whatever circumstances, its outcome is one of those listed. -/
theorem effect_of_run (target : NotificationTarget) (circumstances : Circumstances)
    (operation : Operation) (session : Session) :
    Effect target circumstances session.stores operation
      (operation.run target circumstances session).1
      (operation.run target circumstances session).2.stores
      (operation.faults target circumstances session) :=
  action_effect target circumstances operation session

end Service
end Corpora
