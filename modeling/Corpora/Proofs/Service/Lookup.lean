import Corpora.Proofs.Index.Metadata
import Corpora.Proofs.Service.Effect

/-!
Requests that begin by looking their index up, and what they tell of it. That the index is missing
is told where it is, but also where its metadata is there and the one call that reads it failed:
only this fault is taken for an absence. Every other call on the object store that fails is told as
a failure.
-/

namespace Corpora

/-- No index can be had under this name: it is none that an index can have, or there is no bucket
of this name with metadata that can be read. -/
def ObjectStore.Lacks (store : ObjectStore) (name : String) : Prop :=
  ¬Index.isValidName name ∨ store.index? name = none

theorem ObjectStore.not_lacks {store : ObjectStore} {name : String} {index : Index}
    (valid : Index.isValidName name) (holds : store.index? name = some index) :
    ¬store.Lacks name := by
  rintro (invalid | absent)
  · exact invalid valid
  · rw [absent] at holds
    cases holds

theorem ObjectStore.index?_of_missing {store : ObjectStore} {name : String}
    (missing : store.bucketExists name = false) : store.index? name = none := by
  have absent : store.buckets.get? name = none := by
    simpa [bucketExists, SortedMap.contains] using missing
  rw [index?, absent, Option.bind_none]

theorem ObjectStore.index?_newBucket (store : ObjectStore) (target : NotificationTarget)
    (name : String) {index : Index} (stored : Time.Instant) (regular : index.createdAt.Regular) :
    (store.replace name (Service.newBucket target index stored)).index? name = some index := by
  rw [index?, replace, SortedMap.get?_insert_self, Option.bind_some, Bucket.index?,
    Service.newBucket, SortedMap.get?_insert_self, Option.bind_some,
    Index.ofMetadata?_metadata index regular]

namespace Service

def Circumstances.Truthful (circumstances : Circumstances) : Prop :=
  ∀ number bucket, circumstances.objectFate number (.bucketExists bucket) ≠ .denied

/-- The call that reads the metadata of a bucket, where it fails. -/
def unread (bucket : String) (why : Failure) : Fault :=
  ⟨.object (.getObject bucket Document.metadataKey), why⟩

/-- What a question on the object store brings: the truth, or why its one call failed. -/
inductive Learned {α : Type} (truth : α) (call : ObjectCall) : Attempt α → List Fault → Prop
  | truth : Learned truth call (.ok truth) []
  | failed (why : Failure) : Learned truth call (.error why) [⟨.object call, why⟩]

/-- The outcomes of looking an index up where the store does not deny its buckets. -/
inductive Lookup (store : ObjectStore) (name : String) : Answered Index → List Fault → Prop
  | found (index : Index) (valid : Index.isValidName name)
      (holds : store.index? name = some index) : Lookup store name (.ok index) []
  | lacking (lacks : store.Lacks name) : Lookup store name (.error indexMissing) []
  | unchecked (why : Failure) :
      Lookup store name (.error (.internal "Failed to check index" why))
        [⟨.object (.bucketExists name), why⟩]
  | unread (why : Failure) : Lookup store name (.error indexMissing) [unread name why]

section Parts

variable {circumstances : Circumstances} {session : Session}

theorem readMetadata_learned (bucket : String) :
    (readMetadata bucket).Ends circumstances session fun answer after faults =>
      after.stores = session.stores ∧
        Learned (session.stores.objects.index? bucket) (.getObject bucket Document.metadataKey)
          answer faults := by
  apply Program.Ends.bind (Program.ends_object _)
  intro fetched after faults seen
  cases fetched with
  | error why =>
      obtain ⟨kept, rfl⟩ := seen
      exact ⟨kept, .failed why⟩
  | ok value =>
      obtain ⟨rfl, answered⟩ := seen
      obtain ⟨objects, ⟨found, held, rfl, rfl⟩, kept⟩ := answered.does rfl
      have described : session.stores.objects.index? bucket = found.index? := by
        rw [ObjectStore.index?, held, Option.bind_some]
      rw [described, Bucket.index?]
      cases found.objects.get? Document.metadataKey with
      | none => exact ⟨kept, .truth⟩
      | some object => exact ⟨kept, .truth⟩

theorem bucketExists_learned (truthful : circumstances.Truthful) (bucket : String) :
    (Program.object (.bucketExists bucket)).Ends circumstances session
      fun answer after faults => after.stores = session.stores ∧
        Learned (session.stores.objects.bucketExists bucket) (.bucketExists bucket)
          answer faults := by
  have asked := truthful session.objectCalls bucket
  unfold Program.Ends
  simp only [Program.object, Program.run, Program.interpret, Program.faults, Session.handle]
  cases fate : circumstances.objectFate session.objectCalls (.bucketExists bucket) with
  | performed => exact ⟨rfl, .truth⟩
  | failed why => exact ⟨rfl, .failed why⟩
  | denied => exact absurd fate asked

theorem requireIndex_lookup (truthful : circumstances.Truthful) (name : String) :
    Action.Ends circumstances (requireIndex name) session fun answer after faults =>
      after.stores = session.stores ∧ Lookup session.stores.objects name answer faults := by
  unfold requireIndex
  by_cases valid : Index.isValidName name
  · simp only [valid, Bool.not_true, Bool.false_eq_true, ↓reduceIte]
    apply Action.Ends.attempt (bucketExists_learned truthful name)
    · rintro why after faults ⟨kept, learned⟩
      cases learned with
      | failed => exact ⟨kept, .unchecked why⟩
    · rintro there after faults ⟨kept, learned⟩
      cases learned with
      | truth =>
          cases held : session.stores.objects.bucketExists name with
          | false =>
              simp only [Bool.not_false, ↓reduceIte, Action.ends_throw_bind]
              exact ⟨kept, .lacking (Or.inr (ObjectStore.index?_of_missing held))⟩
          | true =>
              simp only [Bool.not_true, Bool.false_eq_true, ↓reduceIte]
              apply Action.Ends.lift_bind (readMetadata_learned name)
              rintro read final more ⟨unchanged, learned⟩
              rw [kept] at unchanged learned
              cases learned with
              | failed why => exact ⟨unchanged, .unread why⟩
              | truth =>
                  cases holds : session.stores.objects.index? name with
                  | none => exact ⟨unchanged, .lacking (Or.inr holds)⟩
                  | some index => exact ⟨unchanged, .found index valid holds⟩
  · simp only [valid, Bool.not_false, ↓reduceIte, Action.ends_throw_bind]
    exact ⟨trivial, .lacking (Or.inl valid)⟩

end Parts

namespace Operation

def lookup? : Operation → Option String
  | get name | update name _ | upload name .. | download name _ | documents name => some name
  | _ => none

/-- Whether a request gets as far as its lookup; the filenames of documents are checked first. -/
def looksUp : Operation → Bool
  | upload _ filename .. => (Document.checkFilename filename).toBool
  | download _ filename => !Document.isReserved filename
  | _ => true

end Operation

/-- What an answer tells once the index of a name was found: not that it is missing, and any call on
the object store that failed as a failure. -/
structure Forthright (name : String) (answer : Answered Reply) (faults : List Fault) : Prop where
  found : answer ≠ .error indexMissing
  read : ∀ why, unread name why ∉ faults
  told : ∀ call why, ⟨.object call, why⟩ ∈ faults →
    ∃ message, answer = .error (.internal message why)

structure Candid (store : ObjectStore) (operation : Operation) (name : String)
    (answer : Answered Reply) (faults : List Fault) : Prop where
  missing : answer = .error indexMissing ↔
    (operation.looksUp ∧ faults = [] ∧ store.Lacks name) ∨ ∃ why, faults = [unread name why]
  told : ∀ call why, ⟨.object call, why⟩ ∈ faults →
    (∃ message, answer = .error (.internal message why)) ∨ faults = [unread name why]

theorem Forthright.candid {store : ObjectStore} {operation : Operation} {name : String}
    {answer : Answered Reply} {faults : List Fault} {index : Index}
    (forthright : Forthright name answer faults) (valid : Index.isValidName name)
    (holds : store.index? name = some index) : Candid store operation name answer faults where
  missing := by
    constructor
    · intro answered
      exact absurd answered forthright.found
    · rintro (⟨_, _, lacks⟩ | ⟨why, rfl⟩)
      · exact absurd lacks (ObjectStore.not_lacks valid holds)
      · exact absurd List.mem_cons_self (forthright.read why)
  told call why met := Or.inl (forthright.told call why met)

section Requests

variable {circumstances : Circumstances} {session : Session} {α : Type} {name : String}
  {reply : α → Reply}

theorem forthright_pure {faults : List Fault} (value : α)
    (statuses : ∀ fault ∈ faults, ∃ call, fault.call = .status call) :
    Forthright name (Except.map reply (.ok value)) faults where
  found := by rintro ⟨⟩
  read why met := by
    obtain ⟨call, about⟩ := statuses _ met
    cases about
  told call why met := by
    obtain ⟨call, about⟩ := statuses _ met
    cases about

-- A call other than the one that reads the metadata is told as a failure where it fails.
theorem forthright_object {call : ObjectCall} {message : String} {next : call.Answer → Action α}
    (other : call ≠ .getObject name Document.metadataKey)
    (rest : ∀ value after, Action.Ends circumstances (next value) after
      fun answer _ faults => Forthright name (answer.map reply) faults) :
    Action.Ends circumstances (Action.object call message >>= next) session
      fun answer _ faults => Forthright name (answer.map reply) faults := by
  apply Action.Ends.object
  · intro why after _
    constructor
    · rintro ⟨⟩
    · intro reason met
      rcases List.mem_singleton.mp met with ⟨⟩
      exact other rfl
    · intro failing reason met
      rcases List.mem_singleton.mp met with ⟨⟩
      exact ⟨message, rfl⟩
  · intro value after _
    exact rest value after

theorem faults_of_status {call : StatusCall} {before after : Stores}
    {answer : Attempt call.Answer} {faults : List Fault}
    (observed : call.Observed before answer after faults) :
    ∀ fault ∈ faults, ∃ call, fault.call = .status call := by
  cases answer with
  | error why =>
      obtain ⟨_, rfl⟩ := observed
      intro fault met
      rw [List.mem_singleton.mp met]
      exact ⟨call, rfl⟩
  | ok value =>
      obtain ⟨rfl, _⟩ := observed
      intro fault met
      cases met

theorem Lookup.candid {store : ObjectStore} {operation : Operation} {error : ServiceError}
    {faults : List Fault} (lookup : Lookup store name (.error error) faults)
    (looksUp : operation.looksUp) : Candid store operation name (.error error) faults := by
  cases lookup with
  | lacking lacks =>
      constructor
      · exact ⟨fun _ => Or.inl ⟨looksUp, rfl, lacks⟩, fun _ => rfl⟩
      · intro call why met
        cases met
  | unchecked why =>
      constructor
      · constructor
        · rintro ⟨⟩
        · rintro (⟨_, ⟨⟩, _⟩ | ⟨_, ⟨⟩⟩)
      · intro call reason met
        rcases List.mem_singleton.mp met with ⟨⟩
        exact Or.inl ⟨_, rfl⟩
  | unread why =>
      constructor
      · exact ⟨fun _ => Or.inr ⟨why, rfl⟩, fun _ => rfl⟩
      · intro call reason met
        rcases List.mem_singleton.mp met with ⟨⟩
        exact Or.inr rfl

theorem requireIndex_candid (truthful : circumstances.Truthful) {operation : Operation}
    (looksUp : operation.looksUp) {next : Index → Action α}
    (rest : ∀ index after, Action.Ends circumstances (next index) after
      fun answer _ faults => Forthright name (answer.map reply) faults) :
    Action.Ends circumstances (requireIndex name >>= next) session fun answer _ faults =>
      Candid session.stores.objects operation name (answer.map reply) faults := by
  apply Action.Ends.bind (requireIndex_lookup truthful name)
  · rintro error after faults ⟨_, lookup⟩
    exact lookup.candid looksUp
  · rintro index after faults ⟨_, lookup⟩
    cases lookup with
    | found _ valid holds =>
        apply (rest index after).imp
        intro answer _ faults forthright
        exact forthright.candid valid holds

-- A filename that is refused ends the request before the lookup.
theorem candid_refused {store : ObjectStore} {operation : Operation} {message : String}
    (refused : operation.looksUp = false) :
    Candid store operation name (Except.map reply (.error (.badRequest message))) [] where
  missing := by
    constructor
    · rintro ⟨⟩
    · rintro (⟨looksUp, _⟩ | ⟨_, ⟨⟩⟩)
      rw [refused] at looksUp
      cases looksUp
  told call why met := by cases met

theorem getIndex_candid (truthful : circumstances.Truthful) (name : String) :
    Action.Ends circumstances (getIndex name) session fun answer _ faults =>
      Candid session.stores.objects (.get name) name (answer.map Reply.index) faults := by
  apply (requireIndex_lookup truthful name).imp
  rintro answer after faults ⟨_, lookup⟩
  cases answer with
  | error error => exact lookup.candid rfl
  | ok index =>
      cases lookup with
      | found _ valid holds =>
          have told : Forthright name (Except.map Reply.index (.ok index)) [] :=
            forthright_pure index nofun
          exact told.candid valid holds

theorem updateIndex_candid (truthful : circumstances.Truthful) (name description : String) :
    Action.Ends circumstances (updateIndex name description) session fun answer _ faults =>
      Candid session.stores.objects (.update name description) name (answer.map Reply.index)
        faults := by
  apply requireIndex_candid truthful rfl
  intro index after
  apply forthright_object (by rintro ⟨⟩)
  intro _ after
  exact forthright_pure _ nofun

theorem uploadDocument_candid (truthful : circumstances.Truthful) (name filename : String)
    (data : Bytes) (contentType : Option String) :
    Action.Ends circumstances (uploadDocument name filename data contentType) session
      fun answer _ faults => Candid session.stores.objects
        (.upload name filename data contentType) name (answer.map Reply.entry) faults := by
  unfold uploadDocument
  cases admitted : Document.checkFilename filename with
  | error refusal => exact candid_refused (by simp [Operation.looksUp, admitted, Except.toBool])
  | ok _ =>
      apply requireIndex_candid truthful (by simp [Operation.looksUp, admitted, Except.toBool])
      intro index after
      apply forthright_object (by rintro ⟨⟩)
      intro _ put
      apply Action.Ends.lift_bind (newStatus_ends _ _ _ _)
      rintro status drawn _ ⟨_, rfl⟩
      apply Action.Ends.lift_bind (Program.ends_status _)
      intro recorded noted faults seen
      apply Action.Ends.lift_bind Program.ends_clock
      rintro shown final _ ⟨_, rfl, _⟩
      rw [Action.ends_pure]
      simp only [List.nil_append, List.append_nil]
      exact forthright_pure _ (faults_of_status seen)

theorem downloadDocument_candid (truthful : circumstances.Truthful) (name filename : String) :
    Action.Ends circumstances (downloadDocument name filename) session fun answer _ faults =>
      Candid session.stores.objects (.download name filename) name (answer.map Reply.content)
        faults := by
  unfold downloadDocument
  cases free : Document.isReserved filename with
  | true =>
      simp only [↓reduceIte, Action.ends_throw_bind]
      exact candid_refused (by simp [Operation.looksUp, free])
  | false =>
      simp only [Bool.false_eq_true, ↓reduceIte]
      apply requireIndex_candid truthful (by simp [Operation.looksUp, free])
      intro index after
      apply forthright_object
      · rintro ⟨⟩
        cases free
      · intro content final
        cases content with
        | some content => exact forthright_pure _ nofun
        | none =>
            -- That a document is missing is told in other words.
            rw [Action.ends_throw]
            have different : documentMissing ≠ indexMissing := by decide
            exact ⟨fun told => different (Except.error.inj told), nofun, nofun⟩

theorem listDocuments_candid (truthful : circumstances.Truthful) (name : String) :
    Action.Ends circumstances (listDocuments name) session fun answer _ faults =>
      Candid session.stores.objects (.documents name) name (answer.map Reply.entries) faults := by
  apply requireIndex_candid truthful rfl
  intro index after
  apply forthright_object (by rintro ⟨⟩)
  intro objects listed
  apply Action.Ends.lift_bind (Program.ends_status _)
  intro rows final faults seen
  rw [Action.ends_pure, List.append_nil]
  exact forthright_pure _ (faults_of_status seen)

theorem action_candid (truthful : circumstances.Truthful) (target : NotificationTarget)
    {operation : Operation} (looks : operation.lookup? = some name) :
    Action.Ends circumstances (operation.action target) session fun answer _ faults =>
      Candid session.stores.objects operation name answer faults := by
  cases operation with
  | get _ =>
      cases looks
      exact .map (getIndex_candid truthful name)
  | update _ description =>
      cases looks
      exact .map (updateIndex_candid truthful name description)
  | upload _ filename data contentType =>
      cases looks
      exact .map (uploadDocument_candid truthful name filename data contentType)
  | download _ filename =>
      cases looks
      exact .map (downloadDocument_candid truthful name filename)
  | documents _ =>
      cases looks
      exact .map (listDocuments_candid truthful name)
  | _ => cases looks

/-- When a request that looks an index up tells that it is missing: where nothing failed and there
is none, and where the one call that reads its metadata failed, whatever the store holds. Every
other call on the object store that fails ends the request with an internal error about that
failure. -/
theorem missing_told_iff (truthful : circumstances.Truthful) (target : NotificationTarget)
    {operation : Operation} (looks : operation.lookup? = some name) (session : Session) :
    let answer := (operation.run target circumstances session).1
    let faults := operation.faults target circumstances session
    (answer = .error indexMissing ↔
      (operation.looksUp ∧ faults = [] ∧ session.stores.objects.Lacks name) ∨
        ∃ why, faults = [unread name why]) ∧
    ∀ call why, ⟨.object call, why⟩ ∈ faults →
      (∃ message, answer = .error (.internal message why)) ∨ faults = [unread name why] := by
  intro answer faults
  have candid : Candid session.stores.objects operation name answer faults :=
    action_candid truthful target looks
  exact ⟨candid.missing, candid.told⟩

end Requests

def illegible : Circumstances where
  objectFate _ call :=
    match call with
    | .getObject .. => .failed (.because "not now")
    | _ => .performed
  statusFate _ _ := .performed
  clock _ := Time.Instant.epoch
  ids _ := ""

theorem illegible_truthful : illegible.Truthful := fun _ _ => nofun

def shelved : Stores :=
  ⟨ObjectStore.empty.replace "a" (newBucket ⟨"q", "webhook", "", []⟩
    ⟨"a", "first", Time.Instant.epoch⟩ Time.Instant.epoch), .memory .empty⟩

theorem unread_update_missing :
    illegible.Truthful ∧ Operation.lookup? (.update "a" "second") = some "a" ∧
      (Operation.run ⟨"q", "webhook", "", []⟩ illegible (.update "a" "second")
        (.start shelved)).1 = .error indexMissing := by
  refine ⟨illegible_truthful, rfl, ?_⟩
  refine (missing_told_iff illegible_truthful _ rfl _).1.mpr (Or.inr ⟨.because "not now", ?_⟩)
  rfl

/-- An index that is there is told to be missing when its metadata cannot be fetched. -/
theorem unread_index_missing :
    illegible.Truthful ∧ ¬shelved.objects.Lacks "a" ∧
      (Operation.run ⟨"q", "webhook", "", []⟩ illegible (.get "a") (.start shelved)).1 =
        .error indexMissing := by
  refine ⟨illegible_truthful, ?_, rfl⟩
  have valid : Index.isValidName "a" := by decide
  exact ObjectStore.not_lacks valid
    (ObjectStore.index?_newBucket _ _ _ _ Time.Instant.regular_epoch)

end Service
end Corpora
