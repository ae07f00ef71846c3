import Corpora.Proofs.Document.Filename
import Corpora.Proofs.Index.Metadata
import Corpora.Proofs.Service.Faultless
import Corpora.Proofs.Service.Listing

/-!
What holds of the buckets in every state that requests lead to, whichever store calls fail. A
bucket is armed before it is given metadata, and its metadata is never given up while it exists;
so each index that can be seen reports its documents and is found under its own name.
-/

namespace Corpora

def Bucket.metadata? (bucket : Bucket) : Option StoredObject :=
  bucket.objects.get? Document.metadataKey

def ObjectStore.metadata? (store : ObjectStore) (name : String) : Option StoredObject :=
  (store.buckets.get? name).bind Bucket.metadata?

/-- A bucket in order: its name is that of an index, and if it holds metadata at all, the metadata
is that of the index of this name, and the bucket carries its notification. -/
structure Bucket.InOrder (target : NotificationTarget) (name : String) (bucket : Bucket) :
    Prop where
  valid : Index.isValidName name
  described : ∀ object, bucket.metadata? = some object →
    ∃ index : Index, object.content.data = index.metadata ∧ index.createdAt.Regular ∧
      index.name = name
  armed : ∀ object, bucket.metadata? = some object →
    bucket.notification = some (target.notification name)

def ObjectStore.InOrder (target : NotificationTarget) (store : ObjectStore) : Prop :=
  ∀ name bucket, store.buckets.get? name = some bucket → bucket.InOrder target name

namespace Bucket.InOrder

variable {target : NotificationTarget} {name : String} {bucket : Bucket}

theorem of_bare (valid : Index.isValidName name) (bare : bucket.objects = ∅) :
    bucket.InOrder target name := by
  have silent : bucket.metadata? = none := by
    simp [Bucket.metadata?, bare]
  constructor
  · exact valid
  · intro object held
    rw [silent] at held
    cases held
  · intro object held
    rw [silent] at held
    cases held

theorem of_index (index : Index) (stored : Time.Instant) (valid : Index.isValidName name)
    (regular : index.createdAt.Regular) (named : index.name = name)
    (armed : bucket.notification = some (target.notification name))
    (held : bucket.metadata? = some ⟨⟨index.metadata, Service.metadataContentType⟩, stored⟩) :
    bucket.InOrder target name := by
  constructor
  · exact valid
  · intro object found
    generalize written : index.metadata = data at held
    rw [held] at found
    cases found
    exact ⟨index, written.symm, regular, named⟩
  · intro object found
    exact armed

-- Objects under other keys do not matter.
theorem of_same_metadata {objects : SortedMap String StoredObject}
    (order : bucket.InOrder target name)
    (same : objects.get? Document.metadataKey = bucket.metadata?) :
    Bucket.InOrder target name { bucket with objects := objects } where
  valid := order.valid
  described object held := order.described object (same ▸ held)
  armed object held := order.armed object (same ▸ held)

theorem index_iff (order : bucket.InOrder target name) {index : Index}
    (read : bucket.index? = some index) :
    index.name = name ∧ index.createdAt.Regular ∧
      bucket.notification = some (target.notification name) := by
  rcases Option.bind_eq_some_iff.mp read with ⟨object, held, parsed⟩
  rcases order.described object held with ⟨described, written, regular, named⟩
  rw [written, Index.ofMetadata?_metadata described regular] at parsed
  cases parsed
  exact ⟨named, regular, order.armed object held⟩

theorem parses (order : bucket.InOrder target name) {object : StoredObject}
    (held : bucket.metadata? = some object) :
    ∃ index, Index.ofMetadata? object.content.data = some index ∧ index.name = name := by
  rcases order.described object held with ⟨index, written, regular, named⟩
  refine ⟨index, ?_, named⟩
  rw [written]
  exact Index.ofMetadata?_metadata index regular

end Bucket.InOrder

theorem ObjectStore.metadata?_replace (store : ObjectStore) (name other : String)
    (bucket : Bucket) :
    (store.replace name bucket).metadata? other =
      if other = name then bucket.metadata? else store.metadata? other := by
  unfold ObjectStore.metadata? ObjectStore.replace
  rw [SortedMap.get?_insert]
  split <;> rfl

-- A document may come or go; what matters is that its key is not that of the metadata.
theorem ObjectStore.metadata?_replace_objects {store : ObjectStore} {name : String}
    {bucket : Bucket} (held : store.buckets.get? name = some bucket)
    {objects : SortedMap String StoredObject}
    (same : objects.get? Document.metadataKey = bucket.metadata?) :
    (store.replace name { bucket with objects := objects }).metadata? = store.metadata? := by
  funext other
  rw [metadata?_replace]
  split
  · next here =>
    subst here
    rw [ObjectStore.metadata?, held]
    exact same
  · rfl

namespace ObjectStore.InOrder

variable {target : NotificationTarget} {store : ObjectStore} {name : String} {bucket : Bucket}

theorem replace (order : store.InOrder target) (new : bucket.InOrder target name) :
    (store.replace name bucket).InOrder target := by
  intro other found held
  by_cases same : other = name
  · subst same
    rw [ObjectStore.replace, SortedMap.get?_insert_self] at held
    cases held
    exact new
  · rw [ObjectStore.replace, SortedMap.get?_insert_of_ne _ _ same] at held
    exact order other found held

theorem erase (order : store.InOrder target) :
    ObjectStore.InOrder target ⟨store.buckets.erase name⟩ := by
  intro other found held
  rw [SortedMap.get?_erase] at held
  split at held
  · cases held
  · exact order other found held

theorem named (order : store.InOrder target) : store.Named := by
  intro name index read
  rcases Option.bind_eq_some_iff.mp read with ⟨bucket, held, described⟩
  exact ((order name bucket held).index_iff described).1

end ObjectStore.InOrder

namespace Service

variable {target : NotificationTarget} {circumstances : Circumstances}

theorem Effect.inOrder (regular : ∀ number, (circumstances.clock number).Regular)
    {before after : Stores} {operation : Operation} {answer : Answered Reply}
    {faults : List Fault}
    (effect : Effect target circumstances before operation answer after faults)
    (order : before.objects.InOrder target) : after.objects.InOrder target := by
  cases effect with
  | refused => exact order
  | failed => exact order
  | looked => exact order
  | noted => exact order
  | stranded bucket why undoing valid absent bare late => exact order.replace (.of_bare valid bare)
  | @created name description _ reading stored valid absent =>
      apply order.replace
      refine .of_index ⟨name, description, circumstances.clock reading⟩ stored valid
        (regular reading) rfl rfl ?_
      exact SortedMap.get?_insert_self _ _ _
  | @updated name description _ index bucket stored valid holds found =>
      rcases Option.bind_eq_some_iff.mp holds with ⟨held, there, described⟩
      rcases (order _ held there).index_iff described with ⟨rfl, dated, armed⟩
      obtain rfl : held = bucket := Option.some.inj (there.symm.trans found)
      apply order.replace
      refine .of_index { index with description := description } stored valid dated rfl armed ?_
      exact SortedMap.get?_insert_self _ _ _
  | deleted bucket statuses found => exact order.erase
  | uploaded index bucket content stored statuses admitted valid holds found =>
      apply order.replace
      apply (order _ bucket found).of_same_metadata
      exact SortedMap.get?_insert_of_ne _ _
        (Document.ne_metadataKey (Document.free_of_admitted admitted)).symm
  | removed bucket statuses free found =>
      apply order.replace
      apply (order _ bucket found).of_same_metadata
      rw [SortedMap.get?_erase, if_neg (Document.ne_metadataKey free).symm]
      rfl

theorem Effect.metadata_same {before after : Stores} {operation : Operation}
    {answer : Answered Reply} {faults : List Fault}
    (effect : Effect target circumstances before operation answer after faults)
    (documents : operation.onDocuments) :
    after.objects.metadata? = before.objects.metadata? := by
  cases effect with
  | refused => rfl
  | failed => rfl
  | looked => rfl
  | noted => rfl
  | stranded => cases documents
  | created => cases documents
  | updated => cases documents
  | deleted => cases documents
  | uploaded index bucket content stored statuses admitted valid holds found =>
      apply ObjectStore.metadata?_replace_objects found
      exact SortedMap.get?_insert_of_ne _ _
        (Document.ne_metadataKey (Document.free_of_admitted admitted)).symm
  | removed bucket statuses free found =>
      apply ObjectStore.metadata?_replace_objects found
      rw [SortedMap.get?_erase, if_neg (Document.ne_metadataKey free).symm]
      rfl

theorem Effect.metadata_kept {before after : Stores} {operation : Operation}
    {answer : Answered Reply} {faults : List Fault}
    (effect : Effect target circumstances before operation answer after faults) {name : String}
    (described : before.objects.metadata? name ≠ none)
    (there : after.objects.buckets.get? name ≠ none) : after.objects.metadata? name ≠ none := by
  have fresh : ∀ other, before.objects.buckets.get? other = none → name ≠ other := by
    rintro other absent rfl
    rw [ObjectStore.metadata?, absent] at described
    exact described rfl
  by_cases documents : operation.onDocuments
  · rw [effect.metadata_same documents]
    exact described
  cases effect with
  | refused => exact described
  | failed => exact described
  | looked => exact described
  | noted => exact described
  | stranded bucket why undoing valid absent =>
      rw [ObjectStore.metadata?_replace, if_neg (fresh _ absent)]
      exact described
  | created reading stored valid absent =>
      rw [ObjectStore.metadata?_replace, if_neg (fresh _ absent)]
      exact described
  | updated index bucket stored valid holds found =>
      rw [ObjectStore.metadata?_replace]
      split
      · rw [Bucket.metadata?, SortedMap.get?_insert_self]
        exact Option.some_ne_none _
      · exact described
  | deleted bucket statuses found =>
      rw [ObjectStore.metadata?, SortedMap.get?_erase]
      rw [SortedMap.get?_erase] at there
      split at there
      · exact absurd rfl there
      · next other =>
        rw [if_neg other]
        exact described
  | uploaded => exact absurd rfl documents
  | removed => exact absurd rfl documents

theorem listed_inOrder {session : Session} (order : session.stores.objects.InOrder target)
    {indices : List Index}
    (listed : (Operation.list.run target circumstances session).1 = .ok (.indices indices)) :
    (indices.Pairwise fun left right => left.name < right.name) ∧
      ∀ index ∈ indices, ∃ bucket,
        session.stores.objects.buckets.get? index.name = some bucket ∧
          bucket.index? = some index ∧
          bucket.notification = some (target.notification index.name) := by
  have fewer : indices.Sublist session.stores.objects.indices := by
    have ends : Action.Ends circumstances (Operation.list.action target) session
        fun answer _ _ => ∀ indices, answer = .ok (.indices indices) →
          indices.Sublist session.stores.objects.indices := by
      refine .map ((listIndices_ends order.named).imp ?_)
      intro answer _ _ shown indices told
      cases answer with
      | error error => cases told
      | ok found =>
          cases told
          exact shown indices rfl
    exact ends indices listed
  constructor
  · exact (ObjectStore.indices_ascending order.named).sublist fewer
  · intro index member
    rcases ObjectStore.mem_indices (fewer.subset member) with ⟨name, held⟩
    rcases Option.bind_eq_some_iff.mp held with ⟨bucket, there, described⟩
    rcases (order name bucket there).index_iff described with ⟨rfl, _, armed⟩
    exact ⟨bucket, there, described, armed⟩

/-- What holds in every state that requests lead to, whichever calls failed on the way there:
every bucket is named like an index; its metadata, if any, is that of the index of this name, and
its notification is set. So listings show armed indices only, and metadata is touched by requests
about indices alone. -/
theorem reachable_inOrder (target : NotificationTarget) (circumstances : Circumstances)
    (regular : ∀ number, (circumstances.clock number).Regular) (statuses : StatusBackend)
    (operations : List Operation) :
    let reached := (play target circumstances operations (.start ⟨.empty, statuses⟩)).2.stores
    (∀ name bucket, reached.objects.buckets.get? name = some bucket →
      Index.isValidName name ∧ ∀ object, bucket.metadata? = some object →
        (∃ index, Index.ofMetadata? object.content.data = some index ∧ index.name = name) ∧
          bucket.notification = some (target.notification name)) ∧
    ∀ (later : Circumstances) (session : Session), session.stores = reached →
      (∀ indices, (Operation.list.run target later session).1 = .ok (.indices indices) →
        (indices.Pairwise fun left right => left.name < right.name) ∧
          ∀ index ∈ indices, ∃ bucket, reached.objects.buckets.get? index.name = some bucket ∧
            bucket.index? = some index ∧
            bucket.notification = some (target.notification index.name)) ∧
      ∀ operation : Operation,
        let after := (operation.run target later session).2.stores
        (operation.onDocuments → after.objects.metadata? = reached.objects.metadata?) ∧
          ∀ name, reached.objects.metadata? name ≠ none →
            after.objects.buckets.get? name ≠ none → after.objects.metadata? name ≠ none := by
  intro reached
  have order : reached.objects.InOrder target := by
    refine play_invariant (fun stores => stores.objects.InOrder target) ?_ operations _ ?_
    · intro operation session
      exact (effect_of_run target circumstances operation session).inOrder regular
    · intro name bucket held
      cases held
  constructor
  · intro name bucket held
    have sound := order name bucket held
    exact ⟨sound.valid, fun object found => ⟨sound.parses found, sound.armed object found⟩⟩
  · intro later session start
    clear_value reached
    subst start
    constructor
    · intro indices listed
      exact listed_inOrder order listed
    · intro operation after
      have effect := effect_of_run target later operation session
      exact ⟨effect.metadata_same, fun name => effect.metadata_kept⟩

def calmStores : Stores :=
  (play ⟨"q", "webhook", "", []⟩ calm [.create "a" "first"]
    (.start ⟨.empty, .memory .empty⟩)).2.stores

theorem calm_create_armed :
    (∀ number, (calm.clock number).Regular) ∧ ∃ bucket,
      calmStores.objects.buckets.get? "a" = some bucket ∧ bucket.metadata? ≠ none ∧
        bucket.notification =
          some (NotificationTarget.notification ⟨"q", "webhook", "", []⟩ "a") := by
  have described : (calmStores.objects.metadata? "a").isSome = true := rfl
  rcases Option.isSome_iff_exists.mp described with ⟨object, held⟩
  rcases Option.bind_eq_some_iff.mp held with ⟨bucket, there, found⟩
  have order := (reachable_inOrder _ calm calm_regular (.memory .empty)
    [.create "a" "first"]).1 "a" bucket there
  refine ⟨calm_regular, bucket, there, ?_, (order.2 object found).2⟩
  rw [found]
  exact Option.some_ne_none object

end Service
end Corpora
