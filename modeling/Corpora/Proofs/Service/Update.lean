import Corpora.Proofs.Service.Agreement
import Corpora.Proofs.Service.Outcome

/-!
Updates of an index on any content of the object store. The metadata is read from the bucket that is
asked for and written to the bucket that it names, so an update keeps to its own index exactly where
no metadata in the way names the bucket of another one.
-/

namespace Corpora

/-- Two stores are alike but for the metadata in one bucket. -/
structure ObjectStore.SameBut (name : String) (before after : ObjectStore) : Prop where
  elsewhere : ∀ other, other ≠ name → after.buckets.get? other = before.buckets.get? other
  missing : before.buckets.get? name = none → after.buckets.get? name = none
  within : ∀ bucket, before.buckets.get? name = some bucket →
    ∃ changed, after.buckets.get? name = some changed ∧
      changed.notification = bucket.notification ∧
      ∀ key, key ≠ Document.metadataKey → changed.objects.get? key = bucket.objects.get? key

/-- The bucket of a name describes an index of this name, or one for which there is no bucket. -/
def ObjectStore.KeepsOwn (store : ObjectStore) (name : String) : Prop :=
  ∀ index, store.index? name = some index →
    index.name = name ∨ store.buckets.get? index.name = none

namespace ObjectStore

variable {store : ObjectStore} {name : String} {index : Index} {bucket : Bucket}

theorem SameBut.refl (name : String) (store : ObjectStore) : store.SameBut name store where
  elsewhere _ _ := rfl
  missing absent := absent
  within bucket held := ⟨bucket, held, rfl, fun _ _ => rfl⟩

def describe (store : ObjectStore) (bucket : Bucket) (index : Index) (description : String)
    (stored : Time.Instant) : ObjectStore :=
  store.replace index.name
    { bucket with
      objects := bucket.objects.insert Document.metadataKey
        ⟨⟨Index.metadata { index with description := description }, Service.metadataContentType⟩,
          stored⟩ }

theorem sameBut_describe (held : store.buckets.get? index.name = some bucket)
    (description : String) (stored : Time.Instant) :
    store.SameBut index.name (store.describe bucket index description stored) where
  elsewhere other different := SortedMap.get?_insert_of_ne _ _ different
  missing absent := by
    rw [held] at absent
    cases absent
  within found there := by
    obtain rfl : bucket = found := Option.some.inj (held.symm.trans there)
    refine ⟨_, SortedMap.get?_insert_self _ _ _, rfl, ?_⟩
    intro key different
    exact SortedMap.get?_insert_of_ne _ _ different

theorem index?_describe (store : ObjectStore) (bucket : Bucket) (description : String)
    (stored : Time.Instant) (regular : index.createdAt.Regular) :
    (store.describe bucket index description stored).index? index.name =
      some { index with description := description } := by
  rw [index?, describe, replace, SortedMap.get?_insert_self, Option.bind_some, Bucket.index?,
    SortedMap.get?_insert_self, Option.bind_some]
  exact Index.ofMetadata?_metadata { index with description := description } regular

theorem index?_replace_of_ne (store : ObjectStore) (bucket : Bucket) {other : String}
    (different : name ≠ other) : (store.replace other bucket).index? name = store.index? name := by
  rw [index?, replace, SortedMap.get?_insert_of_ne _ _ different, index?]

theorem index?_regular (holds : store.index? name = some index) : index.createdAt.Regular := by
  obtain ⟨bucket, _, described⟩ := Option.bind_eq_some_iff.mp holds
  obtain ⟨object, _, read⟩ := Option.bind_eq_some_iff.mp described
  exact Index.ofMetadata?_regular read

end ObjectStore

namespace Service

/-- What an update is to keep to, whatever calls fail along its way: only the metadata of its own
index changes, and when it is answered, the index is found with the new description. -/
def KeepsToItself (target : NotificationTarget) (store : ObjectStore) (name : String) : Prop :=
  ∀ (circumstances : Circumstances) (session : Session) (description : String),
    session.stores.objects = store →
    let run := (Operation.update name description).run target circumstances session
    store.SameBut name run.2.stores.objects ∧
    ∀ reply, run.1 = .ok reply → ∀ later : Circumstances, later.Faultless → ∀ next : Session,
      next.stores.objects = run.2.stores.objects →
      ∃ index, ((Operation.get name).run target later next).1 = .ok (.index index) ∧
        index.description = description

/-- What an update did: nothing, where it is answered with an error; and otherwise it wrote the
metadata that it had read, with the new description, into the bucket that the metadata names. -/
inductive Updated (before : Stores) (name description : String) :
    Answered Reply → Stores → Prop
  | refused (error : ServiceError) : Updated before name description (.error error) before
  | written (index : Index) (bucket : Bucket) (stored : Time.Instant)
      (valid : Index.isValidName name) (holds : before.objects.index? name = some index)
      (found : before.objects.buckets.get? index.name = some bucket) :
      Updated before name description (.ok (.index { index with description := description }))
        { before with
          objects := before.objects.describe bucket index description stored }

variable {target : NotificationTarget} {circumstances : Circumstances} {store : ObjectStore}
  {name description : String}

theorem update_updated (target : NotificationTarget) (circumstances : Circumstances)
    (session : Session) (name description : String) :
    let run := (Operation.update name description).run target circumstances session
    Updated session.stores name description run.1 run.2.stores := by
  intro run
  have effect : Effect target circumstances session.stores (.update name description) run.1
      run.2.stores ((Operation.update name description).faults target circumstances session) :=
    effect_of_run target circumstances (.update name description) session
  generalize run.1 = answer, run.2.stores = after,
    (Operation.update name description).faults target circumstances session = faults at effect ⊢
  cases effect with
  | refused => exact .refused _
  | failed => exact .refused _
  | looked looks => cases looks
  | updated index bucket stored valid holds found =>
      exact .written index bucket stored valid holds found
  | noted _ only => cases only

theorem Updated.answered {before after : Stores} {answer : Answered Reply}
    (updated : Updated before name description answer after) :
    after.statuses = before.statuses ∧
      ((∃ error, answer = .error error) ∧ after = before ∨
        ∃ index, before.objects.index? name = some index ∧
          answer = .ok (.index { index with description := description }) ∧
          before.objects.SameBut index.name after.objects ∧
          after.objects.index? index.name = some { index with description := description }) := by
  cases updated with
  | refused error => exact ⟨rfl, Or.inl ⟨⟨error, rfl⟩, rfl⟩⟩
  | written index bucket stored valid holds found =>
      refine ⟨rfl, Or.inr ⟨index, holds, rfl, ?_, ?_⟩⟩
      · exact ObjectStore.sameBut_describe found description stored
      · exact ObjectStore.index?_describe _ _ _ stored (ObjectStore.index?_regular holds)

theorem keepsToItself_of_keepsOwn (own : Index.isValidName name → store.KeepsOwn name) :
    KeepsToItself target store name := by
  rintro circumstances session description rfl run
  have updated : Updated session.stores name description run.1 run.2.stores :=
    update_updated target circumstances session name description
  generalize run.1 = answer, run.2.stores = after at updated ⊢
  cases updated with
  | refused =>
      constructor
      · exact .refl _ _
      · rintro _ ⟨⟩
  | written index bucket stored valid holds found =>
      have named : index.name = name := by
        rcases own valid index holds with named | absent
        · exact named
        · rw [found] at absent
          cases absent
      subst named
      constructor
      · exact ObjectStore.sameBut_describe found description stored
      · intro _ _ later faultless next resumed
        refine ⟨{ index with description := description }, ?_, rfl⟩
        rw [get_run_iff faultless, resumed]
        constructor
        · exact valid
        · exact ObjectStore.index?_describe _ _ _ stored (ObjectStore.index?_regular holds)

-- The description that is asked for is another one than the old, so that a lookup can tell.
theorem keepsOwn_of_keepsToItself (kept : KeepsToItself target store name)
    (valid : Index.isValidName name) : store.KeepsOwn name := by
  intro index holds
  by_contra neither
  obtain ⟨misnamed, there⟩ := not_or.mp neither
  obtain ⟨bucket, held⟩ := Option.ne_none_iff_exists'.mp there
  let description := index.description ++ "."
  have longer : index.description ≠ description := by
    intro same
    have lengths := congrArg String.length same
    simp [description] at lengths
  let session : Session := .start ⟨store, .memory .empty⟩
  let stored := calm.clock session.lookedUp.clockReads
  have ran : (Operation.update name description).run target calm session =
      (.ok (.index { index with description := description }), session.lookedUp.performed
        (store.describe bucket index description stored)) :=
    Action.outcome_map (updateIndex_outcome calm_faultless description valid holds held)
  obtain ⟨_, found⟩ := kept calm session description rfl
  rw [ran] at found
  obtain ⟨shown, answered, told⟩ :=
    found _ rfl calm calm_faultless (.start ⟨_, .memory .empty⟩) rfl
  obtain ⟨_, unchanged⟩ := (get_run_iff calm_faultless target _ name shown).mp answered
  have read : (store.describe bucket index description stored).index? name = some index :=
    (ObjectStore.index?_replace_of_ne _ _ (Ne.symm misnamed)).trans holds
  obtain rfl : shown = index := Option.some.inj (unchanged.symm.trans read)
  exact longer told

theorem keepsToItself_iff (target : NotificationTarget) (store : ObjectStore) (name : String) :
    KeepsToItself target store name ↔ (Index.isValidName name → store.KeepsOwn name) :=
  ⟨keepsOwn_of_keepsToItself, keepsToItself_of_keepsOwn⟩

/-- What an update changes of any content whatsoever, and when it keeps to its own index. An error
has changed nothing. Otherwise what was read under the name that was asked for is found with the
new description under the name that it tells, and this metadata is all that is different. That is
the index that was asked for, in whatever circumstances, exactly where its bucket describes an index
of its name or one for which there is no bucket. -/
theorem update_keeps_iff (target : NotificationTarget) (store : ObjectStore) (name : String) :
    (∀ (circumstances : Circumstances) (session : Session) (description : String),
      session.stores.objects = store →
      let run := (Operation.update name description).run target circumstances session
      run.2.stores.statuses = session.stores.statuses ∧
      ((∃ error, run.1 = .error error) ∧ run.2.stores.objects = store ∨
        ∃ index, store.index? name = some index ∧
          run.1 = .ok (.index { index with description := description }) ∧
          store.SameBut index.name run.2.stores.objects ∧
          run.2.stores.objects.index? index.name =
            some { index with description := description })) ∧
    (KeepsToItself target store name ↔ (Index.isValidName name → store.KeepsOwn name)) := by
  constructor
  · rintro circumstances session description rfl run
    obtain ⟨statuses, refused | written⟩ :=
      (update_updated target circumstances session name description).answered
    · exact ⟨statuses, Or.inl ⟨refused.1, congrArg Stores.objects refused.2⟩⟩
    · exact ⟨statuses, Or.inr written⟩
  · exact keepsToItself_iff target store name

theorem shelved_update_keeps :
    (Index.isValidName "a" → shelved.objects.KeepsOwn "a") ∧
      KeepsToItself ⟨"q", "webhook", "", []⟩ shelved.objects "a" := by
  have own : Index.isValidName "a" → shelved.objects.KeepsOwn "a" := by
    intro _ index holds
    have described : shelved.objects.index? "a" = some ⟨"a", "first", Time.Instant.epoch⟩ :=
      ObjectStore.index?_newBucket _ _ _ _ Time.Instant.regular_epoch
    rw [described] at holds
    cases holds
    exact Or.inl rfl
  exact ⟨own, (update_keeps_iff _ _ _).2.mpr own⟩

def bucketOf (description : String) : Bucket :=
  newBucket ⟨"q", "webhook", "", []⟩ ⟨"b", description, Time.Instant.epoch⟩ Time.Instant.epoch

/-- Stores in which the metadata of one bucket names another one. -/
def crossed : Stores :=
  ⟨(ObjectStore.empty.replace "a" (bucketOf "stray")).replace "b" (bucketOf "own"), .memory .empty⟩

/-- An update of one index is answered, but what it has changed is another index. -/
theorem crossed_update_strays :
    let target : NotificationTarget := ⟨"q", "webhook", "", []⟩
    let stray : Index := ⟨"b", "stray", Time.Instant.epoch⟩
    let written : Index := ⟨"b", "new", Time.Instant.epoch⟩
    let run := (Operation.update "a" "new").run target calm (.start crossed)
    ¬KeepsToItself target crossed.objects "a" ∧ run.1 = .ok (.index written) ∧
      ((Operation.get "b").run target calm (.start crossed)).1 =
        .ok (.index ⟨"b", "own", Time.Instant.epoch⟩) ∧
      ((Operation.get "b").run target calm run.2).1 = .ok (.index written) ∧
      ((Operation.get "a").run target calm run.2).1 = .ok (.index stray) := by
  intro target stray written run
  have first : Index.isValidName "a" := by decide
  have second : Index.isValidName "b" := by decide
  have regular : stray.createdAt.Regular := Time.Instant.regular_epoch
  have held : crossed.objects.buckets.get? stray.name = some (bucketOf "own") :=
    SortedMap.get?_insert_self _ _ _
  have own : crossed.objects.index? "b" = some ⟨"b", "own", Time.Instant.epoch⟩ :=
    ObjectStore.index?_newBucket _ _ _ _ regular
  have holds : crossed.objects.index? "a" = some stray := by
    have other : "a" ≠ "b" := by decide
    have shelf : (ObjectStore.empty.replace "a" (bucketOf "stray")).index? "a" = some stray :=
      ObjectStore.index?_newBucket _ _ _ _ regular
    exact (ObjectStore.index?_replace_of_ne _ _ other).trans shelf
  let session : Session := .start crossed
  have here : session.stores.objects.index? "a" = some stray := holds
  have changed := updateIndex_outcome calm_faultless "new" first here held
  have ran : run = (.ok (.index written), _) := Action.outcome_map changed
  refine ⟨?_, by rw [ran], ?_, ?_, ?_⟩
  · intro kept
    rcases keepsOwn_of_keepsToItself kept first stray holds with named | absent
    · exact absurd named (by decide)
    · rw [held] at absent
      cases absent
  · rw [get_run_iff calm_faultless]
    exact ⟨second, own⟩
  · have found := ObjectStore.index?_describe crossed.objects (bucketOf "own") "new"
      (calm.clock (Session.start crossed).lookedUp.clockReads) regular
    rw [get_run_iff calm_faultless, ran]
    exact ⟨second, found⟩
  · rw [get_run_iff calm_faultless, ran]
    have other : "a" ≠ stray.name := by decide
    exact ⟨first, (ObjectStore.index?_replace_of_ne _ _ other).trans holds⟩

end Service
end Corpora
