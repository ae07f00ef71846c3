import Corpora.Proofs.Service.Armed
import Corpora.Proofs.Service.Atomicity
import Corpora.Proofs.Service.Lookup
import Mathlib.Data.List.Nodup
import Mathlib.Data.List.Pairwise

/-!
Listing and lookup on any content of the object store. A listing goes by the metadata of every
bucket, a lookup by the bucket of the name that is asked for, so an index that is kept in the bucket
of another name is listed under its own name and found under that of the bucket. The two agree on
what an index is exactly where each bucket that describes an index bears its name.
-/

namespace Corpora

/-- Every bucket that describes an index has a name that an index can have, and the index bears
it. -/
def ObjectStore.WellNamed (store : ObjectStore) : Prop :=
  ∀ name index, store.index? name = some index → Index.isValidName name ∧ index.name = name

namespace ObjectStore

variable {store : ObjectStore}

theorem mem_indices_iff {index : Index} :
    index ∈ store.indices ↔ ∃ name, store.index? name = some index := by
  constructor
  · exact mem_indices
  · rintro ⟨name, holds⟩
    exact List.mem_filterMap.mpr ⟨name, mem_keys_of_index holds, holds⟩

def Apart (store : ObjectStore) (left right : String) : Prop :=
  ∀ first, store.index? left = some first → ∀ second, store.index? right = some second →
    first.name ≠ second.name

instance : Std.Symm store.Apart where
  symm _ _ apart first leftHolds second rightHolds :=
    (apart second rightHolds first leftHolds).symm

-- A listing that shows each name once has it from a single bucket.
theorem bucket_unique (distinct : (store.indices.map Index.name).Nodup) {left right : String}
    {first second : Index} (leftHolds : store.index? left = some first)
    (rightHolds : store.index? right = some second) (same : first.name = second.name) :
    left = right := by
  have apart : store.buckets.keys.Pairwise store.Apart :=
    List.pairwise_filterMap.mp (List.pairwise_map.mp distinct)
  by_contra different
  have differ := apart.forall (mem_keys_of_index leftHolds) (mem_keys_of_index rightHolds) different
  exact differ first leftHolds second rightHolds same

theorem WellNamed.named (wellNamed : store.WellNamed) : store.Named := by
  intro name index holds
  exact (wellNamed name index holds).2

theorem WellNamed.distinct (wellNamed : store.WellNamed) :
    (store.indices.map Index.name).Nodup := by
  apply List.pairwise_map.mpr
  apply (indices_ascending wellNamed.named).imp
  intro left right order same
  rw [same] at order
  exact String.lt_irrefl _ order

theorem InOrder.wellNamed {target : NotificationTarget} (order : store.InOrder target) :
    store.WellNamed := by
  intro name index holds
  obtain ⟨bucket, held, _⟩ := Option.bind_eq_some_iff.mp holds
  exact ⟨(order name bucket held).valid, order.named name index holds⟩

end ObjectStore

namespace Service

variable {circumstances : Circumstances}

theorem get_run_iff (faultless : circumstances.Faultless) (target : NotificationTarget)
    (session : Session) (name : String) (index : Index) :
    ((Operation.get name).run target circumstances session).1 = .ok (.index index) ↔
      Index.isValidName name ∧ session.stores.objects.index? name = some index := by
  constructor
  · have ends : Action.Ends circumstances ((Operation.get name).action target) session
        fun answer _ _ => answer = .ok (.index index) →
          Index.isValidName name ∧ session.stores.objects.index? name = some index := by
      apply Action.Ends.map
      apply (requireIndex_ends name).imp
      rintro answer _ _ ⟨_, required⟩ told
      cases required with
      | found _ valid holds =>
          cases told
          exact ⟨valid, holds⟩
      | missing => cases told
      | unchecked => cases told
    exact ends
  · rintro ⟨valid, holds⟩
    exact congrArg Prod.fst (Action.outcome_map (requireIndex_outcome faultless valid holds))

section Listed

variable {store : ObjectStore} {listed : List Index}

theorem wellNamed_of_agreement (complete : ∀ bucket index, store.index? bucket = some index →
      index ∈ listed) (distinct : (store.indices.map Index.name).Nodup)
    (found : ∀ index ∈ listed, Index.isValidName index.name ∧
      store.index? index.name = some index) : store.WellNamed := by
  intro bucket index holds
  obtain ⟨valid, own⟩ := found index (complete bucket index holds)
  obtain rfl : bucket = index.name := ObjectStore.bucket_unique distinct holds own rfl
  exact ⟨valid, rfl⟩

end Listed

/-- What a listing and the lookups of single names show of any content whatsoever, and when they
agree: a listing shows each name once, and just those indices that are found under their names,
exactly where the buckets bear the names of their indices. -/
theorem listing_agrees_iff (faultless : circumstances.Faultless) (target : NotificationTarget)
    (session : Session) :
    let store := session.stores.objects
    let get := fun name => ((Operation.get name).run target circumstances session).1
    ∃ listed, (Operation.list.run target circumstances session).1 = .ok (.indices listed) ∧
      (∀ index, index ∈ listed ↔ ∃ bucket, store.index? bucket = some index) ∧
      (∀ name index, get name = .ok (.index index) ↔
        Index.isValidName name ∧ store.index? name = some index) ∧
      (((listed.map Index.name).Nodup ∧
          ∀ name index, get name = .ok (.index index) ↔ index ∈ listed ∧ index.name = name) ↔
        store.WellNamed) := by
  intro store get
  have reordered := stableSort_perm (fun a b : Index => decide (a.name < b.name)) store.indices
  have shown : ∀ index, index ∈ stableSort (fun a b => decide (a.name < b.name)) store.indices ↔
      ∃ bucket, store.index? bucket = some index := by
    intro index
    rw [reordered.mem_iff, ObjectStore.mem_indices_iff]
  have found := get_run_iff faultless target session
  refine ⟨_, list_run faultless session, shown, found, ?_⟩
  rw [(reordered.map Index.name).nodup_iff]
  constructor
  · rintro ⟨distinct, agree⟩
    apply wellNamed_of_agreement (fun bucket index holds => (shown index).mpr ⟨bucket, holds⟩)
      distinct
    intro index member
    exact (found index.name index).mp ((agree index.name index).mpr ⟨member, rfl⟩)
  · intro wellNamed
    constructor
    · exact wellNamed.distinct
    · intro name index
      rw [found, shown]
      constructor
      · rintro ⟨_, holds⟩
        exact ⟨⟨name, holds⟩, (wellNamed name index holds).2⟩
      · rintro ⟨⟨bucket, holds⟩, rfl⟩
        obtain ⟨valid, named⟩ := wellNamed bucket index holds
        rw [named]
        exact ⟨valid, holds⟩

/-- Requests themselves never lead to a bucket whose metadata tells another name. -/
theorem play_wellNamed (regular : ∀ number, (circumstances.clock number).Regular)
    (target : NotificationTarget) (statuses : StatusBackend) (operations : List Operation) :
    (play target circumstances operations
      (.start ⟨.empty, statuses⟩)).2.stores.objects.WellNamed := by
  have order : (play target circumstances operations
      (.start ⟨.empty, statuses⟩)).2.stores.objects.InOrder target := by
    refine play_invariant (fun stores => stores.objects.InOrder target) ?_ operations _ ?_
    · intro operation session
      exact (effect_of_run target circumstances operation session).inOrder regular
    · intro name bucket held
      cases held
  exact order.wellNamed

theorem calm_listing_agrees :
    calm.Faultless ∧ ∃ listed,
      (Operation.list.run ⟨"q", "webhook", "", []⟩ calm (.start calmStores)).1 =
        .ok (.indices listed) ∧ (listed.map Index.name).Nodup := by
  obtain ⟨listed, shown, _, _, agree⟩ :=
    listing_agrees_iff calm_faultless ⟨"q", "webhook", "", []⟩ (.start calmStores)
  have wellNamed := play_wellNamed calm_regular ⟨"q", "webhook", "", []⟩ (.memory .empty)
    [.create "a" "first"]
  exact ⟨calm_faultless, listed, shown, (agree.mpr wellNamed).1⟩

def misplaced : Stores :=
  ⟨ObjectStore.empty.replace "b" (newBucket ⟨"q", "webhook", "", []⟩
    ⟨"a", "first", Time.Instant.epoch⟩ Time.Instant.epoch), .memory .empty⟩

/-- An index is listed although no lookup finds it. -/
theorem misplaced_index_listed :
    calm.Faultless ∧
      (Operation.list.run ⟨"q", "webhook", "", []⟩ calm (.start misplaced)).1 =
        .ok (.indices [⟨"a", "first", Time.Instant.epoch⟩]) ∧
      (Operation.run ⟨"q", "webhook", "", []⟩ calm (.get "a") (.start misplaced)).1 =
        .error indexMissing := by
  have described : misplaced.objects.index? "b" = some ⟨"a", "first", Time.Instant.epoch⟩ :=
    ObjectStore.index?_newBucket _ _ _ _ Time.Instant.regular_epoch
  have single : misplaced.objects.indices = [⟨"a", "first", Time.Instant.epoch⟩] := by
    have keys : misplaced.objects.buckets.keys = ["b"] := rfl
    rw [ObjectStore.indices, keys, List.filterMap_cons, described, List.filterMap_nil]
  refine ⟨calm_faultless, ?_, ?_⟩
  · rw [list_run calm_faultless]
    simp only [Session.start, single]
    rfl
  · exact get_run_missing calm_faultless rfl

end Service
end Corpora
