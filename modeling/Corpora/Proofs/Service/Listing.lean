import Corpora.Proofs.Order.StableSort
import Corpora.Proofs.Service.Effect

/-!
The list of indices. Where each index is kept under its own name the buckets already give the
indices in order, and sorting them changes nothing, however many of them could be read.
-/

namespace Corpora

def ObjectStore.Named (store : ObjectStore) : Prop :=
  ∀ name index, store.index? name = some index → index.name = name

namespace ObjectStore

variable {store : ObjectStore}

theorem indices_ascending (named : store.Named) :
    store.indices.Pairwise fun left right => left.name < right.name := by
  apply (SortedMap.keys_ascend store.buckets).filterMap _
  intro left right order first held second found
  rw [named left first held, named right second found]
  exact order

theorem mem_indices {index : Index} (member : index ∈ store.indices) :
    ∃ name, store.index? name = some index := by
  rcases List.mem_filterMap.mp member with ⟨name, _, held⟩
  exact ⟨name, held⟩

theorem mem_keys_of_index {name : String} {index : Index} (holds : store.index? name = some index) :
    name ∈ store.buckets.keys := by
  obtain ⟨bucket, held, _⟩ := Option.bind_eq_some_iff.mp holds
  rw [SortedMap.mem_keys, SortedMap.contains, held]
  rfl

theorem sorted_of_sublist (named : store.Named) {found : List Index}
    (fewer : found.Sublist store.indices) :
    stableSort (fun a b => decide (a.name < b.name)) found = found := by
  apply stableSort_of_ascending
  apply ((indices_ascending named).sublist fewer).imp
  intro left right order
  exact decide_eq_false (String.lt_asymm order)

end ObjectStore

namespace Service

variable {circumstances : Circumstances} {session : Session}

theorem listIndices_ends (named : session.stores.objects.Named) :
    Action.Ends circumstances listIndices session fun answer _ _ =>
      ∀ indices, answer = .ok indices → indices.Sublist session.stores.objects.indices := by
  apply Action.Ends.object
  · intro why after kept indices told
    cases told
  rintro buckets listed (⟨objects, ⟨rfl, rfl⟩, kept⟩ | ⟨denied, _⟩)
  · apply Action.Ends.lift_bind (readIndices_ends _)
    rintro found after faults ⟨unchanged, fewer⟩
    rw [kept] at fewer
    rw [Action.ends_pure, ObjectStore.sorted_of_sublist named fewer]
    rintro indices told
    cases told
    exact fewer
  · cases denied

end Service
end Corpora
