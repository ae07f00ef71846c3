import Corpora.Proofs.Reconcile.Plan
import Corpora.Proofs.Service.Listing
import Corpora.Proofs.Service.Lookup
import Corpora.Reconcile.InProcess

/-!
Which tools a cycle over the listing of the service takes out of the registry. Where the buckets
cannot be listed nothing is changed. But the listing passes over each bucket whose metadata could
not be fetched, and what it does not show counts as gone, so that the tool of an index that is still
there is removed as well.
-/

namespace Corpora

namespace Service

/-- What reading the metadata of several buckets brings: of each in turn the index that it
describes, if it does, or the fault that hides it. -/
inductive Reading (store : ObjectStore) : List String → List Index → List Fault → Prop
  | done : Reading store [] [] []
  | bare {bucket : String} {rest : List String} {found : List Index} {faults : List Fault}
      (silent : store.index? bucket = none) (later : Reading store rest found faults) :
      Reading store (bucket :: rest) found faults
  | read {bucket : String} {rest : List String} {found : List Index} {faults : List Fault}
      (index : Index) (holds : store.index? bucket = some index)
      (later : Reading store rest found faults) :
      Reading store (bucket :: rest) (index :: found) faults
  | missed {bucket : String} {rest : List String} {found : List Index} {faults : List Fault}
      (why : Failure) (later : Reading store rest found faults) :
      Reading store (bucket :: rest) found (unread bucket why :: faults)

inductive Observation (store : ObjectStore) : Option (List IndexSummary) → List Fault → Prop
  | unlisted (why : Failure) : Observation store none [⟨.object .listBuckets, why⟩]
  | listed {found : List Index} {faults : List Fault}
      (reading : Reading store store.buckets.keys found faults) :
      Observation store
        (some ((stableSort (fun a b => decide (a.name < b.name)) found).map Index.summary)) faults

section Observing

variable {circumstances : Circumstances} {session : Session} {store : ObjectStore}
  {buckets : List String} {found : List Index} {faults : List Fault}

theorem Reading.of_unread (reading : Reading store buckets found faults) {fault : Fault}
    (met : fault ∈ faults) : ∃ bucket ∈ buckets, ∃ why, fault = unread bucket why := by
  induction reading with
  | done => cases met
  | bare _ _ ih =>
      obtain ⟨bucket, member, about⟩ := ih met
      exact ⟨bucket, List.mem_cons_of_mem _ member, about⟩
  | read _ _ _ ih =>
      obtain ⟨bucket, member, about⟩ := ih met
      exact ⟨bucket, List.mem_cons_of_mem _ member, about⟩
  | missed why _ ih =>
      rcases List.mem_cons.mp met with rfl | later
      · exact ⟨_, List.mem_cons_self, why, rfl⟩
      · obtain ⟨bucket, member, about⟩ := ih later
        exact ⟨bucket, List.mem_cons_of_mem _ member, about⟩

theorem Reading.unread_not_mem (reading : Reading store buckets found faults) {bucket : String}
    (outside : bucket ∉ buckets) (why : Failure) : unread bucket why ∉ faults := by
  intro met
  obtain ⟨other, member, reason, same⟩ := reading.of_unread met
  cases same
  exact outside member

theorem Reading.mem_iff (reading : Reading store buckets found faults) (distinct : buckets.Nodup)
    {index : Index} :
    index ∈ found ↔ ∃ bucket ∈ buckets, store.index? bucket = some index ∧
      ∀ why, unread bucket why ∉ faults := by
  induction reading with
  | done => simp
  | @bare bucket rest found faults silent later ih =>
      rw [ih (List.nodup_cons.mp distinct).2]
      simp [silent]
  | @read bucket rest found faults first holds later ih =>
      obtain ⟨fresh, distinct⟩ := List.nodup_cons.mp distinct
      have seen := later.unread_not_mem fresh
      simp [ih distinct, holds, seen, eq_comm]
  | @missed bucket rest found faults why later ih =>
      obtain ⟨fresh, distinct⟩ := List.nodup_cons.mp distinct
      rw [ih distinct]
      constructor
      · rintro ⟨other, member, holds, seen⟩
        refine ⟨other, List.mem_cons_of_mem _ member, holds, ?_⟩
        intro reason met
        rcases List.mem_cons.mp met with same | earlier
        · cases same
          exact fresh member
        · exact seen reason earlier
      · rintro ⟨other, member, holds, seen⟩
        rcases List.mem_cons.mp member with rfl | later
        · exact absurd List.mem_cons_self (seen why)
        · exact ⟨other, later, holds, fun reason met => seen reason (List.mem_cons_of_mem _ met)⟩

theorem readIndices_reading (buckets : List String) (session : Session) :
    (readIndices buckets).Ends circumstances session fun found after faults =>
      after.stores = session.stores ∧ Reading session.stores.objects buckets found faults := by
  induction buckets generalizing session with
  | nil => exact ⟨rfl, .done⟩
  | cons bucket rest ih =>
      apply Program.Ends.bind (readMetadata_learned bucket)
      rintro answer after faults ⟨kept, learned⟩
      have others := ih after
      rw [kept] at others
      cases learned with
      | failed why =>
          apply others.imp
          rintro found final more ⟨same, reading⟩
          exact ⟨same, .missed why reading⟩
      | truth =>
          cases holds : session.stores.objects.index? bucket with
          | none =>
              apply others.imp
              rintro found final more ⟨same, reading⟩
              exact ⟨same, .bare holds reading⟩
          | some index =>
              apply Program.Ends.bind others
              rintro found final more ⟨same, reading⟩
              rw [Program.ends_pure]
              simp only [List.nil_append, List.append_nil]
              exact ⟨same, .read index holds reading⟩

theorem observeIndices_observation (session : Session) :
    observeIndices.Ends circumstances session fun observed after faults =>
      after.stores = session.stores ∧ Observation session.stores.objects observed faults := by
  have listed : Action.Ends circumstances listSummaries session fun answer after faults =>
      after.stores = session.stores ∧
        Observation session.stores.objects answer.toOption faults := by
    apply Action.Ends.map
    apply Action.Ends.object
    · intro why after kept
      exact ⟨kept, .unlisted why⟩
    · rintro buckets after (⟨objects, ⟨rfl, rfl⟩, kept⟩ | ⟨⟨⟩, _⟩)
      apply Action.Ends.lift_bind (readIndices_reading _ after)
      rintro found final faults ⟨same, reading⟩
      rw [kept] at same reading
      rw [Action.ends_pure, List.append_nil]
      exact ⟨same, .listed reading⟩
  apply Program.Ends.bind listed
  rintro answer after faults ⟨kept, observation⟩
  rw [Program.ends_pure, List.append_nil]
  exact ⟨kept, observation⟩

/-- A name is told unless each bucket with an index of this name could not be read. -/
theorem Observation.names_iff {summaries : List IndexSummary}
    (observation : Observation store (some summaries) faults) (name : String) :
    (∃ summary ∈ summaries, summary.name = name) ↔
      ∃ bucket index, store.index? bucket = some index ∧ index.name = name ∧
        ∀ why, unread bucket why ∉ faults := by
  cases observation with
  | @listed found _ reading =>
      have present : ∀ index, index ∈ found ↔ ∃ bucket ∈ store.buckets.keys,
          store.index? bucket = some index ∧ ∀ why, unread bucket why ∉ faults :=
        fun index => reading.mem_iff store.buckets.keys_nodup
      simp only [List.mem_map, (stableSort_perm _ found).mem_iff, present]
      constructor
      · rintro ⟨_, ⟨index, ⟨bucket, _, holds, seen⟩, rfl⟩, named⟩
        exact ⟨bucket, index, holds, named, seen⟩
      · rintro ⟨bucket, index, holds, named, seen⟩
        have listed := ObjectStore.mem_keys_of_index holds
        exact ⟨index.summary, ⟨index, ⟨bucket, listed, holds, seen⟩, rfl⟩, named⟩

end Observing
end Service

namespace ReconcilePlan

theorem unobserved_iff (observed : List IndexSummary) (name : String) :
    (observedByName observed).get? name = none ↔
      (Index.isValidName name → ¬∃ summary ∈ observed, summary.name = name) := by
  rw [get?_observedByName]
  by_cases valid : Index.isValidName name
  · simp [valid]
  · simp [valid]

end ReconcilePlan

namespace ToolRegistry

variable {limit : Nat} {registry : ToolRegistry}

theorem contains_eq_false {name : String} :
    registry.contains name = false ↔ registry.get? name = none := by
  simp [contains, get?, SortedMap.contains]

theorem get?_kept {changes : List RegistryChange} {name : String}
    (stays : ∀ change ∈ changes, change.toolName = name → change.tool limit ≠ none)
    (there : registry.get? name ≠ none) :
    (changes.foldl (ToolRegistry.apply limit) registry).get? name ≠ none := by
  induction changes generalizing registry with
  | nil => exact there
  | cons first rest ih =>
      apply ih (fun change later => stays change (List.mem_cons_of_mem _ later))
      rw [get?_apply]
      by_cases same : name = first.toolName
      · rw [if_pos same]
        exact stays first List.mem_cons_self same.symm
      · rw [if_neg same]
        exact there

theorem reconcile_removes_iff {name : String}
    (registered : registry.contains (queryToolName name)) (observed : List IndexSummary) :
    (registry.reconcile limit observed).2.contains (queryToolName name) = false ↔
      registry.indices.contains name ∧
        (ReconcilePlan.observedByName observed).get? name = none := by
  have counted : registry.indices.contains name ↔ registry.indices.get? name ≠ none := by
    rw [SortedMap.contains, Option.isSome_iff_ne_none]
  rw [contains_eq_false, counted, ← ReconcilePlan.unregister_mem_changes]
  constructor
  · intro gone
    apply Classical.byContradiction
    intro stays
    refine get?_kept ?_ ?_ gone
    · intro change member same left
      cases change with
      | register summary => cases left
      | unregister other =>
          rw [queryToolName_injective same] at member
          exact stays member
    · intro missing
      rw [contains_eq_false.mpr missing] at registered
      cases registered
  · intro removed
    have unseen := (ReconcilePlan.unregister_mem_changes.mp removed).2
    apply get?_touched
    · intro change member same
      cases change with
      | register summary =>
          have seen := (ReconcilePlan.register_mem_changes.mp member).1
          rw [queryToolName_injective same, unseen] at seen
          cases seen
      | unregister other => rfl
    · exact Or.inr ⟨_, removed, rfl⟩

end ToolRegistry

namespace ReconcilerState

open Service (Circumstances Fault Observation Program Session unread)

variable {circumstances : Circumstances} {session : Session} {limit : Nat}

/-- What a cycle over the listing of the service comes to. -/
inductive Cycled (state : ReconcilerState) (limit : Nat) (timely : Bool) (store : ObjectStore) :
    CycleOutcome × ReconcilerState → List Fault → Prop
  | skipped (busy : state.running) : Cycled state limit timely store (.skipped, state) []
  | late {faults : List Fault} (late : timely = false) :
      Cycled state limit timely store (.pollFailed, state) faults
  | unlisted (why : Failure) :
      Cycled state limit timely store (.pollFailed, state) [⟨.object .listBuckets, why⟩]
  | applied {summaries : List IndexSummary} {faults : List Fault} (idle : state.running = false)
      (punctual : timely) (observation : Observation store (some summaries) faults) :
      Cycled state limit timely store
        (.applied (state.registry.reconcile limit summaries).1,
          { state with registry := (state.registry.reconcile limit summaries).2 }) faults

theorem serviceCycle_cycled (state : ReconcilerState) (limit : Nat) (timely : Bool)
    (session : Session) :
    (state.serviceCycle limit timely).Ends circumstances session fun ended after faults =>
      after.stores = session.stores ∧
        Cycled state limit timely session.stores.objects ended faults := by
  unfold serviceCycle
  cases busy : state.running with
  | true => exact ⟨rfl, .skipped busy⟩
  | false =>
      apply Program.Ends.bind (Service.observeIndices_observation session)
      rintro observed after faults ⟨kept, observation⟩
      have idle : ¬state.running = true := by simp [busy]
      rw [Program.ends_pure, List.append_nil, runCycle.eq_def, if_neg idle]
      constructor
      · exact kept
      · cases timely with
        | false => exact .late rfl
        | true =>
            cases observation with
            | unlisted why => exact .unlisted why
            | listed reading => exact .applied busy rfl (.listed reading)

section Ended

variable {state : ReconcilerState} {timely : Bool} {store : ObjectStore}
  {ended : CycleOutcome × ReconcilerState} {faults : List Fault}

theorem listBuckets_not_mem {summaries : List IndexSummary}
    (observation : Observation store (some summaries) faults) (why : Failure) :
    ⟨.object .listBuckets, why⟩ ∉ faults := by
  intro met
  cases observation with
  | listed reading =>
      obtain ⟨bucket, _, _, same⟩ := reading.of_unread met
      cases same

theorem Cycled.poll_failed (cycled : Cycled state limit timely store ended faults) {why : Failure}
    (met : ⟨.object .listBuckets, why⟩ ∈ faults) : ended.1 = .pollFailed := by
  cases cycled with
  | skipped => cases met
  | late => rfl
  | unlisted => rfl
  | applied _ _ observation => exact absurd met (listBuckets_not_mem observation why)

theorem Cycled.unchanged (cycled : Cycled state limit timely store ended faults)
    (other : ∀ report, ended.1 ≠ .applied report) : ended.2 = state := by
  cases cycled with
  | applied => exact absurd rfl (other _)
  | _ => rfl

theorem Cycled.applied_iff (cycled : Cycled state limit timely store ended faults) :
    (∃ report, ended.1 = .applied report) ↔
      state.running = false ∧ timely ∧ ∀ why, ⟨.object .listBuckets, why⟩ ∉ faults := by
  cases cycled with
  | skipped busy => simp [busy]
  | late late => simp [late]
  | unlisted why =>
      constructor
      · rintro ⟨report, ⟨⟩⟩
      · rintro ⟨_, _, listed⟩
        exact absurd List.mem_cons_self (listed why)
  | applied idle punctual observation =>
      exact ⟨fun _ => ⟨idle, punctual, listBuckets_not_mem observation⟩, fun _ => ⟨_, rfl⟩⟩

theorem Cycled.removes_iff (cycled : Cycled state limit timely store ended faults) {name : String}
    (registered : state.registry.contains (queryToolName name)) :
    ended.2.registry.contains (queryToolName name) = false ↔
      (∃ report, ended.1 = .applied report) ∧ state.registry.indices.contains name ∧
        (Index.isValidName name → ∀ bucket index, store.index? bucket = some index →
          index.name = name → ∃ why, unread bucket why ∈ faults) := by
  cases cycled with
  | applied _ _ observation =>
      rw [ToolRegistry.reconcile_removes_iff registered, ReconcilePlan.unobserved_iff,
        observation.names_iff]
      simp
  | _ => simp [registered]

end Ended

/-- What becomes of a registered query tool in a cycle over the listing of the service, whichever
calls fail. Where the buckets cannot be listed the poll fails, and only a cycle that is applied
changes anything. Such a cycle takes the tool of an index away exactly if its name is none that an
index can have, or each index of this name in the store was hidden by a failure to fetch its
metadata. -/
theorem tool_removed_iff (circumstances : Circumstances) (session : Session)
    (state : ReconcilerState) (limit : Nat) (timely : Bool) {name : String}
    (registered : state.registry.contains (queryToolName name)) :
    let cycle := state.serviceCycle limit timely
    let outcome := (cycle.run circumstances session).1.1
    let after := (cycle.run circumstances session).1.2
    let faults := cycle.faults circumstances session
    (cycle.run circumstances session).2.stores = session.stores ∧
    (∀ why, ⟨.object .listBuckets, why⟩ ∈ faults → outcome = .pollFailed) ∧
    ((∀ report, outcome ≠ .applied report) → after = state) ∧
    ((∃ report, outcome = .applied report) ↔
      state.running = false ∧ timely ∧ ∀ why, ⟨.object .listBuckets, why⟩ ∉ faults) ∧
    (after.registry.contains (queryToolName name) = false ↔
      (∃ report, outcome = .applied report) ∧ state.registry.indices.contains name ∧
        (Index.isValidName name → ∀ bucket index,
          session.stores.objects.index? bucket = some index → index.name = name →
            ∃ why, unread bucket why ∈ faults)) := by
  intro cycle outcome after faults
  have ends : cycle.Ends circumstances session fun ended after faults =>
      after.stores = session.stores ∧
        Cycled state limit timely session.stores.objects ended faults :=
    serviceCycle_cycled state limit timely session
  obtain ⟨kept, cycled⟩ := ends
  exact ⟨kept, fun why met => cycled.poll_failed met, cycled.unchanged, cycled.applied_iff,
    cycled.removes_iff registered⟩

def following : ReconcilerState :=
  ⟨false, ToolRegistry.empty.register (.query (QueryTool.new "a" "first" 5))⟩

def unlistable : Circumstances where
  objectFate _ call :=
    match call with
    | .listBuckets => .failed (.because "not now")
    | _ => .performed
  statusFate _ _ := .performed
  clock _ := Time.Instant.epoch
  ids _ := ""

theorem unlistable_tool_kept :
    following.registry.contains (queryToolName "a") ∧
      ((following.serviceCycle 5 true).run unlistable (.start Service.shelved)).1 =
        (.pollFailed, following) := by
  have registered : following.registry.contains (queryToolName "a") := by decide
  obtain ⟨_, failed, unchanged, _⟩ :=
    tool_removed_iff unlistable (.start Service.shelved) following 5 true registered
  have polled := failed (.because "not now") List.mem_cons_self
  refine ⟨registered, Prod.ext polled (unchanged ?_)⟩
  intro report applied
  rw [polled] at applied
  cases applied

/-- An index is there before and after a cycle that is applied, and its tool is gone. -/
theorem illegible_tool_removed :
    let ended := (following.serviceCycle 5 true).run Service.illegible (.start Service.shelved)
    following.registry.contains (queryToolName "a") ∧ Index.isValidName "a" ∧
      Service.shelved.objects.index? "a" = some ⟨"a", "first", Time.Instant.epoch⟩ ∧
      ended.2.stores = Service.shelved ∧
      ended.1.1 = .applied ⟨[], [], ["a"], 0⟩ ∧
      ended.1.2.registry.contains (queryToolName "a") = false := by
  intro ended
  have described : Service.shelved.objects.index? "a" = some ⟨"a", "first", Time.Instant.epoch⟩ :=
    ObjectStore.index?_newBucket _ _ _ _ Time.Instant.regular_epoch
  exact ⟨by decide, by decide, described, rfl, by decide, by decide⟩

end ReconcilerState
end Corpora
