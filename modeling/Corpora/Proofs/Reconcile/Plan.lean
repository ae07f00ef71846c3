import Corpora.Proofs.Order.Overwriting
import Corpora.Proofs.SortedMap
import Corpora.Reconcile.Cycle

/-!
What the changes of a plan come to. A registry that has exactly the query tools of an earlier
observation, and is otherwise as it was at the start, has after the changes exactly the query tools
of the new observation. Nothing of the earlier one is left.
-/

namespace Corpora

theorem queryToolIndex?_iff {toolName index : String} :
    queryToolIndex? toolName = some index ↔ toolName = queryToolName index := by
  unfold queryToolIndex? queryToolName
  rw [Option.map_eq_some_iff]
  constructor
  · rintro ⟨behind, stripped, rfl⟩
    have whole := Text.stripStart?_eq_some.mp stripped
    rw [← String.ofList_toList (s := toolName), whole, String.ofList_append, String.ofList_toList]
  · rintro rfl
    refine ⟨index.toList, Text.stripStart?_eq_some.mpr ?_, String.ofList_toList⟩
    rw [String.toList_append]

theorem queryToolIndex?_name (index : String) :
    queryToolIndex? (queryToolName index) = some index :=
  queryToolIndex?_iff.mpr rfl

theorem queryToolName_injective {left right : String}
    (same : queryToolName left = queryToolName right) : left = right := by
  have indices := queryToolIndex?_name left
  rw [same, queryToolIndex?_name] at indices
  exact (Option.some.inj indices).symm

theorem Tool.description_query (index description : String) (limit : Nat) :
    (Tool.query (QueryTool.new index description limit)).description =
      queryToolDescription index description := by
  rw [Tool.description, QueryTool.new]

namespace ReconcilePlan

theorem get?_foldl_observed (observed : List IndexSummary) (seen : SortedMap String IndexSummary)
    (name : String) :
    (observed.foldl (fun seen summary =>
      if Index.isValidName summary.name && !seen.contains summary.name then
        seen.insert summary.name summary
      else seen) seen).get? name =
      (seen.get? name).or
        (if Index.isValidName name then observed.find? (fun summary => summary.name == name)
          else none) := by
  induction observed generalizing seen with
  | nil => simp
  | cons first rest ih =>
      rw [List.foldl_cons, ih]
      by_cases same : first.name = name
      · subst same
        rw [List.find?_cons_of_pos (by simp)]
        cases held : seen.get? first.name with
        | some earlier => simp [SortedMap.contains, held]
        | none =>
            by_cases valid : Index.isValidName first.name <;>
              simp [SortedMap.contains, held, valid]
      · rw [List.find?_cons_of_neg (by simpa using same)]
        congr 1
        split
        · exact SortedMap.get?_insert_of_ne _ _ (Ne.symm same)
        · rfl

/-- Of several entries of a name the first one is taken, and only if the name is valid. -/
theorem get?_observedByName (observed : List IndexSummary) (name : String) :
    (observedByName observed).get? name =
      if Index.isValidName name then observed.find? (fun summary => summary.name == name)
        else none :=
  get?_foldl_observed observed ∅ name

theorem name_of_observed {observed : List IndexSummary} {name : String} {summary : IndexSummary}
    (seen : (observedByName observed).get? name = some summary) : summary.name = name := by
  rw [get?_observedByName] at seen
  split at seen
  · simpa using List.find?_some seen
  · cases seen

theorem mem_values_iff {observed : List IndexSummary} {summary : IndexSummary} :
    summary ∈ (observedByName observed).values ↔
      (observedByName observed).get? summary.name = some summary := by
  rw [SortedMap.mem_values]
  constructor
  · rintro ⟨name, seen⟩
    rw [name_of_observed seen]
    exact seen
  · intro seen
    exact ⟨summary.name, seen⟩

theorem register_mem_changes {observed : List IndexSummary} {registered : SortedMap String String}
    {summary : IndexSummary} :
    .register summary ∈ (ReconcilePlan.of observed registered).changes ↔
      (observedByName observed).get? summary.name = some summary ∧
        registered.get? summary.name ≠
          some (queryToolDescription summary.name summary.description) := by
  simp only [changes, of, List.mem_append, List.mem_map, List.mem_filter, mem_values_iff,
    RegistryChange.register.injEq, exists_eq_right, reduceCtorEq, and_false, exists_false, or_false,
    ← and_or_left, SortedMap.contains]
  refine and_congr_right fun _ => ?_
  cases registered.get? summary.name <;> simp

theorem unregister_mem_changes {observed : List IndexSummary}
    {registered : SortedMap String String} {name : String} :
    .unregister name ∈ (ReconcilePlan.of observed registered).changes ↔
      registered.get? name ≠ none ∧ (observedByName observed).get? name = none := by
  simp only [changes, of, List.mem_append, List.mem_map, List.mem_filter, reduceCtorEq, and_false,
    exists_false, false_or, RegistryChange.unregister.injEq, exists_eq_right, SortedMap.mem_keys,
    SortedMap.contains]
  simp [Option.isSome_iff_ne_none]

end ReconcilePlan

namespace RegistryChange

def toolName : RegistryChange → String
  | register summary => queryToolName summary.name
  | unregister index => queryToolName index

def tool (limit : Nat) : RegistryChange → Option Tool
  | register summary => some (.query (QueryTool.new summary.name summary.description limit))
  | unregister _ => none

end RegistryChange

namespace ToolRegistry

variable {limit : Nat} {registry : ToolRegistry}

theorem get?_apply (change : RegistryChange) (name : String) :
    (registry.apply limit change).get? name =
      if name = change.toolName then change.tool limit else registry.get? name := by
  cases change with
  | register summary => exact SortedMap.get?_insert _ _ _ _
  | unregister index => exact SortedMap.get?_erase _ _ _

theorem get?_untouched {changes : List RegistryChange} {name : String}
    (apart : ∀ change ∈ changes, change.toolName ≠ name) :
    (changes.foldl (ToolRegistry.apply limit) registry).get? name = registry.get? name :=
  held_foldl_untouched (fun _ => get?_apply) apart registry

theorem get?_touched {changes : List RegistryChange} {name : String} {result : Option Tool}
    (agree : ∀ change ∈ changes, change.toolName = name → change.tool limit = result)
    (reached : registry.get? name = result ∨ ∃ change ∈ changes, change.toolName = name) :
    (changes.foldl (ToolRegistry.apply limit) registry).get? name = result :=
  held_foldl_touched (fun _ => get?_apply) agree reached

/-- A registry without query tools, and without tools that only bear the name of one. -/
def Plain (registry : ToolRegistry) : Prop :=
  ∀ name tool, registry.get? name = some tool →
    queryToolIndex? name = none ∧ queryToolIndex? tool.name = none

/-- What a registry should hold under a name after an observation: the query tool of the first
entry of a valid index name, and what was there at the start under every other name. -/
def desired (start : ToolRegistry) (limit : Nat) (observed : List IndexSummary) (name : String) :
    Option Tool :=
  match queryToolIndex? name with
  | none => start.get? name
  | some index =>
      if Index.isValidName index then
        (observed.find? fun summary => summary.name == index).map fun first =>
          .query (QueryTool.new index first.description limit)
      else none

/-- The registry holds what it should after an observation. -/
def Settled (start : ToolRegistry) (limit : Nat) (observed : List IndexSummary)
    (registry : ToolRegistry) : Prop :=
  ∀ name, registry.get? name = start.desired limit observed name

theorem Settled.start (plain : registry.Plain) : registry.Settled limit [] registry := by
  intro name
  unfold desired
  cases about : queryToolIndex? name with
  | none => rfl
  | some index =>
      simp only [List.find?_nil, Option.map_none, ite_self]
      rw [Option.eq_none_iff_forall_not_mem]
      intro tool found
      rw [(plain name tool found).1] at about
      cases about

variable {start : ToolRegistry} {observed earlier : List IndexSummary}

theorem desired_query (start : ToolRegistry) (limit : Nat) (observed : List IndexSummary)
    (index : String) :
    start.desired limit observed (queryToolName index) =
      ((ReconcilePlan.observedByName observed).get? index).map fun first =>
        .query (QueryTool.new index first.description limit) := by
  rw [desired, queryToolIndex?_name, ReconcilePlan.get?_observedByName]
  simp only
  split <;> rfl

namespace Settled

theorem unique (settled : start.Settled limit observed registry) {other : ToolRegistry}
    (settledOther : start.Settled limit observed other) : registry = other := by
  have tools : registry.tools = other.tools := SortedMap.ext_get? fun name =>
    (settled name).trans (settledOther name).symm
  cases registry
  cases other
  congr

theorem index_same (settled : start.Settled limit observed registry) (plain : start.Plain)
    {name : String} {tool : Tool} (found : registry.get? name = some tool) :
    queryToolIndex? tool.name = queryToolIndex? name := by
  rw [settled name] at found
  cases about : queryToolIndex? name with
  | none =>
      simp only [desired, about] at found
      exact (plain name tool found).2
  | some index =>
      obtain rfl := queryToolIndex?_iff.mp about
      rw [desired_query] at found
      rcases Option.map_eq_some_iff.mp found with ⟨first, _, rfl⟩
      exact queryToolIndex?_name index

theorem get?_indices (settled : start.Settled limit observed registry) (plain : start.Plain)
    (index : String) :
    registry.indices.get? index = (registry.get? (queryToolName index)).map Tool.description := by
  have listed : ∀ index description,
      (index, description) ∈ registry.list.filterMap (fun tool =>
        (queryToolIndex? tool.name).map fun index => (index, tool.description)) ↔
      (registry.get? (queryToolName index)).map Tool.description = some description := by
    intro index description
    simp only [List.mem_filterMap, list, SortedMap.mem_values, Option.map_eq_some_iff,
      Prod.mk.injEq]
    constructor
    · rintro ⟨tool, ⟨name, found⟩, _, about, rfl, rfl⟩
      rw [settled.index_same plain found] at about
      obtain rfl := queryToolIndex?_iff.mp about
      exact ⟨tool, found, rfl⟩
    · rintro ⟨tool, found, rfl⟩
      refine ⟨tool, ⟨_, found⟩, index, ?_, rfl, rfl⟩
      rw [settled.index_same plain found, queryToolIndex?_name]
  ext description
  rw [indices, SortedMap.get?_ofList, listed]
  intro key left right first second
  exact Option.some.inj (((listed key left).mp first).symm.trans ((listed key right).mp second))

-- A query tool is determined by its index and by what it says of itself.
theorem tool_of_description (settled : start.Settled limit observed registry) {index : String}
    {description : String} {tool : Tool}
    (found : registry.get? (queryToolName index) = some tool)
    (tells : tool.description = queryToolDescription index description) :
    tool = .query (QueryTool.new index description limit) := by
  rw [settled, desired_query] at found
  rcases Option.map_eq_some_iff.mp found with ⟨first, _, rfl⟩
  rw [Tool.description_query] at tells
  rw [QueryTool.new, QueryTool.new, tells]

theorem reconcile_seen (settled : start.Settled limit earlier registry) (plain : start.Plain)
    {index : String} {first : IndexSummary}
    (seen : (ReconcilePlan.observedByName observed).get? index = some first) :
    ((ReconcilePlan.of observed registry.indices).changes.foldl (ToolRegistry.apply limit)
      registry).get? (queryToolName index) =
        some (.query (QueryTool.new index first.description limit)) := by
  obtain rfl := ReconcilePlan.name_of_observed seen
  by_cases told : registry.indices.get? first.name =
      some (queryToolDescription first.name first.description)
  · -- The tool says what it should, and no change is about it.
    rw [get?_untouched]
    · rw [settled.get?_indices plain] at told
      rcases Option.map_eq_some_iff.mp told with ⟨tool, found, tells⟩
      rw [found, settled.tool_of_description found tells]
    · intro change member same
      cases change with
      | register summary =>
          rcases ReconcilePlan.register_mem_changes.mp member with ⟨listed, untold⟩
          rw [queryToolName_injective same, seen] at listed
          cases listed
          exact untold told
      | unregister other =>
          rcases ReconcilePlan.unregister_mem_changes.mp member with ⟨_, unseen⟩
          rw [queryToolName_injective same, seen] at unseen
          cases unseen
  · apply get?_touched
    · intro change member same
      cases change with
      | register summary =>
          rcases ReconcilePlan.register_mem_changes.mp member with ⟨listed, _⟩
          rw [queryToolName_injective same, seen] at listed
          cases listed
          rfl
      | unregister other =>
          rcases ReconcilePlan.unregister_mem_changes.mp member with ⟨_, unseen⟩
          rw [queryToolName_injective same, seen] at unseen
          cases unseen
    · exact Or.inr ⟨_, ReconcilePlan.register_mem_changes.mpr ⟨seen, told⟩, rfl⟩

theorem reconcile_unseen (settled : start.Settled limit earlier registry) (plain : start.Plain)
    {index : String} (unseen : (ReconcilePlan.observedByName observed).get? index = none) :
    ((ReconcilePlan.of observed registry.indices).changes.foldl (ToolRegistry.apply limit)
      registry).get? (queryToolName index) = none := by
  apply get?_touched
  · intro change member same
    cases change with
    | register summary =>
        rcases ReconcilePlan.register_mem_changes.mp member with ⟨listed, _⟩
        rw [queryToolName_injective same, unseen] at listed
        cases listed
    | unregister other => rfl
  · cases found : registry.get? (queryToolName index) with
    | none => exact Or.inl rfl
    | some tool =>
        refine Or.inr ⟨.unregister index, ?_, rfl⟩
        refine ReconcilePlan.unregister_mem_changes.mpr ⟨?_, unseen⟩
        rw [settled.get?_indices plain, found]
        exact Option.some_ne_none _

/-- The changes of a plan lead from any settled registry to what the observation asks for. -/
theorem reconcile (settled : start.Settled limit earlier registry) (plain : start.Plain)
    (observed : List IndexSummary) :
    start.Settled limit observed
      ((ReconcilePlan.of observed registry.indices).changes.foldl (ToolRegistry.apply limit)
        registry) := by
  intro name
  cases about : queryToolIndex? name with
  | none =>
      have apart : ∀ change ∈ (ReconcilePlan.of observed registry.indices).changes,
          change.toolName ≠ name := by
        rintro change _ rfl
        cases change with
        | register summary => cases (queryToolIndex?_name _).symm.trans about
        | unregister other => cases (queryToolIndex?_name _).symm.trans about
      rw [get?_untouched apart, settled name, desired, desired, about]
  | some index =>
      obtain rfl := queryToolIndex?_iff.mp about
      rw [desired_query]
      cases seen : (ReconcilePlan.observedByName observed).get? index with
      | some first => exact settled.reconcile_seen plain seen
      | none => exact settled.reconcile_unseen plain seen

end Settled
end ToolRegistry
end Corpora
