import Corpora.Proofs.Reconcile.Plan

/-!
The registry in the middle of a cycle. The changes of a plan are made one at a time, and tools are
called between any two of them. A change either leaves the new tool of an index that was observed or
takes away the tool of one that was not, so at no point an index lacks a tool that it had and should
keep, and at no point there is a tool that is neither old nor wanted.
-/

namespace Corpora

def Tool.BoundTo (index : String) : Tool → Prop
  | query tool => tool.index = index
  | echo _ => False

/-- The changes that a cycle makes to a registry. A poll that failed or took too long has none. -/
def ToolRegistry.changesFor (registry : ToolRegistry) :
    (polled : Option (List IndexSummary)) → List RegistryChange
  | none => []
  | some observed => (ReconcilePlan.of observed registry.indices).changes

def ToolRegistry.partway (registry : ToolRegistry) (limit : Nat)
    (polled : Option (List IndexSummary)) (count : Nat) : ToolRegistry :=
  ((registry.changesFor polled).take count).foldl (ToolRegistry.apply limit) registry

/-- What is so of a registry in the middle of a cycle, beside the registry before it. -/
structure Continued (limit : Nat) (observed : List IndexSummary) (before during : ToolRegistry) :
    Prop where
  /-- The tool of an index that is observed again stays or is replaced by the new one. -/
  served : ∀ index tool first, before.get? (queryToolName index) = some tool →
    Index.isValidName index = true →
    (observed.find? fun summary => summary.name == index) = some first →
      ∃ serving, during.get? (queryToolName index) = some serving ∧
        (serving = tool ∨
          serving = .query (QueryTool.new index first.description limit) ∧
            serving.description = queryToolDescription index first.description)
  /-- There is no tool for a name that had none and is not observed as the name of an index. -/
  absent : ∀ index, before.get? (queryToolName index) = none →
    (Index.isValidName index = true → ∀ summary ∈ observed, summary.name ≠ index) →
      during.get? (queryToolName index) = none
  /-- A tool whose name does not start as those of query tools do is left alone. -/
  untouched : ∀ name, ¬ queryToolStart.toList <+: name.toList → during.get? name = before.get? name
  /-- What bears the name of a query tool is bound to its index, if that was so before. -/
  bound : ∀ index, (∀ tool, before.get? (queryToolName index) = some tool → tool.BoundTo index) →
    ∀ tool, during.get? (queryToolName index) = some tool → tool.BoundTo index

theorem partway_unpolled (registry : ToolRegistry) (limit count : Nat) :
    registry.partway limit none count = registry := by
  rw [ToolRegistry.partway, ToolRegistry.changesFor, List.take_nil, List.foldl_nil]

def CycleStage.steps (limit : Nat) (polled : Option (List IndexSummary)) :
    (count : Nat) → CycleStage × ReconcilerState → CycleStage × ReconcilerState
  | 0, run => run
  | count + 1, (stage, state) => steps limit polled count (stage.step limit polled state)

section Changes

variable {limit : Nat} {registry : ToolRegistry} {observed : List IndexSummary}

/-- What the first changes of a plan can have left under the name of a query tool, beside what was
there before. -/
inductive Left (limit : Nat) (observed : List IndexSummary) (index : String)
    (before : Option Tool) : Option Tool → Prop
  | same : Left limit observed index before before
  | renewed {first : IndexSummary}
      (seen : (ReconcilePlan.observedByName observed).get? index = some first) :
      Left limit observed index before (some (.query (QueryTool.new index first.description limit)))
  | removed (unseen : (ReconcilePlan.observedByName observed).get? index = none) :
      Left limit observed index before none

theorem partway_left (registry : ToolRegistry) (limit : Nat) (observed : List IndexSummary)
    (count : Nat) (index : String) :
    Left limit observed index (registry.get? (queryToolName index))
      ((registry.partway limit (some observed) count).get? (queryToolName index)) := by
  rcases held_foldl_cases (fun current => @ToolRegistry.get?_apply limit current)
      ((registry.changesFor (some observed)).take count) registry (queryToolName index) with
    kept | ⟨change, made, named, left⟩
  · rw [ToolRegistry.partway, kept]
    exact .same
  · have planned := List.mem_of_mem_take made
    rw [ToolRegistry.partway, left]
    cases change with
    | register summary =>
        obtain ⟨seen, _⟩ := ReconcilePlan.register_mem_changes.mp planned
        obtain rfl := queryToolName_injective named
        exact .renewed seen
    | unregister other =>
        obtain ⟨_, unseen⟩ := ReconcilePlan.unregister_mem_changes.mp planned
        obtain rfl := queryToolName_injective named
        exact .removed unseen

theorem partway_untouched (registry : ToolRegistry) (limit : Nat) (observed : List IndexSummary)
    (count : Nat) {name : String} (other : ¬ queryToolStart.toList <+: name.toList) :
    (registry.partway limit (some observed) count).get? name = registry.get? name := by
  refine ToolRegistry.get?_untouched fun change _ named => other ?_
  subst named
  cases change <;> simp [RegistryChange.toolName, queryToolName]

theorem observedByName_eq_some {index : String} {first : IndexSummary}
    (valid : Index.isValidName index = true)
    (found : (observed.find? fun summary => summary.name == index) = some first) :
    (ReconcilePlan.observedByName observed).get? index = some first := by
  rw [ReconcilePlan.get?_observedByName, if_pos valid, found]

theorem observedByName_eq_none {index : String}
    (unnamed : Index.isValidName index = true → ∀ summary ∈ observed, summary.name ≠ index) :
    (ReconcilePlan.observedByName observed).get? index = none := by
  rw [ReconcilePlan.get?_observedByName, ite_eq_right_iff]
  intro valid
  rw [List.find?_eq_none]
  intro summary member same
  exact unnamed valid summary member (beq_iff_eq.mp same)

theorem Continued.refl (registry : ToolRegistry) (limit : Nat) (observed : List IndexSummary) :
    Continued limit observed registry registry where
  served _ tool _ there _ _ := ⟨tool, there, Or.inl rfl⟩
  absent _ gone _ := gone
  untouched _ _ := rfl
  bound _ bound := bound

namespace Left

variable {index : String} {tool : Tool} {first : IndexSummary} {before after : Option Tool}

theorem served (left : Left limit observed index (some tool) after)
    (seen : (ReconcilePlan.observedByName observed).get? index = some first) :
    ∃ serving, after = some serving ∧ (serving = tool ∨
      serving = .query (QueryTool.new index first.description limit) ∧
        serving.description = queryToolDescription index first.description) := by
  cases left with
  | same => exact ⟨tool, rfl, Or.inl rfl⟩
  | renewed again =>
      obtain rfl := Option.some.inj (seen.symm.trans again)
      exact ⟨_, rfl, Or.inr ⟨rfl, Tool.description_query _ _ _⟩⟩
  | removed unseen =>
      rw [seen] at unseen
      cases unseen

theorem absent (left : Left limit observed index none after)
    (unseen : (ReconcilePlan.observedByName observed).get? index = none) : after = none := by
  cases left with
  | same => rfl
  | renewed seen =>
      rw [unseen] at seen
      cases seen
  | removed => rfl

theorem bound (left : Left limit observed index before (some tool))
    (bound : ∀ tool, before = some tool → tool.BoundTo index) : tool.BoundTo index := by
  cases left with
  | same => exact bound tool rfl
  | renewed => exact rfl

end Left

theorem partway_continued (registry : ToolRegistry) (limit : Nat) (observed : List IndexSummary)
    (count : Nat) :
    Continued limit observed registry (registry.partway limit (some observed) count) where
  served index tool first there valid found := by
    have left := partway_left registry limit observed count index
    rw [there] at left
    exact left.served (observedByName_eq_some valid found)
  absent index gone unnamed := by
    have left := partway_left registry limit observed count index
    rw [gone] at left
    exact left.absent (observedByName_eq_none unnamed)
  untouched name other := partway_untouched registry limit observed count other
  bound index bound tool there := by
    have left := partway_left registry limit observed count index
    rw [there] at left
    exact left.bound bound

end Changes

section Steps

variable {limit : Nat} {polled : Option (List IndexSummary)} {plan : ReconcilePlan}

theorem steps_behind (count : Nat) {stage : CycleStage} (state : ReconcilerState)
    (behind : (∃ outcome, stage = .releasing outcome) ∨ ∃ outcome, stage = .finished outcome) :
    (CycleStage.steps limit polled count (stage, state)).2.registry = state.registry := by
  induction count generalizing stage state with
  | zero => rfl
  | succ count ih =>
      rcases behind with ⟨outcome, rfl⟩ | ⟨outcome, rfl⟩
      · exact ih { state with running := false } (Or.inr ⟨outcome, rfl⟩)
      · exact ih state (Or.inr ⟨outcome, rfl⟩)

theorem steps_applying (count : Nat) (todo : List RegistryChange) (state : ReconcilerState) :
    (CycleStage.steps limit polled count (.applying plan todo, state)).2.registry =
      (todo.take count).foldl (ToolRegistry.apply limit) state.registry := by
  induction count generalizing todo state with
  | zero => rfl
  | succ count ih =>
      cases todo with
      | nil => exact steps_behind count state (Or.inl ⟨_, rfl⟩)
      | cons change todo =>
          exact ih todo { state with registry := state.registry.apply limit change }

theorem steps_partway (registry : ToolRegistry) (limit : Nat) (polled : Option (List IndexSummary))
    (count : Nat) :
    (CycleStage.steps limit polled count (.waiting, ⟨false, registry⟩)).2.registry =
      registry.partway limit polled (count - 3) := by
  match count with
  | 0 => rfl
  | 1 => rfl
  | 2 => cases polled <;> rfl
  | count + 3 =>
      cases polled with
      | none =>
          rw [partway_unpolled]
          exact steps_behind (count + 1) ⟨true, registry⟩ (Or.inl ⟨.pollFailed, rfl⟩)
      | some observed => exact steps_applying count _ ⟨true, registry⟩

end Steps

/-- However far a cycle has got with its changes, from whatever registry and after whatever poll,
every index that had a tool and is observed again is served, by its old tool or by the new one; no
tool is there that is neither old nor wanted; tools of other names are untouched; and no tool is
bound to another index than its name says. A call passes through these registries step by step, and
a whole cycle ends with the last of them. -/
theorem cycle_without_outage (registry : ToolRegistry) (limit : Nat)
    (polled : Option (List IndexSummary)) :
    (∀ count, Continued limit (polled.getD []) registry (registry.partway limit polled count)) ∧
    (∀ count, (CycleStage.steps limit polled count (.waiting, ⟨false, registry⟩)).2.registry =
      registry.partway limit polled (count - 3)) ∧
    (ReconcilerState.runCycle ⟨false, registry⟩ limit polled).2.registry =
      registry.partway limit polled (registry.changesFor polled).length := by
  refine ⟨fun count => ?_, steps_partway registry limit polled, ?_⟩
  · cases polled with
    | none =>
        rw [partway_unpolled]
        exact Continued.refl registry limit []
    | some observed => exact partway_continued registry limit observed count
  · rw [ToolRegistry.partway, List.take_length]
    cases polled <;> rfl

end Corpora
