import Corpora.Reconcile.Plan

/-!
A reconciliation cycle: observe the indices, plan against the registry, make the changes. One
cycle runs at a time; another call meanwhile is skipped, and an observation that fails changes
nothing. `runCycle` is a whole cycle, `CycleStage.step` one step of it among those of others.
-/

namespace Corpora

structure CycleReport where
  registered : List String
  reregistered : List String
  unregistered : List String
  total : Nat
  deriving Repr, DecidableEq

inductive CycleOutcome where
  | applied (report : CycleReport)
  | skipped
  | pollFailed
  deriving Repr, DecidableEq

structure ReconcilerState where
  running : Bool
  registry : ToolRegistry

def ReconcilePlan.report (plan : ReconcilePlan) (after : ToolRegistry) : CycleReport where
  registered := plan.register.map IndexSummary.name
  reregistered := plan.reregister.map IndexSummary.name
  unregistered := plan.unregister
  total := after.indices.size

def ToolRegistry.reconcile (registry : ToolRegistry) (limit : Nat)
    (observed : List IndexSummary) : CycleReport × ToolRegistry :=
  let plan := ReconcilePlan.of observed registry.indices
  let after := plan.changes.foldl (ToolRegistry.apply limit) registry
  (plan.report after, after)

/-- A whole cycle; the observation is none if it failed or took too long. -/
def ReconcilerState.runCycle (state : ReconcilerState) (limit : Nat)
    (observed : Option (List IndexSummary)) : CycleOutcome × ReconcilerState :=
  if state.running then (.skipped, state)
  else match observed with
    | none => (.pollFailed, state)
    | some summaries =>
        let (report, registry) := state.registry.reconcile limit summaries
        (.applied report, { state with registry := registry })

inductive CycleStage where
  | waiting
  | polling
  | planning (observed : List IndexSummary)
  | applying (plan : ReconcilePlan) (todo : List RegistryChange)
  | releasing (outcome : CycleOutcome)
  | finished (outcome : CycleOutcome)

/-- One step of a call: taking the flag, the observation, the plan, a single change, or giving
the flag back. -/
def CycleStage.step (limit : Nat) (observed : Option (List IndexSummary)) :
    CycleStage → ReconcilerState → CycleStage × ReconcilerState
  | .waiting, state =>
      if state.running then (.finished .skipped, state)
      else (.polling, { state with running := true })
  | .polling, state =>
      match observed with
      | none => (.releasing .pollFailed, state)
      | some summaries => (.planning summaries, state)
  | .planning summaries, state =>
      let plan := ReconcilePlan.of summaries state.registry.indices
      (.applying plan plan.changes, state)
  | .applying plan (change :: todo), state =>
      (.applying plan todo, { state with registry := state.registry.apply limit change })
  | .applying plan [], state => (.releasing (.applied (plan.report state.registry)), state)
  | .releasing outcome, state => (.finished outcome, { state with running := false })
  | .finished outcome, state => (.finished outcome, state)

end Corpora
