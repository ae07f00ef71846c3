import Corpora.Reconcile.Cycle
import Corpora.Service.Indices

/-!
A reconciler beside the service whose indices it follows. It polls by the listing of the service, so
that each call of the listing on the stores is one of the cycle.
-/

namespace Corpora

def Service.observeIndices : Service.Program (Option (List IndexSummary)) := do
  return (← listSummaries.run).toOption

/-- A whole cycle over the listing of the service. A poll that is not `timely` tells nothing. -/
def ReconcilerState.serviceCycle (state : ReconcilerState) (limit : Nat) (timely : Bool) :
    Service.Program (CycleOutcome × ReconcilerState) := do
  if state.running then return (.skipped, state)
  let observed ← Service.observeIndices
  return state.runCycle limit (if timely then observed else none)

end Corpora
