import Corpora.Reconcile.Cycle
import Corpora.Reconcile.Schedule

/-!
A reconciler that polls periodically. A cycle changes the registry when its poll has ended, and a
cycle that is in progress when the reconciler is stopped is still completed.
-/

namespace Corpora.ReconcilerState

open Schedule (Poll)

def afterPolls (state : ReconcilerState) (limit : Nat) (observe : Option (List IndexSummary))
    (polls : List Poll) : ReconcilerState :=
  polls.foldl (fun state poll =>
    (state.runCycle limit (if poll.answered then observe else none)).2) state

def overlap (state : ReconcilerState) (limit : Nat) (observed : Option (List IndexSummary)) :
    List CycleOutcome × ReconcilerState :=
  let (second, _) := { state with running := true }.runCycle limit none
  let (first, after) := state.runCycle limit observed
  ([first, second], after)

def endedBefore (time : Nat) (polls : List Poll) : List Poll :=
  polls.filter fun poll => poll.finish < time

end Corpora.ReconcilerState
