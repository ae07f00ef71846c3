import Corpora.Index.Metadata
import Corpora.Index.Name
import Corpora.Tools.Registry

/-!
The difference between the indices that were observed and the query tools that are registered,
and the changes to the registry that remove it.
-/

namespace Corpora

/-- What has to change; every list is sorted by name. -/
structure ReconcilePlan where
  register : List IndexSummary
  reregister : List IndexSummary
  unregister : List String
  deriving Repr, DecidableEq

namespace ReconcilePlan

/-- The observed indices by name: the first of each valid name. -/
def observedByName (observed : List IndexSummary) : SortedMap String IndexSummary :=
  observed.foldl (fun seen summary =>
    if Index.isValidName summary.name && !seen.contains summary.name then
      seen.insert summary.name summary
    else seen) ∅

def of (observed : List IndexSummary) (registered : SortedMap String String) : ReconcilePlan :=
  let seen := observedByName observed
  { register := seen.values.filter fun summary => !registered.contains summary.name
    reregister := seen.values.filter fun summary =>
      match registered.get? summary.name with
      | some current => current != queryToolDescription summary.name summary.description
      | none => false
    unregister := registered.keys.filter fun name => !seen.contains name }

def isEmpty (plan : ReconcilePlan) : Bool :=
  plan.register.isEmpty && plan.reregister.isEmpty && plan.unregister.isEmpty

end ReconcilePlan

inductive RegistryChange where
  | register (summary : IndexSummary)
  | unregister (index : String)
  deriving Repr, DecidableEq

def ReconcilePlan.changes (plan : ReconcilePlan) : List RegistryChange :=
  plan.register.map .register ++ plan.reregister.map .register ++ plan.unregister.map .unregister

/-- Makes one change; a new tool gets `limit` as its default number of hits. -/
def ToolRegistry.apply (limit : Nat) (registry : ToolRegistry) :
    RegistryChange → ToolRegistry
  | .register summary =>
      registry.register (.query (QueryTool.new summary.name summary.description limit))
  | .unregister index => registry.unregister (queryToolName index)

end Corpora
