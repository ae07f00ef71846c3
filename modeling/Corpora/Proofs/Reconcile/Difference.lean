import Corpora.Proofs.Order.Overwriting
import Corpora.Proofs.Reconcile.Plan
import Mathlib.Data.List.Basic

/-!
A plan is the exact difference between what is registered and what an observation asks for. Its
changes turn the registered descriptions into the wanted ones, each of its lists holds the names that
it should and no others, and where nothing differs it is empty. Entries that do not count in an
observation do not count in the plan.
-/

namespace Corpora

def RegistryChange.describe (described : SortedMap String String) :
    RegistryChange → SortedMap String String
  | register summary =>
      described.insert summary.name (queryToolDescription summary.name summary.description)
  | unregister index => described.erase index

namespace RegistryChange

def index : RegistryChange → String
  | register summary => summary.name
  | unregister index => index

def description? : RegistryChange → Option String
  | register summary => some (queryToolDescription summary.name summary.description)
  | unregister _ => none

theorem get?_describe (described : SortedMap String String) (change : RegistryChange)
    (name : String) :
    (describe described change).get? name =
      if name = change.index then change.description? else described.get? name := by
  cases change with
  | register summary => exact SortedMap.get?_insert _ _ _ _
  | unregister index => exact SortedMap.get?_erase _ _ _

end RegistryChange

namespace ReconcilePlan

def describe (plan : ReconcilePlan) (registered : SortedMap String String) :
    SortedMap String String :=
  plan.changes.foldl RegistryChange.describe registered

/-- The descriptions that an observation asks for. Entries are taken from the last to the first, so
that the first one of a name is what stays. -/
def wanted (observed : List IndexSummary) : SortedMap String String :=
  observed.foldr (fun summary later =>
    if Index.isValidName summary.name then
      later.insert summary.name (queryToolDescription summary.name summary.description)
    else later) ∅

theorem get?_wanted (observed : List IndexSummary) (name : String) :
    (wanted observed).get? name =
      if Index.isValidName name then
        (observed.find? fun summary => summary.name == name).map fun first =>
          queryToolDescription name first.description
      else none := by
  induction observed with
  | nil => simp [wanted]
  | cons first rest ih =>
      rw [wanted, List.foldr_cons, ← wanted]
      by_cases same : first.name = name
      · subst same
        by_cases valid : Index.isValidName first.name <;> simp [valid, ih]
      · rw [List.find?_cons_of_neg (by simpa using same), ← ih]
        split
        · exact SortedMap.get?_insert_of_ne _ _ (Ne.symm same)
        · rfl

theorem get?_wanted_observed (observed : List IndexSummary) (name : String) :
    (wanted observed).get? name =
      ((observedByName observed).get? name).map fun first =>
        queryToolDescription name first.description := by
  rw [get?_wanted, get?_observedByName]
  split <;> rfl

/-- A plan is the difference between registered descriptions and wanted ones. -/
structure Difference (plan : ReconcilePlan) (registered wanted : SortedMap String String) :
    Prop where
  reaches : plan.describe registered = wanted
  registers : ∀ name, name ∈ plan.register.map IndexSummary.name ↔
    (∃ description, wanted.get? name = some description) ∧ registered.get? name = none
  reregisters : ∀ name, name ∈ plan.reregister.map IndexSummary.name ↔
    ∃ old new, registered.get? name = some old ∧ wanted.get? name = some new ∧ old ≠ new
  unregisters : ∀ name, name ∈ plan.unregister ↔
    (∃ description, registered.get? name = some description) ∧ wanted.get? name = none
  registersAscend : (plan.register.map IndexSummary.name).Pairwise (· < ·)
  reregistersAscend : (plan.reregister.map IndexSummary.name).Pairwise (· < ·)
  unregistersAscend : plan.unregister.Pairwise (· < ·)
  empty : plan.isEmpty = true ↔ registered = wanted

namespace Difference

variable {plan : ReconcilePlan} {registered wanted : SortedMap String String}

theorem disjoint (difference : plan.Difference registered wanted) :
    (plan.register.map IndexSummary.name).Disjoint (plan.reregister.map IndexSummary.name) ∧
      (plan.register.map IndexSummary.name).Disjoint plan.unregister ∧
      (plan.reregister.map IndexSummary.name).Disjoint plan.unregister := by
  refine ⟨fun name new changed => ?_, fun name new gone => ?_, fun name changed gone => ?_⟩
  · obtain ⟨_, absent⟩ := (difference.registers name).mp new
    obtain ⟨_, _, there, _⟩ := (difference.reregisters name).mp changed
    rw [absent] at there
    cases there
  · obtain ⟨_, absent⟩ := (difference.registers name).mp new
    obtain ⟨⟨_, there⟩, _⟩ := (difference.unregisters name).mp gone
    rw [absent] at there
    cases there
  · obtain ⟨_, _, _, there, _⟩ := (difference.reregisters name).mp changed
    obtain ⟨_, absent⟩ := (difference.unregisters name).mp gone
    rw [absent] at there
    cases there

end Difference

section Exact

variable {observed : List IndexSummary} {registered : SortedMap String String}

theorem mem_register {summary : IndexSummary} :
    summary ∈ (ReconcilePlan.of observed registered).register ↔
      (observedByName observed).get? summary.name = some summary ∧
        registered.get? summary.name = none := by
  simp only [of, List.mem_filter, mem_values_iff, SortedMap.contains]
  simp

theorem mem_reregister {summary : IndexSummary} :
    summary ∈ (ReconcilePlan.of observed registered).reregister ↔
      (observedByName observed).get? summary.name = some summary ∧
        ∃ old, registered.get? summary.name = some old ∧
          old ≠ queryToolDescription summary.name summary.description := by
  simp only [of, List.mem_filter, mem_values_iff]
  refine and_congr_right fun _ => ?_
  cases registered.get? summary.name <;> simp

theorem mem_unregister {name : String} :
    name ∈ (ReconcilePlan.of observed registered).unregister ↔
      (∃ description, registered.get? name = some description) ∧
        (observedByName observed).get? name = none := by
  simp only [of, List.mem_filter, SortedMap.mem_keys, SortedMap.contains,
    Option.isSome_iff_exists]
  simp

theorem wanted_eq_some_iff {name description : String} :
    (wanted observed).get? name = some description ↔
      ∃ first, (observedByName observed).get? name = some first ∧
        queryToolDescription name first.description = description := by
  rw [get?_wanted_observed, Option.map_eq_some_iff]

theorem wanted_eq_none_iff {name : String} :
    (wanted observed).get? name = none ↔ (observedByName observed).get? name = none := by
  rw [get?_wanted_observed, Option.map_eq_none_iff]

theorem description?_of_mem {change : RegistryChange}
    (member : change ∈ (ReconcilePlan.of observed registered).changes) :
    change.description? = (wanted observed).get? change.index := by
  cases change with
  | register summary =>
      obtain ⟨seen, _⟩ := register_mem_changes.mp member
      exact (wanted_eq_some_iff.mpr ⟨summary, seen, rfl⟩).symm
  | unregister name =>
      obtain ⟨_, unseen⟩ := unregister_mem_changes.mp member
      exact (wanted_eq_none_iff.mpr unseen).symm

theorem changes_of_ne {name : String}
    (differs : registered.get? name ≠ (wanted observed).get? name) :
    ∃ change ∈ (ReconcilePlan.of observed registered).changes, change.index = name := by
  cases seen : (observedByName observed).get? name with
  | none =>
      rw [wanted_eq_none_iff.mpr seen] at differs
      exact ⟨.unregister name, unregister_mem_changes.mpr ⟨differs, seen⟩, rfl⟩
  | some first =>
      obtain rfl := name_of_observed seen
      rw [wanted_eq_some_iff.mpr ⟨first, seen, rfl⟩] at differs
      exact ⟨.register first, register_mem_changes.mpr ⟨seen, differs⟩, rfl⟩

theorem describe_of (observed : List IndexSummary) (registered : SortedMap String String) :
    (ReconcilePlan.of observed registered).describe registered = wanted observed := by
  apply SortedMap.ext_get?
  intro name
  refine held_foldl_touched RegistryChange.get?_describe (fun change member same => ?_) ?_
  · rw [description?_of_mem member, same]
  · by_cases differs : registered.get? name = (wanted observed).get? name
    · exact Or.inl differs
    · exact Or.inr (changes_of_ne differs)

theorem names_observed (observed : List IndexSummary) :
    (observedByName observed).values.map IndexSummary.name = (observedByName observed).keys := by
  rw [SortedMap.values, SortedMap.keys, List.map_map]
  apply List.map_congr_left
  rintro ⟨name, summary⟩ member
  exact name_of_observed ((SortedMap.get?_iff _ _ _).mpr member)

theorem names_ascend (observed : List IndexSummary) (keep : IndexSummary → Bool) :
    (((observedByName observed).values.filter keep).map IndexSummary.name).Pairwise (· < ·) := by
  have sorted := SortedMap.keys_ascend (observedByName observed)
  rw [← names_observed] at sorted
  exact sorted.sublist (List.filter_sublist.map _)

theorem isEmpty_iff {plan : ReconcilePlan} : plan.isEmpty = true ↔ plan = ⟨[], [], []⟩ := by
  obtain ⟨register, reregister, unregister⟩ := plan
  simp [isEmpty, and_assoc]

theorem isEmpty_iff_changes {plan : ReconcilePlan} :
    plan.isEmpty = true ↔ plan.changes = [] := by
  simp [isEmpty, changes, and_assoc]

theorem isEmpty_of_iff :
    (ReconcilePlan.of observed registered).isEmpty = true ↔ registered = wanted observed := by
  rw [isEmpty_iff_changes]
  constructor
  · intro none
    rw [← describe_of observed registered, describe, none]
    rfl
  · rintro rfl
    apply List.eq_nil_iff_forall_not_mem.mpr
    intro change member
    cases change with
    | register summary =>
        obtain ⟨seen, differs⟩ := register_mem_changes.mp member
        exact differs (wanted_eq_some_iff.mpr ⟨summary, seen, rfl⟩)
    | unregister name =>
        obtain ⟨there, unseen⟩ := unregister_mem_changes.mp member
        exact there (wanted_eq_none_iff.mpr unseen)

theorem difference_of (observed : List IndexSummary) (registered : SortedMap String String) :
    (ReconcilePlan.of observed registered).Difference registered (wanted observed) where
  reaches := describe_of observed registered
  registers name := by
    simp only [List.mem_map, mem_register, wanted_eq_some_iff]
    constructor
    · rintro ⟨summary, ⟨seen, absent⟩, rfl⟩
      exact ⟨⟨_, summary, seen, rfl⟩, absent⟩
    · rintro ⟨⟨_, first, seen, _⟩, absent⟩
      obtain rfl := name_of_observed seen
      exact ⟨first, ⟨seen, absent⟩, rfl⟩
  reregisters name := by
    simp only [List.mem_map, mem_reregister, wanted_eq_some_iff]
    constructor
    · rintro ⟨summary, ⟨seen, old, there, differs⟩, rfl⟩
      exact ⟨old, _, there, ⟨summary, seen, rfl⟩, differs⟩
    · rintro ⟨old, _, there, ⟨first, seen, rfl⟩, differs⟩
      obtain rfl := name_of_observed seen
      exact ⟨first, ⟨seen, old, there, differs⟩, rfl⟩
  unregisters name := by rw [mem_unregister, wanted_eq_none_iff]
  registersAscend := names_ascend observed _
  reregistersAscend := names_ascend observed _
  unregistersAscend := (SortedMap.keys_ascend registered).filter _
  empty := isEmpty_of_iff

end Exact

/-- An observation of which entries were taken out that do not count: those of names that no index
can have, and those of names that an earlier entry has. -/
inductive Trimmed : List IndexSummary → List IndexSummary → Prop
  | whole (observed : List IndexSummary) : Trimmed observed observed
  | without {observed before after : List IndexSummary} {entry : IndexSummary}
      (trimmed : Trimmed observed (before ++ entry :: after))
      (idle : Index.isValidName entry.name = false ∨ ∃ earlier ∈ before, earlier.name = entry.name) :
      Trimmed observed (before ++ after)

theorem observedByName_without {before after : List IndexSummary} {entry : IndexSummary}
    (idle : Index.isValidName entry.name = false ∨ ∃ earlier ∈ before, earlier.name = entry.name) :
    observedByName (before ++ after) = observedByName (before ++ entry :: after) := by
  apply SortedMap.ext_get?
  intro name
  rw [get?_observedByName, get?_observedByName, List.find?_append, List.find?_append]
  by_cases same : entry.name = name
  · subst same
    rcases idle with invalid | ⟨earlier, member, same⟩
    · rw [invalid]
      rfl
    · have found : (before.find? fun summary => summary.name == entry.name).isSome :=
        List.find?_isSome.mpr ⟨earlier, member, by simpa using same⟩
      obtain ⟨first, found⟩ := Option.isSome_iff_exists.mp found
      rw [found, Option.some_or, Option.some_or]
  · rw [List.find?_cons_of_neg (by simpa using same)]

theorem Trimmed.of_eq {observed fewer : List IndexSummary} (trimmed : Trimmed observed fewer)
    (registered : SortedMap String String) :
    ReconcilePlan.of fewer registered = ReconcilePlan.of observed registered := by
  induction trimmed with
  | whole => rfl
  | without _ idle ih => rw [← ih, of, of, observedByName_without idle]

/-- The plan for an observation is the exact difference between what is registered and what the
observation asks for, which is for each valid name the description of its first entry. No name is in
two lists, nothing is left to plan afterwards, and entries that do not count change nothing. -/
theorem plan_is_difference (observed : List IndexSummary) (registered : SortedMap String String) :
    let plan := ReconcilePlan.of observed registered
    (∀ name, (wanted observed).get? name =
      if Index.isValidName name then
        (observed.find? fun summary => summary.name == name).map fun first =>
          queryToolDescription name first.description
      else none) ∧
    plan.Difference registered (wanted observed) ∧
    (plan.register.map IndexSummary.name).Disjoint (plan.reregister.map IndexSummary.name) ∧
    (plan.register.map IndexSummary.name).Disjoint plan.unregister ∧
    (plan.reregister.map IndexSummary.name).Disjoint plan.unregister ∧
    ReconcilePlan.of observed (wanted observed) = ⟨[], [], []⟩ ∧
    ∀ fewer, Trimmed observed fewer → ReconcilePlan.of fewer registered = plan := by
  intro plan
  have difference : plan.Difference registered (wanted observed) := difference_of observed registered
  obtain ⟨newOrChanged, newOrGone, changedOrGone⟩ := difference.disjoint
  have settled : (ReconcilePlan.of observed (wanted observed)).isEmpty = true :=
    isEmpty_of_iff.mpr rfl
  exact ⟨get?_wanted observed, difference, newOrChanged, newOrGone, changedOrGone,
    isEmpty_iff.mp settled, fun fewer trimmed => trimmed.of_eq registered⟩

/-- An observation with a name that no index can have, and with two entries of one name. -/
def redundant : List IndexSummary :=
  [⟨"Bad_Name", "none"⟩, ⟨"a", "first"⟩, ⟨"b", ""⟩, ⟨"a", "second"⟩]

theorem redundant_trimmed_plan :
    let registered := SortedMap.ofList [("a", "old"), ("gone", "left")]
    Trimmed redundant [⟨"a", "first"⟩, ⟨"b", ""⟩] ∧
      ReconcilePlan.of [⟨"a", "first"⟩, ⟨"b", ""⟩] registered =
        ReconcilePlan.of redundant registered ∧
      ReconcilePlan.of redundant registered = ⟨[⟨"b", ""⟩], [⟨"a", "first"⟩], ["gone"]⟩ := by
  intro registered
  have once : Trimmed redundant ([⟨"Bad_Name", "none"⟩, ⟨"a", "first"⟩, ⟨"b", ""⟩] ++ []) :=
    .without (.whole redundant) (Or.inr ⟨⟨"a", "first"⟩, by decide, rfl⟩)
  have trimmed : Trimmed redundant ([] ++ [⟨"a", "first"⟩, ⟨"b", ""⟩]) :=
    .without once (Or.inl (by decide))
  obtain ⟨_, _, _, _, _, _, kept⟩ := plan_is_difference redundant registered
  exact ⟨trimmed, kept _ trimmed, by decide⟩

end ReconcilePlan
end Corpora
