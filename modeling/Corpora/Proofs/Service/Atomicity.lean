import Corpora.Proofs.Service.Faultless

/-!
A request that is answered with an error has changed nothing. The exception is a creation whose
bucket could not be taken away again: the bucket stays, but it holds no object, so that nobody who
asks for indices can tell.
-/

namespace Corpora.Service

/-- There is one bucket more, without an object in it, and nothing else is different. -/
structure LeftBehind (name : String) (before after : Stores) : Prop where
  absent : before.objects.buckets.get? name = none
  extra : ∃ bucket : Bucket, bucket.objects = ∅ ∧
    after = { before with objects := before.objects.replace name bucket }

namespace LeftBehind

variable {name : String} {before after : Stores}

theorem kept (left : LeftBehind name before after) {other : String} {bucket : Bucket}
    (held : before.objects.buckets.get? other = some bucket) :
    after.objects.buckets.get? other = some bucket := by
  rcases left.extra with ⟨extra, _, rfl⟩
  have different : other ≠ name := by
    rintro rfl
    rw [left.absent] at held
    cases held
  exact (SortedMap.get?_insert_of_ne _ _ different).trans held

theorem index_missing (left : LeftBehind name before after) :
    after.objects.index? name = none := by
  rcases left.extra with ⟨extra, bare, rfl⟩
  simp [ObjectStore.index?, ObjectStore.replace, Bucket.index?, bare]

theorem index_same (left : LeftBehind name before after) :
    after.objects.index? = before.objects.index? := by
  funext other
  by_cases same : other = name
  · subst same
    rw [left.index_missing]
    simp [ObjectStore.index?, left.absent]
  · rcases left.extra with ⟨extra, _, rfl⟩
    simp [ObjectStore.index?, ObjectStore.replace, SortedMap.get?_insert_of_ne _ _ same]

theorem indices_same (left : LeftBehind name before after) :
    after.objects.indices = before.objects.indices := by
  have silent := left.index_missing
  unfold ObjectStore.indices
  rw [left.index_same] at silent ⊢
  rcases left.extra with ⟨extra, _, rfl⟩
  exact SortedMap.filterMap_keys_insert _ extra silent

end LeftBehind

variable {target : NotificationTarget} {circumstances : Circumstances}

theorem Effect.first_fault {before after : Stores} {operation : Operation} {faults : List Fault}
    {message : String} {why : Failure}
    (effect : Effect target circumstances before operation (.error (.internal message why)) after
      faults) :
    ∃ call later, faults = ⟨call, why⟩ :: later := by
  cases effect with
  | refused refusal => exact refusal.elim
  | failed call _ _ later => exact ⟨call, later, rfl⟩
  | stranded bucket _ undoing => exact ⟨_, _, rfl⟩

/-- After an error the stores are as they were, or a new bucket could not be taken away again. -/
theorem Effect.kept_or_left {before after : Stores} {operation : Operation} {faults : List Fault}
    {error : ServiceError}
    (effect : Effect target circumstances before operation (.error error) after faults) :
    after = before ∨
      ∃ name description call message why undoing, operation = .create name description ∧
        LateStep target name description call message ∧ error = .internal message why ∧
        faults = [⟨call, why⟩, ⟨.object (.deleteBucket name), undoing⟩] ∧
        LeftBehind name before after := by
  cases effect with
  | refused refusal => exact Or.inl rfl
  | failed call message why later => exact Or.inl rfl
  | stranded bucket why undoing valid absent bare late =>
      exact Or.inr ⟨_, _, _, _, why, undoing, rfl, late, rfl, rfl, ⟨absent, bucket, bare, rfl⟩⟩

section Faultless

variable (faultless : circumstances.Faultless)
include faultless

theorem get_run_missing {session : Session} {name : String}
    (absent : session.stores.objects.index? name = none) :
    ((Operation.get name).run target circumstances session).1 = .error indexMissing := by
  rcases requireIndex_outcome_missing faultless absent with ⟨after, required, _⟩
  exact congrArg Prod.fst (Action.outcome_map required)

theorem list_run (session : Session) :
    (Operation.list.run target circumstances session).1 =
      .ok (.indices (stableSort (fun a b => decide (a.name < b.name))
        session.stores.objects.indices)) := by
  rcases listIndices_outcome faultless session with ⟨after, listed, _⟩
  exact congrArg Prod.fst (Action.outcome_map listed)

end Faultless

/-- What an error leaves of a request, whichever calls failed along its way. -/
theorem error_atomic (target : NotificationTarget) (circumstances : Circumstances)
    (operation : Operation) (session : Session) {error : ServiceError}
    (answered : (operation.run target circumstances session).1 = .error error) :
    let after := (operation.run target circumstances session).2.stores
    let faults := operation.faults target circumstances session
    (∀ name bucket, session.stores.objects.buckets.get? name = some bucket →
      after.objects.buckets.get? name = some bucket) ∧
    (∀ message why, error = .internal message why →
      ∃ call later, faults = ⟨call, why⟩ :: later) ∧
    (after = session.stores ∨
      ∃ name description call message why undoing, operation = .create name description ∧
        LateStep target name description call message ∧ error = .internal message why ∧
        faults = [⟨call, why⟩, ⟨.object (.deleteBucket name), undoing⟩] ∧
        LeftBehind name session.stores after ∧
        ∀ later : Circumstances, later.Faultless → ∀ old new : Session,
          old.stores = session.stores → new.stores = after →
            ((Operation.get name).run target later new).1 = .error indexMissing ∧
            (Operation.list.run target later new).1 =
              (Operation.list.run target later old).1) := by
  have effect := effect_of_run target circumstances operation session
  rw [answered] at effect
  intro after faults
  refine ⟨?_, ?_, ?_⟩
  · intro name bucket held
    rcases effect.kept_or_left with same | ⟨_, _, _, _, _, _, _, _, _, _, left⟩
    · have kept : after = session.stores := same
      rw [kept]
      exact held
    · exact left.kept held
  · rintro message why rfl
    exact effect.first_fault
  · rcases effect.kept_or_left with
      same | ⟨name, description, call, message, why, undoing, made, late, told, met, left⟩
    · exact Or.inl same
    refine Or.inr ⟨name, description, call, message, why, undoing, made, late, told, met, left, ?_⟩
    intro later faultless old new start final
    constructor
    · apply get_run_missing faultless
      rw [final]
      exact left.index_missing
    · rw [list_run faultless, list_run faultless, start, final, left.indices_same]

/-- Circumstances in which no bucket takes a notification and none can be removed. -/
def stubborn : Circumstances where
  objectFate _ call :=
    match call with
    | .setNotification .. => .failed (.because "not now")
    | .deleteBucket _ => .failed (.because "not ever")
    | _ => .performed
  statusFate _ _ := .performed
  clock _ := Time.Instant.epoch
  ids _ := ""

theorem stubborn_create :
    let run := Operation.run ⟨"", "", "", []⟩ stubborn (.create "a" "")
      (.start ⟨.empty, .memory .empty⟩)
    run.1 = .error (.internal "Failed to configure index notifications" (.because "not now")) ∧
      LeftBehind "a" ⟨.empty, .memory .empty⟩ run.2.stores := by
  intro run
  have answered : run.1 = .error
      (.internal "Failed to configure index notifications" (.because "not now")) := rfl
  constructor
  · exact answered
  · rcases (error_atomic _ _ _ _ answered).2.2 with
      same | ⟨_, _, _, _, _, _, made, _, _, _, left, _⟩
    · have there := congrArg (fun stores => stores.objects.bucketExists "a") same
      exact absurd there Bool.noConfusion
    · cases made
      exact left

end Corpora.Service
