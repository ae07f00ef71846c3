/-!
Changes that are made one after the other to what is held under keys. A change decides what is held
under its own key and leaves every other key alone. A key that no change is about keeps what it
held, and where all changes of a key leave the same, that is held at the end. Where only some
changes have something to offer, the last offer is held.
-/

namespace Corpora

section Decided

variable {σ γ κ β : Type} [DecidableEq κ] {held : σ → κ → β} {change : σ → γ → σ} {about : γ → κ}
  {leaves : γ → β}
  (decides : ∀ state step key,
    held (change state step) key = if key = about step then leaves step else held state key)

include decides

theorem held_foldl_untouched {steps : List γ} {key : κ} (apart : ∀ step ∈ steps, about step ≠ key)
    (state : σ) : held (steps.foldl change state) key = held state key := by
  induction steps generalizing state with
  | nil => rfl
  | cons first rest ih =>
      rw [List.foldl_cons, ih fun step later => apart step (List.mem_cons_of_mem _ later), decides,
        if_neg (apart first List.mem_cons_self).symm]

-- Once a change has left its value, later changes of the same key leave the same one again.
theorem held_foldl_touched {steps : List γ} {key : κ} {value : β}
    (agree : ∀ step ∈ steps, about step = key → leaves step = value) {state : σ}
    (reached : held state key = value ∨ ∃ step ∈ steps, about step = key) :
    held (steps.foldl change state) key = value := by
  induction steps generalizing state with
  | nil =>
      rcases reached with there | ⟨step, member, _⟩
      · exact there
      · cases member
  | cons first rest ih =>
      apply ih (fun step later => agree step (List.mem_cons_of_mem _ later))
      rw [decides]
      by_cases same : key = about first
      · rw [if_pos same]
        exact Or.inl (agree first List.mem_cons_self same.symm)
      · rw [if_neg same]
        rcases reached with there | ⟨step, member, named⟩
        · exact Or.inl there
        · rcases List.mem_cons.mp member with rfl | later
          · exact absurd named.symm same
          · exact Or.inr ⟨step, later, named⟩

/-- What is held under a key in the end was held before or is what one of the changes leaves. -/
theorem held_foldl_cases (steps : List γ) (state : σ) (key : κ) :
    held (steps.foldl change state) key = held state key ∨
      ∃ step ∈ steps, about step = key ∧ held (steps.foldl change state) key = leaves step := by
  induction steps generalizing state with
  | nil => exact Or.inl rfl
  | cons first rest ih =>
      rw [List.foldl_cons]
      rcases ih (change state first) with kept | ⟨step, later, named, left⟩
      · by_cases same : key = about first
        · rw [decides, if_pos same] at kept
          exact Or.inr ⟨first, List.mem_cons_self, same.symm, kept⟩
        · rw [decides, if_neg same] at kept
          exact Or.inl kept
      · exact Or.inr ⟨step, List.mem_cons_of_mem _ later, named, left⟩

end Decided

section Last

variable {σ γ β : Type} (held : σ → Option β) {change : σ → γ → σ} {offer : γ → Option β}
  (takes : ∀ state step, held (change state step) = (offer step).or (held state))

include takes

theorem held_foldl_last (steps : List γ) (state : σ) :
    held (steps.foldl change state) = ((steps.filterMap offer).getLast?).or (held state) := by
  induction steps generalizing state with
  | nil => rfl
  | cons first rest ih =>
      rw [List.foldl_cons, ih, takes]
      cases offered : offer first with
      | none => rw [List.filterMap_cons_none offered, Option.none_or]
      | some value =>
          rw [List.filterMap_cons_some offered, List.getLast?_cons]
          cases (rest.filterMap offer).getLast? <;> rfl

end Last

theorem getLast?_of_distinct {α κ β : Type} [DecidableEq κ] {entries : List (α × κ)}
    (distinct : (entries.map Prod.snd).Nodup) (offer : α → Option β) (key : κ) :
    (entries.filterMap fun entry => if entry.2 = key then offer entry.1 else none).getLast? =
      (entries.find? fun entry => entry.2 == key).bind fun entry => offer entry.1 := by
  induction entries with
  | nil => rfl
  | cons first rest ih =>
      rw [List.map_cons, List.nodup_cons] at distinct
      by_cases same : first.2 = key
      · have others : rest.filterMap (fun entry => if entry.2 = key then offer entry.1 else none) =
            [] := by
          refine List.filterMap_eq_nil_iff.mpr fun entry member => if_neg fun again => ?_
          exact distinct.1 (same.trans again.symm ▸ List.mem_map_of_mem member)
        rw [List.filterMap_cons, others, if_pos same, List.find?_cons_of_pos (by simpa using same),
          Option.bind_some]
        cases offer first.1 <;> rfl
      · rw [List.filterMap_cons, if_neg same, ih distinct.2,
          List.find?_cons_of_neg (by simpa using same)]

end Corpora
