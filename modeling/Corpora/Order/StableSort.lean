/-!
Stable sorting by insertion. Each element, from the left, moves past those before it that it is
less than. Where `less` is no strict weak order, this order of comparisons decides the result.
-/

namespace Corpora

def insertFromEnd (less : α → α → Bool) (x : α) : List α → List α
  | [] => [x]
  | last :: before =>
      if less x last then last :: insertFromEnd less x before else x :: last :: before

/-- The elements in ascending order, equal ones in their old order. -/
def stableSort (less : α → α → Bool) (xs : List α) : List α :=
  (xs.foldl (fun sorted x => insertFromEnd less x sorted) []).reverse

theorem insertFromEnd_perm (less : α → α → Bool) (x : α) (sorted : List α) :
    (insertFromEnd less x sorted).Perm (x :: sorted) := by
  induction sorted with
  | nil => simp [insertFromEnd]
  | cons last before ih =>
      simp only [insertFromEnd]
      split
      · exact (ih.cons last).trans (List.Perm.swap x last before)
      · exact List.Perm.refl _

theorem stableSort_perm (less : α → α → Bool) (xs : List α) : (stableSort less xs).Perm xs := by
  have grow : ∀ (xs sorted : List α),
      (xs.foldl (fun sorted x => insertFromEnd less x sorted) sorted).Perm (xs ++ sorted) := by
    intro xs
    induction xs with
    | nil => intro sorted; exact List.Perm.refl _
    | cons x xs ih =>
        intro sorted
        refine (ih _).trans ?_
        refine ((insertFromEnd_perm less x sorted).append_left xs).trans ?_
        exact List.perm_middle
  have all := grow xs []
  simp only [List.append_nil] at all
  exact (List.reverse_perm _).trans all

end Corpora
