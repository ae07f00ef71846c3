import Corpora.Order.StableSort

/-!
What a stable sort does with any comparison at all. A list in which no element is less than an
earlier one stays as it is, and nothing moves before the first element that is not less than it.
-/

namespace Corpora

section Ascending

variable {α : Type} (less : α → α → Bool)

theorem foldl_insertFromEnd (xs sorted : List α)
    (above : ∀ x ∈ xs, ∀ earlier ∈ sorted, less x earlier = false)
    (ascending : xs.Pairwise fun left right => less right left = false) :
    xs.foldl (fun sorted x => insertFromEnd less x sorted) sorted = xs.reverse ++ sorted := by
  induction xs generalizing sorted with
  | nil => rfl
  | cons x xs ih =>
      rcases List.pairwise_cons.mp ascending with ⟨first, rest⟩
      have placed : insertFromEnd less x sorted = x :: sorted := by
        cases sorted with
        | nil => rfl
        | cons last before =>
            simp [insertFromEnd, above x List.mem_cons_self last List.mem_cons_self]
      rw [List.foldl_cons, placed, ih (x :: sorted) _ rest, List.reverse_cons, List.append_assoc,
        List.singleton_append]
      intro later member earlier found
      rcases List.mem_cons.mp found with rfl | old
      · exact first later member
      · exact above later (List.mem_cons_of_mem _ member) earlier old

theorem stableSort_of_ascending {xs : List α}
    (ascending : xs.Pairwise fun left right => less right left = false) :
    stableSort less xs = xs := by
  rw [stableSort, foldl_insertFromEnd less xs [] (by simp) ascending, List.append_nil,
    List.reverse_reverse]

end Ascending

section First

variable {α : Type} (less : α → α → Bool) (first : α)

theorem insertFromEnd_first (x : α) (after before : List α)
    (less_first : ∀ y ∈ before, less y first = true) :
    ∃ after' before', insertFromEnd less x (after ++ first :: before) = after' ++ first :: before' ∧
      ∀ y ∈ before', less y first = true := by
  induction after with
  | nil =>
      by_cases lower : less x first = true
      · refine ⟨[], insertFromEnd less x before, by simp [insertFromEnd, lower], ?_⟩
        intro y member
        rcases List.mem_cons.mp ((insertFromEnd_perm less x before).mem_iff.mp member)
          with rfl | old
        · exact lower
        · exact less_first y old
      · exact ⟨[x], before, by simp [insertFromEnd, lower], less_first⟩
  | cons last after ih =>
      by_cases lower : less x last = true
      · obtain ⟨after', before', placed, all⟩ := ih
        exact ⟨last :: after', before', by simp [insertFromEnd, lower, placed], all⟩
      · exact ⟨x :: last :: after, before, by simp [insertFromEnd, lower], less_first⟩

/-- Only what is less than the first element comes to stand before it. -/
theorem stableSort_first (xs : List α) :
    ∃ before after, stableSort less (first :: xs) = before ++ first :: after ∧
      ∀ y ∈ before, less y first = true := by
  have grown : ∀ (xs after before : List α), (∀ y ∈ before, less y first = true) →
      ∃ after' before', xs.foldl (fun sorted x => insertFromEnd less x sorted)
          (after ++ first :: before) = after' ++ first :: before' ∧
        ∀ y ∈ before', less y first = true := by
    intro xs
    induction xs with
    | nil => intro after before all; exact ⟨after, before, rfl, all⟩
    | cons x xs ih =>
        intro after before all
        obtain ⟨after', before', placed, all'⟩ := insertFromEnd_first less first x after before all
        rw [List.foldl_cons, placed]
        exact ih after' before' all'
  obtain ⟨after, before, sorted, all⟩ := grown xs [] [] (by simp)
  refine ⟨before.reverse, after.reverse, ?_, by simpa using all⟩
  have folded : stableSort less (first :: xs) = (after ++ first :: before).reverse :=
    congrArg List.reverse sorted
  simp [folded]

end First

end Corpora
