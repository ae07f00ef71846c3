import Corpora.Order.StableSort
import Mathlib

/-!
Sorting by a key. Where elements compare as their keys do a stable sort is ascending in the key,
and if each element has a key of its own the order before sorting is forgotten: there is one order
in which the keys ascend, and sorting finds it.
-/

namespace Corpora

variable {α κ : Type} [LinearOrder κ] {less : α → α → Bool} {key : α → κ} {Keyed : α → Prop}
  (agrees : ∀ a b, Keyed a → Keyed b → (less a b = true ↔ key a < key b))

include agrees

theorem insertFromEnd_descending {x : α} (keyed : Keyed x) {sorted : List α}
    (all : ∀ earlier ∈ sorted, Keyed earlier)
    (descending : sorted.Pairwise fun later earlier => key earlier ≤ key later) :
    (insertFromEnd less x sorted).Pairwise fun later earlier => key earlier ≤ key later := by
  induction sorted with
  | nil => exact List.pairwise_singleton _ x
  | cons last before ih =>
      rcases List.pairwise_cons.mp descending with ⟨highest, rest⟩
      have compared := agrees x last keyed (all last List.mem_cons_self)
      rw [insertFromEnd]
      split
      · next below =>
        refine List.pairwise_cons.mpr
          ⟨?_, ih (fun earlier member => all earlier (List.mem_cons_of_mem _ member)) rest⟩
        intro earlier member
        rcases List.mem_cons.mp ((insertFromEnd_perm less x before).mem_iff.mp member)
          with rfl | old
        · exact le_of_lt (compared.mp below)
        · exact highest earlier old
      · next above =>
        have least : key last ≤ key x := not_lt.mp (fun lower => above (compared.mpr lower))
        refine List.pairwise_cons.mpr ⟨?_, descending⟩
        intro earlier member
        rcases List.mem_cons.mp member with rfl | old
        · exact least
        · exact le_trans (highest earlier old) least

theorem stableSort_ascending {xs : List α} (all : ∀ x ∈ xs, Keyed x) :
    (stableSort less xs).Pairwise fun earlier later => key earlier ≤ key later := by
  have grown : ∀ (xs sorted : List α), (∀ x ∈ xs, Keyed x) → (∀ x ∈ sorted, Keyed x) →
      sorted.Pairwise (fun later earlier => key earlier ≤ key later) →
      (xs.foldl (fun sorted x => insertFromEnd less x sorted) sorted).Pairwise
        fun later earlier => key earlier ≤ key later := by
    intro xs
    induction xs with
    | nil => intro sorted _ _ descending; exact descending
    | cons x xs ih =>
        intro sorted all placed descending
        have keyed := all x List.mem_cons_self
        refine ih _ (fun later member => all later (List.mem_cons_of_mem _ member)) ?_
          (insertFromEnd_descending agrees keyed placed descending)
        intro y member
        rcases List.mem_cons.mp ((insertFromEnd_perm less x sorted).mem_iff.mp member)
          with rfl | old
        · exact keyed
        · exact placed y old
  exact List.pairwise_reverse.mpr (grown xs [] all (by simp) List.Pairwise.nil)

/-- Where each element has a key of its own the order before sorting is forgotten. -/
theorem stableSort_eq_of_perm {xs ys : List α} (same : xs.Perm ys) (all : ∀ x ∈ xs, Keyed x)
    (own : ∀ x ∈ xs, ∀ y ∈ xs, key x = key y → x = y) :
    stableSort less xs = stableSort less ys := by
  have first := stableSort_perm less xs
  have second := stableSort_perm less ys
  refine List.Perm.eq_of_pairwise (fun x y inFirst inSecond lower higher => ?_)
    (stableSort_ascending agrees all)
    (stableSort_ascending agrees fun y member => all y (same.mem_iff.mpr member))
    (first.trans (same.trans second.symm))
  exact own x (first.mem_iff.mp inFirst) y (same.mem_iff.mpr (second.mem_iff.mp inSecond))
    (le_antisymm lower higher)

theorem stableSort_eq_of_strict {xs sorted : List α} (all : ∀ x ∈ xs, Keyed x)
    (same : sorted.Perm xs) (strict : sorted.Pairwise fun earlier later => key earlier < key later) :
    stableSort less xs = sorted := by
  have first := stableSort_perm less xs
  have own : (sorted.map key).Nodup := List.pairwise_map.mpr (strict.imp ne_of_lt)
  refine List.Perm.eq_of_pairwise (fun x y inFirst inSorted lower higher => ?_)
    (stableSort_ascending agrees all) (strict.imp le_of_lt) (first.trans same.symm)
  exact List.inj_on_of_nodup_map own (same.mem_iff.mpr (first.mem_iff.mp inFirst)) inSorted
    (le_antisymm lower higher)

theorem stableSort_strict {xs : List α} (all : ∀ x ∈ xs, Keyed x) (own : (xs.map key).Nodup) :
    (stableSort less xs).Pairwise fun earlier later => key earlier < key later := by
  have apart : ((stableSort less xs).map key).Nodup :=
    ((stableSort_perm less xs).map key).nodup_iff.mpr own
  have placed := (stableSort_ascending agrees all).and (List.pairwise_map.mp apart)
  exact placed.imp fun order => lt_of_le_of_ne order.1 order.2

end Corpora
