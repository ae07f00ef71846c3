import Corpora.Proofs.Search.Ranking

/-!
The cut that a store makes before its hits are ranked. The store knows nothing of filenames, so
where its cut divides hits of one score the ranking of what is left depends on the order in which
the hits came. Hits whose score is not a number take up room in the cut, and are left out only
afterwards.
-/

namespace Corpora

namespace Hit

/-- No hit beyond the limit has the score of one within it. -/
def CleanCut (limit : Nat) (hits : List Hit) : Prop :=
  ∀ kept ∈ (ranking hits).take limit, ∀ left ∈ (ranking hits).drop limit, left.score < kept.score

instance (limit : Nat) (hits : List Hit) : Decidable (CleanCut limit hits) :=
  inferInstanceAs (Decidable (∀ kept ∈ (ranking hits).take limit,
    ∀ left ∈ (ranking hits).drop limit, left.score < kept.score))

def byScore (hits : List Hit) : List Hit := stableSort (fun a b => compareScores a b == .lt) hits

theorem byScore_perm (hits : List Hit) : (byScore hits).Perm hits := stableSort_perm _ hits

theorem best_eq (limit : Nat) (hits : List Hit) : best limit hits = (byScore hits).take limit := rfl

theorem length_best_le (limit : Nat) (hits : List Hit) : (best limit hits).length ≤ limit :=
  List.length_take_le limit _

theorem mem_of_mem_best {limit : Nat} {hits : List Hit} {hit : Hit} (found : hit ∈ best limit hits) :
    hit ∈ hits :=
  (byScore_perm hits).mem_iff.mp (List.mem_of_mem_take found)

section

variable {hits order : List Hit} {limit : Nat} (numeric : ∀ hit ∈ hits, hit.Numeric)
  (distinct : (hits.map source).Nodup)

include numeric

theorem byScore_descends :
    (byScore hits).Pairwise fun earlier later => earlier.scoreKey ≤ later.scoreKey :=
  stableSort_ascending compareScores_lt numeric

theorem scoreKey_lt_iff {a b : Hit} (first : a ∈ hits) (second : b ∈ hits) :
    a.scoreKey < b.scoreKey ↔ b.score < a.score :=
  scoreKey_lt (numeric a first) (numeric b second)

-- A hit beyond the limit that the store kept would have the whole of a full cut before it.
theorem best_subset_of_clean (clean : CleanCut limit hits) (same : hits.Perm order)
    (nodup : hits.Nodup) {hit : Hit} (found : hit ∈ best limit order) :
    hit ∈ (ranking hits).take limit := by
  by_contra out
  have ranked := ranking_perm hits
  have member : hit ∈ hits := same.mem_iff.mpr (mem_of_mem_best found)
  have left : hit ∈ (ranking hits).drop limit := by
    have whole := ranked.mem_iff.mpr member
    rw [← List.take_append_drop limit (ranking hits), List.mem_append] at whole
    exact whole.resolve_left out
  obtain ⟨before, after, split⟩ := List.append_of_mem found
  have sorted : byScore order = before ++ hit :: (after ++ (byScore order).drop limit) := by
    rw [← List.cons_append, ← List.append_assoc, ← split, best_eq, List.take_append_drop]
  have descends := byScore_descends fun h m => numeric h (same.mem_iff.mpr m)
  rw [sorted, List.pairwise_append, List.pairwise_cons] at descends
  have earlier : (ranking hits).take limit ⊆ before := by
    intro kept inside
    have known := ranked.mem_iff.mp (List.mem_of_mem_take inside)
    have higher := (scoreKey_lt_iff numeric known member).mpr (clean kept inside hit left)
    have placed := (byScore_perm order).mem_iff.mpr (same.mem_iff.mp known)
    rw [sorted, List.mem_append, List.mem_cons] at placed
    rcases placed with first | rfl | later
    · exact first
    · exact absurd higher (lt_irrefl _)
    · exact absurd higher (not_lt.mpr (descends.2.1.1 kept later))
  have many := (List.subperm_of_subset ((ranked.nodup_iff.mpr nodup).take) earlier).length_le
  have beyond := List.length_pos_of_mem left
  have few := length_best_le limit order
  rw [split] at few
  simp only [List.length_append, List.length_cons, List.length_take, List.length_drop] at *
  omega

theorem best_perm_of_clean (clean : CleanCut limit hits) (same : hits.Perm order)
    (nodup : hits.Nodup) : (best limit order).Perm ((ranking hits).take limit) := by
  have kept : (best limit order).Nodup :=
    ((byScore_perm order).nodup_iff.mpr (same.nodup_iff.mp nodup)).take
  refine (List.subperm_of_subset kept fun hit found =>
    best_subset_of_clean numeric clean same nodup found).perm_of_length_le ?_
  rw [best_eq, List.length_take, List.length_take, (byScore_perm order).length_eq,
    (ranking_perm hits).length_eq, same.length_eq]

-- The first of a list gives way only to higher scores, and of those there are too few to fill
-- the cut: all are within the limit, with the hit that is no higher.
theorem first_mem_best {kept left : Hit} {rest : List Hit} (same : hits.Perm (left :: rest))
    (nodup : hits.Nodup) (inside : kept ∈ (ranking hits).take limit)
    (outside : left ∈ (ranking hits).drop limit) (tied : ¬ left.score < kept.score) :
    left ∈ best limit (left :: rest) := by
  have ranked := ranking_perm hits
  have keptKnown := ranked.mem_iff.mp (List.mem_of_mem_take inside)
  have leftKnown := ranked.mem_iff.mp (List.mem_of_mem_drop outside)
  have level : left.scoreKey ≤ kept.scoreKey := not_lt.mp fun higher =>
    tied ((scoreKey_lt_iff numeric keptKnown leftKnown).mp higher)
  have descends := ranking_descends numeric
  rw [← List.take_append_drop limit (ranking hits), List.pairwise_append] at descends
  obtain ⟨before, after, sorted, higher⟩ :=
    stableSort_first (fun a b => compareScores a b == .lt) left rest
  have known : ∀ hit ∈ before, hit ∈ hits := fun hit member =>
    same.mem_iff.mpr ((byScore_perm _).mem_iff.mp (by simp [byScore, sorted, member]))
  have above : ∀ hit ∈ before, hit.scoreKey < left.scoreKey := fun hit member =>
    (compareScores_lt hit left (numeric hit (known hit member)) (numeric left leftKnown)).mp
      (higher hit member)
  have within : before ⊆ ((ranking hits).take limit).erase kept := by
    intro hit member
    have placed := ranked.mem_iff.mpr (known hit member)
    rw [← List.take_append_drop limit (ranking hits), List.mem_append] at placed
    have least := lt_of_lt_of_le (above hit member) level
    rcases placed with early | late
    · refine (List.mem_erase_of_ne ?_).mpr early
      rintro rfl
      exact lt_irrefl _ least
    · exact absurd least (not_lt.mpr (descends.2.2 kept inside hit late))
  have nodupBefore : before.Nodup := by
    have all := (byScore_perm (left :: rest)).nodup_iff.mpr (same.nodup_iff.mp nodup)
    rw [byScore, sorted] at all
    exact all.of_append_left
  have few := (List.subperm_of_subset nodupBefore within).length_le
  have some := List.length_pos_of_mem inside
  rw [List.length_erase_of_mem inside, List.length_take] at few
  rw [List.length_take] at some
  rw [best_eq, byScore, sorted]
  refine List.mem_take_iff_getElem.mpr ⟨before.length, ?_, by simp⟩
  simp only [List.length_append, List.length_cons]
  omega

include distinct

theorem rank_best_of_clean (clean : CleanCut limit hits) (same : hits.Perm order) :
    rank limit (best limit order) = rank limit hits := by
  have kept := best_perm_of_clean numeric clean same (nodup_of_distinct distinct)
  have fewer : ∀ hit ∈ best limit order, hit.Numeric := fun hit found =>
    numeric hit (same.mem_iff.mpr (mem_of_mem_best found))
  have own : ((best limit order).map source).Nodup := by
    have sources := (same.map source).nodup_iff.mp distinct
    have sorted := ((byScore_perm order).map source).nodup_iff.mpr sources
    rw [best_eq, List.map_take]
    exact sorted.take
  rw [rank_eq fewer, rank_eq numeric, ranking_eq_of_perm own fewer kept, ranking_take numeric,
    List.take_take, Nat.min_self]

theorem rank_best_ne {kept left : Hit} {rest : List Hit} (same : hits.Perm (left :: rest))
    (inside : kept ∈ (ranking hits).take limit) (outside : left ∈ (ranking hits).drop limit)
    (tied : ¬ left.score < kept.score) :
    rank limit (best limit (left :: rest)) ≠ rank limit hits := by
  intro agrees
  have nodup := nodup_of_distinct distinct
  have ranked := ranking_perm hits
  have found := first_mem_best numeric same nodup inside outside tied
  have fewer : ∀ hit ∈ best limit (left :: rest), hit.Numeric := fun hit member =>
    numeric hit (same.mem_iff.mpr (mem_of_mem_best member))
  have answered : left.rounded ∈ rank limit (best limit (left :: rest)) := by
    have few := length_best_le limit (left :: rest)
    rw [← (ranking_perm _).length_eq] at few
    rw [rank_eq fewer, List.take_of_length_le few]
    exact List.mem_map_of_mem ((ranking_perm _).mem_iff.mpr found)
  rw [agrees, rank_eq numeric] at answered
  obtain ⟨hit, early, rounds⟩ := List.mem_map.mp answered
  have origin : hit.rounded.source = left.rounded.source := congrArg source rounds
  have one := eq_of_source distinct (ranked.mem_iff.mp (List.mem_of_mem_take early))
    (ranked.mem_iff.mp (List.mem_of_mem_drop outside)) origin
  subst one
  exact List.disjoint_take_drop (ranked.nodup_iff.mpr nodup) (le_refl limit) early outside

/-- To cut before ranking changes nothing, in whatever order the hits come, exactly if the cut is
clean. -/
theorem rank_best_iff :
    (∀ order, hits.Perm order → rank limit (best limit order) = rank limit hits) ↔
      CleanCut limit hits := by
  constructor
  · intro agrees kept inside left outside
    by_contra tied
    have known := (ranking_perm hits).mem_iff.mp (List.mem_of_mem_drop outside)
    have same := List.perm_cons_erase known
    exact rank_best_ne numeric distinct same inside outside tied (agrees _ same)
  · intro clean order same
    exact rank_best_of_clean numeric distinct clean same

end

section Unscored

def scored (hit : Hit) : Bool := !hit.score.isNaN

theorem numeric_iff_scored (hit : Hit) : hit.Numeric ↔ hit.scored = true := by
  rw [Numeric, scored, Bool.not_eq_true']

theorem length_rank (limit : Nat) (hits : List Hit) :
    (rank limit hits).length = min limit (hits.countP scored) := by
  rw [rank, List.length_map, List.length_take, (stableSort_perm _ _).length_eq,
    List.countP_eq_length_filter]
  rfl

theorem countP_scored_add (hits : List Hit) :
    hits.countP scored + hits.countP (fun hit => !hit.scored) = hits.length := by
  simpa using (List.length_eq_countP_add_countP (p := scored) (l := hits)).symm

theorem countP_best_le (counted : Hit → Bool) (limit : Nat) (hits : List Hit) :
    (best limit hits).countP counted ≤ hits.countP counted := by
  rw [best_eq, ← (byScore_perm hits).countP_eq]
  exact (List.take_sublist _ _).countP_le

-- What the store keeps is a full cut; what is not scored in it is missing from the answer.
theorem length_rank_best (limit : Nat) (hits : List Hit) :
    (rank limit (best limit hits)).length + (best limit hits).countP (fun hit => !hit.scored) =
      min limit hits.length := by
  have parts := countP_scored_add (best limit hits)
  have few := length_best_le limit hits
  have full : (best limit hits).length = min limit hits.length := by
    rw [best_eq, List.length_take, (byScore_perm hits).length_eq]
  rw [length_rank]
  omega

/-- Each hit without a score can cost the answer one that has a score, and no more. Where all are
kept, or all have a score, none is lost. -/
theorem length_rank_best_bounds (limit : Nat) (hits : List Hit) :
    (rank limit (best limit hits)).length ≤ min limit (hits.countP scored) ∧
      min limit (hits.countP scored) ≤
        (rank limit (best limit hits)).length + hits.countP (fun hit => !hit.scored) ∧
      (hits.length ≤ limit ∨ hits.countP scored = hits.length →
        (rank limit (best limit hits)).length = min limit (hits.countP scored)) := by
  have parts := countP_scored_add hits
  have ranked := length_rank limit (best limit hits)
  have missing := length_rank_best limit hits
  have scoredKept := countP_best_le scored limit hits
  have unscoredKept := countP_best_le (fun hit => !hit.scored) limit hits
  omega

end Unscored

end Hit
end Corpora
