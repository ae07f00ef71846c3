import Corpora.Proofs.Number.Rounding
import Corpora.Proofs.Search.Cut

/-!
The one order of the hits that have a score. Of two such hits from different places one precedes the
other, by score, then by filename, then by chunk, so that they can be put into order in one way
alone. An answer is the start of that order, whatever order the hits came in.
-/

namespace Corpora.Hit

/-- A hit stands before another one by its higher score; at equal scores, as which the two zeros
count, by its filename and within one file by its chunk. -/
def Precedes (a b : Hit) : Prop :=
  b.score < a.score ∨ (a.score == b.score) = true ∧
    (a.filename < b.filename ∨ a.filename = b.filename ∧ a.chunk < b.chunk)

theorem precedes_iff {a b : Hit} (left : a.Numeric) (right : b.Numeric) :
    a.Precedes b ↔ a.rankKey < b.rankKey := by
  have numericLeft : a.score.isNaN = false := left
  have numericRight : b.score.isNaN = false := right
  have level : (a.score == b.score) = true ↔ a.scoreKey = b.scoreKey := by
    rw [Number.beq_iff_place, numericLeft, numericRight]
    simp only [true_and]
    exact OrderDual.toDual_inj.symm
  rw [Precedes, ← scoreKey_lt left right, level, rankKey, rankKey, Prod.Lex.toLex_lt_toLex,
    Prod.Lex.toLex_lt_toLex]

/-- The hits that have a score, each of them before those that it precedes. -/
structure Ordered (hits ordered : List Hit) : Prop where
  same : ordered.Perm (hits.filter scored)
  precede : ordered.Pairwise Precedes

theorem numeric_of_mem_scored {hits : List Hit} {hit : Hit} (member : hit ∈ hits.filter scored) :
    hit.Numeric :=
  (numeric_iff_scored hit).mpr (List.mem_filter.mp member).2

theorem Ordered.unique {hits one other : List Hit} (first : Ordered hits one)
    (second : Ordered hits other) : one = other := by
  refine List.Perm.eq_of_pairwise ?_ first.precede second.precede
    (first.same.trans second.same.symm)
  intro a b inOne inOther before behind
  have left := numeric_of_mem_scored (first.same.mem_iff.mp inOne)
  have right := numeric_of_mem_scored (second.same.mem_iff.mp inOther)
  exact absurd ((precedes_iff left right).mp before)
    (lt_asymm ((precedes_iff right left).mp behind))

theorem Ordered.of_perm {hits order ordered : List Hit} (same : hits.Perm order)
    (sorted : Ordered hits ordered) : Ordered order ordered :=
  ⟨sorted.same.trans (same.filter scored), sorted.precede⟩

theorem ranking_ordered {hits : List Hit} (distinct : (hits.map source).Nodup) :
    Ordered hits (ranking (hits.filter scored)) := by
  have same := ranking_perm (hits.filter scored)
  have numeric : ∀ hit ∈ hits.filter scored, hit.Numeric := fun _ => numeric_of_mem_scored
  have own : ((hits.filter scored).map rankKey).Nodup := by
    apply List.Nodup.of_map fun key => ofLex (ofLex key).2
    rw [List.map_map]
    exact distinct.sublist (List.filter_sublist.map source)
  refine ⟨same, (stableSort_strict compareRank_lt numeric own).imp_of_mem ?_⟩
  intro earlier later first second lower
  exact (precedes_iff (numeric _ (same.mem_iff.mp first)) (numeric _ (same.mem_iff.mp second))).mpr
    lower

/-- A hit with its score to four places: ten thousand times the score is rounded to a whole number,
a half away from zero, and divided by ten thousand again. -/
structure ToFourPlaces (hit rounded : Hit) : Prop where
  source : rounded.source = hit.source
  content : rounded.content = hit.content
  score : ∃ whole, Number.HalfAway (hit.score * 10000) whole ∧ rounded.score = whole / 10000

theorem toFourPlaces_iff {hit other : Hit} : hit.ToFourPlaces other ↔ hit.rounded = other := by
  have found := Number.halfAway_roundHalfAway (hit.score * 10000)
  constructor
  · rintro ⟨place, content, whole, near, score⟩
    rw [near.unique found] at score
    obtain ⟨filename, chunk⟩ := Prod.mk.inj place
    cases other
    cases filename
    cases chunk
    cases content
    cases score
    rfl
  · rintro rfl
    exact ⟨rfl, rfl, _, found, rfl⟩

theorem forall₂_toFourPlaces_iff {hits answer : List Hit} :
    hits.Forall₂ ToFourPlaces answer ↔ hits.map rounded = answer := by
  have told : ToFourPlaces = fun hit other => hit.rounded = other :=
    funext₂ fun _ _ => propext toFourPlaces_iff
  rw [told, ← @List.forall₂_map_left_iff _ _ _ Eq, List.forall₂_eq_eq_eq]

theorem rank_ordered {hits ordered : List Hit} (distinct : (hits.map source).Nodup)
    (sorted : Ordered hits ordered) (limit : Nat) :
    rank limit hits = (ordered.take limit).map rounded := by
  rw [sorted.unique (ranking_ordered distinct)]
  rfl

/-- Hits from different places have one order, which does not depend on the order in which they
come, and as many as are wanted or as have a score are answered from the start of it, each with its
score to four places. To want fewer is to cut the answer short. -/
theorem rank_canonical {hits : List Hit} (distinct : (hits.map source).Nodup) :
    (∀ order, hits.Perm order → ∀ limit, rank limit order = rank limit hits) ∧
    (∃ ordered, Ordered hits ordered ∧ (∀ other, Ordered hits other → other = ordered) ∧
      ∀ limit, (rank limit hits).length = min limit (hits.countP scored) ∧
        ∀ answer, (ordered.take (min limit (hits.countP scored))).Forall₂ ToFourPlaces answer ↔
          rank limit hits = answer) ∧
    ∀ fewer limit, fewer ≤ limit → rank fewer hits <+: rank limit hits := by
  have sorted := ranking_ordered distinct
  refine ⟨?_, ⟨_, sorted, fun other inOrder => inOrder.unique sorted, ?_⟩, ?_⟩
  · intro order same limit
    have distinctOrder := (same.map source).nodup_iff.mp distinct
    rw [rank_ordered distinctOrder (sorted.of_perm same), rank_ordered distinct sorted]
  · intro limit
    have whole : (ranking (hits.filter scored)).length = hits.countP scored := by
      rw [sorted.same.length_eq, List.countP_eq_length_filter]
    refine ⟨length_rank limit hits, fun answer => ?_⟩
    rw [rank_ordered distinct sorted, ← whole, ← List.take_eq_take_min, forall₂_toFourPlaces_iff]
  · intro fewer limit few
    rw [rank_ordered distinct sorted, rank_ordered distinct sorted]
    exact (List.take_prefix_take_left few).map rounded

/-- Both infinities, both zeros, a score between two of four places, and a hit without a score. -/
def mixedHits : List Hit :=
  [⟨"b.md", 1, "b", -0.0⟩, ⟨"n.md", 0, "n", 0.0 / 0.0⟩, ⟨"a.md", 0, "a", -1.0 / 0.0⟩,
    ⟨"b.md", 0, "b", 0.0⟩, ⟨"c.md", 0, "c", 1.0 / 0.0⟩, ⟨"d.md", 0, "d", 0.123456⟩]

theorem mixed_hits_ranked :
    (mixedHits.map source).Nodup ∧
      rank 3 mixedHits.reverse = rank 3 mixedHits ∧
      (rank 4 mixedHits).map source = [("c.md", 0), ("d.md", 0), ("b.md", 0), ("b.md", 1)] ∧
      (rank 4 mixedHits).map score = [1.0 / 0.0, 0.1235, 0.0, -0.0] ∧
      (rank 9 mixedHits).length = 5 ∧ rank 3 mixedHits <+: rank 9 mixedHits := by
  have distinct : (mixedHits.map source).Nodup := by decide
  obtain ⟨forgets, ⟨ordered, -, -, start⟩, cut⟩ := rank_canonical distinct
  have some : mixedHits.countP scored = 5 := by decide +kernel
  refine ⟨distinct, forgets _ (List.reverse_perm _).symm 3, by decide +kernel, by decide +kernel,
    ?_, cut 3 9 (by decide)⟩
  rw [(start 9).1, some]
  rfl

end Corpora.Hit
