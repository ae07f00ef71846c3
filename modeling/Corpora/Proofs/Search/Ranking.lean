import Corpora.Proofs.Number.Comparison
import Corpora.Proofs.Order.SortByKey
import Corpora.Proofs.Order.StableSort
import Corpora.Search.Ranking

/-!
The ranking of hits, apart from how many of them are wanted. Where every score is a number hits
compare as keys do, by the place of the score and then by where they come from. A store cuts by
score alone, before the ranking; that cut is clean if it divides no two hits of one score.
-/

namespace Corpora.Hit

open Number (place)

def source (hit : Hit) : String × Int := (hit.filename, hit.chunk)

def Numeric (hit : Hit) : Prop := hit.score.isNaN = false

abbrev ScoreKey := (ℤ ×ₗ ℤ ×ₗ ℤ)ᵒᵈ

abbrev RankKey := ScoreKey ×ₗ String ×ₗ ℤ

def scoreKey (hit : Hit) : ScoreKey := OrderDual.toDual (place hit.score)

def rankKey (hit : Hit) : RankKey :=
  toLex (hit.scoreKey, toLex (hit.filename, hit.chunk))

theorem scoreKey_lt {a b : Hit} (left : a.Numeric) (right : b.Numeric) :
    a.scoreKey < b.scoreKey ↔ b.score < a.score := by
  have left : a.score.isNaN = false := left
  have right : b.score.isNaN = false := right
  rw [Number.lt_iff_place, left, right]
  simp only [true_and]
  exact OrderDual.toDual_lt_toDual

theorem compareScores_lt (a b : Hit) (left : a.Numeric) (right : b.Numeric) :
    (compareScores a b == .lt) = true ↔ a.scoreKey < b.scoreKey := by
  rw [scoreKey_lt left right, compareScores]
  split
  · next higher => simp [higher]
  · next other => split <;> simp [other]

theorem compareScores_eq (a b : Hit) (left : a.Numeric) (right : b.Numeric) :
    compareScores a b = .eq ↔ a.scoreKey = b.scoreKey := by
  have lower := scoreKey_lt left right
  have higher := scoreKey_lt right left
  rw [compareScores]
  split
  · next above => simp [ne_of_lt (lower.mpr above)]
  · next unbelow =>
    split
    · next below => simp [ne_of_gt (higher.mpr below)]
    · next unabove =>
      simpa using le_antisymm (not_lt.mp fun less => unabove (higher.mp less))
        (not_lt.mp fun less => unbelow (lower.mp less))

theorem compareRank_lt (a b : Hit) (left : a.Numeric) (right : b.Numeric) :
    (compareRank a b == .lt) = true ↔ a.rankKey < b.rankKey := by
  have scores := compareScores_lt a b left right
  have ties := compareScores_eq a b left right
  have names : compare a.filename b.filename = .lt ↔ a.filename < b.filename :=
    compareOfLessAndEq_eq_lt
  have sameNames : compare a.filename b.filename = .eq ↔ a.filename = b.filename :=
    Std.compare_eq_iff_eq
  rw [beq_iff_eq] at scores ⊢
  rw [compareRank, Ordering.then_eq_lt, Ordering.then_eq_lt, Ordering.then_eq_eq, scores, ties,
    names, sameNames, compare_lt_iff_lt, rankKey, rankKey, Prod.Lex.toLex_lt_toLex,
    Prod.Lex.toLex_lt_toLex]
  dsimp only
  rw [or_assoc, and_assoc, ← and_or_left]

def ranking (hits : List Hit) : List Hit := stableSort (fun a b => compareRank a b == .lt) hits

theorem ranking_perm (hits : List Hit) : (ranking hits).Perm hits := stableSort_perm _ hits

section Numeric

variable {hits : List Hit} (numeric : ∀ hit ∈ hits, hit.Numeric)

include numeric

theorem rank_eq (limit : Nat) : rank limit hits = ((ranking hits).take limit).map rounded := by
  have kept : hits.filter (fun hit => !hit.score.isNaN) = hits := by
    refine List.filter_eq_self.mpr fun hit member => ?_
    have number : hit.score.isNaN = false := numeric hit member
    rw [number]
    rfl
  rw [rank, kept, ranking]

theorem ranking_ascending :
    (ranking hits).Pairwise fun earlier later => earlier.rankKey ≤ later.rankKey :=
  stableSort_ascending compareRank_lt numeric

theorem ranking_descends :
    (ranking hits).Pairwise fun earlier later => earlier.scoreKey ≤ later.scoreKey :=
  (ranking_ascending numeric).imp fun order => Prod.Lex.monotone_fst _ _ order

theorem ranking_take (limit : Nat) :
    ranking ((ranking hits).take limit) = (ranking hits).take limit := by
  have known : ∀ hit ∈ (ranking hits).take limit, hit.Numeric := fun hit member =>
    numeric hit ((ranking_perm hits).mem_iff.mp (List.mem_of_mem_take member))
  refine stableSort_of_ascending _ ?_
  refine ((ranking_ascending numeric).sublist (List.take_sublist _ _)).imp_of_mem ?_
  intro earlier later first second order
  rw [← Bool.not_eq_true, compareRank_lt later earlier (known later second) (known earlier first)]
  exact not_lt.mpr order

end Numeric

section Distinct

variable {hits : List Hit} (distinct : (hits.map source).Nodup)

include distinct

theorem eq_of_source {a b : Hit} (first : a ∈ hits) (second : b ∈ hits)
    (same : a.source = b.source) : a = b :=
  List.inj_on_of_nodup_map distinct first second same

theorem nodup_of_distinct : hits.Nodup := List.Nodup.of_map source distinct

theorem ranking_eq_of_perm (numeric : ∀ hit ∈ hits, hit.Numeric) {order : List Hit}
    (same : hits.Perm order) : ranking hits = ranking order := by
  refine stableSort_eq_of_perm compareRank_lt same numeric fun a first b second sameKey => ?_
  apply eq_of_source distinct first second
  have places := congrArg (fun key => ofLex (ofLex key).2) sameKey
  exact places

end Distinct

end Corpora.Hit
