import Corpora.Order.StableSort
import Corpora.Search.Hit

/-!
The order in which hits are answered: by score from the highest, then by filename, then by chunk.
A hit whose score is not a number is left out, and scores are rounded to four places at the end.
-/

namespace Corpora.Hit

/-- How scores compare, the higher one first; a score that is not a number equals every other. -/
def compareScores (a b : Hit) : Ordering :=
  if b.score < a.score then .lt else if a.score < b.score then .gt else .eq

def compareRank (a b : Hit) : Ordering :=
  ((compareScores a b).then (compare a.filename b.filename)).then (compare a.chunk b.chunk)

def roundScore (score : Float) : Float := Number.roundHalfAway (score * 10000) / 10000

def rounded (hit : Hit) : Hit := { hit with score := roundScore hit.score }

/-- The best `limit` hits by score alone, equal ones in their old order. -/
def best (limit : Nat) (hits : List Hit) : List Hit :=
  (stableSort (fun a b => compareScores a b == .lt) hits).take limit

def rank (limit : Nat) (hits : List Hit) : List Hit :=
  ((stableSort (fun a b => compareRank a b == .lt)
    (hits.filter fun hit => !hit.score.isNaN)).take limit).map rounded

end Corpora.Hit
