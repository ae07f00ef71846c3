import Corpora.Proofs.Search.Answer

/-!
What a query selects from the chunks of its index, wherever they are kept. With a score for every
chunk it answers as many chunks as are wanted or as there are, each once and from the highest score
down, and leaves none with a higher score than one that it answers. Chunks of other indices play no
part.
-/

namespace Corpora

open Number (place)

structure Descending (scores values : List Float) : Prop where
  same : values.Perm scores
  descends : values.Pairwise fun earlier later => later ≤ earlier

/-- Scores have one descending order, as they compare: of equal ones either may come first. -/
theorem Descending.beq {scores one other : List Float} (first : Descending scores one)
    (second : Descending scores other) (numeric : ∀ score ∈ scores, score.isNaN = false) :
    List.Forall₂ (fun a b => (a == b) = true) one other := by
  have ordered {high low : Float} (order : low ≤ high) : place high ≥ place low :=
    ((Number.le_iff_place low high).mp order).2.2
  have places : one.map place = other.map place :=
    ((first.same.trans second.same.symm).map place).eq_of_pairwise'
      (List.pairwise_map.mpr (first.descends.imp ordered))
      (List.pairwise_map.mpr (second.descends.imp ordered))
  rw [← List.forall₂_eq_eq_eq, List.forall₂_map_left_iff, List.forall₂_map_right_iff,
    List.forall₂_iff_zip] at places
  refine List.forall₂_iff_zip.mpr ⟨places.1, fun {a b} paired => ?_⟩
  obtain ⟨fromOne, fromOther⟩ := List.of_mem_zip paired
  exact (Number.beq_iff_place a b).mpr ⟨numeric a (first.same.mem_iff.mp fromOne),
    numeric b (second.same.mem_iff.mp fromOther), places.2 paired⟩

theorem exists_descending_order {α : Type} {score : α → Float} {things : List α}
    (numeric : ∀ thing ∈ things, (score thing).isNaN = false) :
    ∃ order : List α, order.Perm things ∧
      order.Pairwise fun earlier later => score later ≤ score earlier := by
  let order := things.mergeSort fun earlier later => place (score later) ≤ place (score earlier)
  have same : order.Perm things := List.mergeSort_perm _ _
  have sorted : order.Pairwise fun earlier later => place (score later) ≤ place (score earlier) :=
    (List.pairwise_mergeSort (by simpa using fun _ _ _ first second => le_trans second first)
      (by simpa using fun _ _ => le_total _ _) things).imp of_decide_eq_true
  refine ⟨order, same, sorted.imp_of_mem ?_⟩
  intro earlier later first second above
  exact (Number.le_iff_place _ _).mpr
    ⟨numeric later (same.mem_iff.mp second), numeric earlier (same.mem_iff.mp first), above⟩

/-- Of scored things the highest, as many as are wanted or as there are, and from the highest down:
no score among those that are left is above one among those that are kept. -/
structure Highest {α : Type} (score : α → Float) (limit : Nat) (all kept left : List α) :
    Prop where
  parts : (kept ++ left).Perm all
  count : kept.length = min limit all.length
  descends : kept.Pairwise fun earlier later => score later ≤ score earlier
  above : ∀ inside ∈ kept, ∀ outside ∈ left, score outside ≤ score inside

namespace Highest

variable {α β : Type} {score : α → Float} {limit : Nat} {all kept left : List α}

theorem of_map {make : β → α} {sources : List β}
    (highest : Highest score limit (sources.map make) kept left) :
    ∃ keptSources leftSources, kept = keptSources.map make ∧
      Highest (fun source => score (make source)) limit sources keptSources leftSources := by
  obtain ⟨order, made, same⟩ : Relation.Comp (· = List.map make ·) List.Perm
      (kept ++ left) sources := by
    rw [List.eq_map_comp_perm]
    exact highest.parts
  obtain ⟨keptSources, leftSources, rfl, rfl, rfl⟩ := List.append_eq_map_iff.mp made
  refine ⟨keptSources, leftSources, rfl, same, ?_, List.pairwise_map.mp highest.descends, ?_⟩
  · have count := highest.count
    rwa [List.length_map, List.length_map] at count
  · intro inside keeps outside leaves
    exact highest.above _ (List.mem_map_of_mem keeps) _ (List.mem_map_of_mem leaves)

theorem exists_descending (highest : Highest score limit all kept left)
    (numeric : ∀ thing ∈ all, (score thing).isNaN = false) :
    ∃ values, Descending (all.map score) values ∧ kept.map score = values.take limit := by
  have numericLeft : ∀ thing ∈ left, (score thing).isNaN = false := fun thing leaves =>
    numeric thing (highest.parts.mem_iff.mp (List.mem_append_right _ leaves))
  -- The rest is put into order behind what is kept.
  obtain ⟨rest, restSame, restDescends⟩ := exists_descending_order numericLeft
  refine ⟨kept.map score ++ rest.map score, ⟨?_, ?_⟩, ?_⟩
  · rw [← List.map_append]
    exact ((restSame.append_left kept).trans highest.parts).map score
  · rw [← List.map_append, List.pairwise_map]
    apply List.pairwise_append.mpr ⟨highest.descends, restDescends, ?_⟩
    intro inside keeps outside leaves
    exact highest.above inside keeps outside (restSame.mem_iff.mp leaves)
  · have count := highest.count
    have total := highest.parts.length_eq
    have restCount := restSame.length_eq
    rw [List.length_append] at total
    rcases Nat.le_total limit all.length with full | short
    · rw [List.take_left' (by rw [List.length_map]; omega)]
    · have none : rest = [] := List.eq_nil_of_length_eq_zero (by omega)
      rw [none, List.map_nil, List.append_nil,
        List.take_of_length_le (by rw [List.length_map]; omega)]

end Highest

namespace Hit

variable {hits : List Hit} (numeric : ∀ hit ∈ hits, hit.Numeric)

include numeric

theorem score_le {a b : Hit} (first : a ∈ hits) (second : b ∈ hits)
    (order : a.scoreKey ≤ b.scoreKey) : b.score ≤ a.score :=
  (Number.le_iff_place _ _).mpr
    ⟨numeric b second, numeric a first, OrderDual.toDual_le_toDual.mp order⟩

theorem rank_best_eq (limit : Nat) :
    rank limit (best limit hits) = (ranking (best limit hits)).map rounded := by
  have few : (ranking (best limit hits)).length ≤ limit := by
    rw [(ranking_perm _).length_eq]
    exact length_best_le limit hits
  rw [rank_eq fun hit found => numeric hit (mem_of_mem_best found), List.take_of_length_le few]

theorem ranking_best_highest (limit : Nat) :
    Highest Hit.score limit hits (ranking (best limit hits)) ((byScore hits).drop limit) where
  parts := by
    refine ((ranking_perm _).append_right _).trans ?_
    rw [best_eq, List.take_append_drop]
    exact byScore_perm hits
  count := by
    rw [(ranking_perm _).length_eq, best_eq, List.length_take, (byScore_perm hits).length_eq]
  descends := by
    have known : ∀ hit ∈ ranking (best limit hits), hit ∈ hits := fun hit found =>
      mem_of_mem_best ((ranking_perm _).mem_iff.mp found)
    have fewer : ∀ hit ∈ best limit hits, hit.Numeric := fun hit found =>
      numeric hit (mem_of_mem_best found)
    exact (ranking_descends fewer).imp_of_mem fun first second order =>
      score_le numeric (known _ first) (known _ second) order
  above := by
    intro inside keeps outside leaves
    have early : inside ∈ (byScore hits).take limit := (ranking_perm _).mem_iff.mp keeps
    have descends := byScore_descends numeric
    rw [← List.take_append_drop limit (byScore hits), List.pairwise_append] at descends
    exact score_le numeric ((byScore_perm hits).mem_iff.mp (List.mem_of_mem_take early))
      ((byScore_perm hits).mem_iff.mp (List.mem_of_mem_drop leaves))
      (descends.2.2 inside early outside leaves)

end Hit

inductive ChunkChange where
  | add (index : String) (chunk : Chunk)
  | clear (index : String)

def ChunkChange.index : ChunkChange → String
  | add index _ => index
  | clear index => index

namespace ChunkBackend

/-- Makes a change; one that is refused changes nothing. -/
def apply (backend : ChunkBackend) : ChunkChange → ChunkBackend
  | .add index chunk =>
      match backend.add index chunk with
      | .ok after => after
      | .error _ => backend
  | .clear index => backend.clear index

variable {backend : ChunkBackend} {index : String}

theorem prepared_apply (prepared : backend.Prepared) (change : ChunkChange) :
    (backend.apply change).Prepared := by
  cases backend with
  | memory store => cases change <;> trivial
  | table rows => cases change <;> trivial
  | unprepared => exact prepared.elim

theorem chunksOf_upsert_other (table : ChunkTable) {other : String} (apart : other ≠ index)
    (chunk : Chunk) : (table.upsert other chunk).chunksOf index = table.chunksOf index := by
  rw [ChunkTable.chunksOf, ChunkTable.upsert, List.filter_append, List.filter_filter,
    List.filter_cons_of_neg (by simpa using apart), List.filter_nil, List.append_nil,
    ChunkTable.chunksOf]
  congr 1
  apply List.filter_congr
  intro row _
  by_cases same : row.index = index
  · simp [same, apart.symm]
  · simp [same]

theorem chunksOf_apply_other {change : ChunkChange} (apart : change.index ≠ index)
    (backend : ChunkBackend) :
    (backend.apply change).chunksOf index = backend.chunksOf index := by
  cases change with
  | add other chunk =>
      cases backend with
      | memory store => exact ChunkStore.chunksOf_add_other store apart.symm chunk
      | table rows => exact chunksOf_upsert_other rows apart chunk
      | unprepared => rfl
  | clear other =>
      cases backend with
      | memory store =>
          change ((store.indices.erase other).get? index).getD [] = store.chunksOf index
          have different : index ≠ other := Ne.symm apart
          rw [SortedMap.get?_erase, if_neg different, ChunkStore.chunksOf]
      | table rows => rfl
      | unprepared => rfl

theorem applyAll_others {changes : List ChunkChange}
    (others : ∀ change ∈ changes, change.index ≠ index) (prepared : backend.Prepared) :
    (changes.foldl apply backend).Prepared ∧
      (changes.foldl apply backend).chunksOf index = backend.chunksOf index := by
  induction changes generalizing backend with
  | nil => exact ⟨prepared, rfl⟩
  | cons change rest ih =>
      obtain ⟨still, same⟩ := ih (fun later member => others later (List.mem_cons_of_mem _ member))
        (prepared_apply prepared change)
      exact ⟨still, same.trans (chunksOf_apply_other (others change List.mem_cons_self) backend)⟩

end ChunkBackend

def Chunk.similarity (vector : Vector32) (chunk : Chunk) : Float :=
  (Vector32.cosine vector chunk.vector).widen

namespace QueryTool

variable {tool : QueryTool} {embed : List String → Attempt (List Vector32)} {query : String}
  {limit : Option Nat} {wanted : Wanted} {vector : Vector32} {backend other : ChunkBackend}

theorem invoke_over_congr (prepared : backend.Prepared) (preparedOther : other.Prepared)
    (same : other.chunksOf tool.index = backend.chunksOf tool.index) :
    tool.invoke (.over embed other) query limit = tool.invoke (.over embed backend) query limit := by
  have found : other.search tool.index = backend.search tool.index := by
    funext vector limit
    rw [ChunkBackend.search_prepared prepared, ChunkBackend.search_prepared preparedOther, same]
  simp only [invoke, conclude, Retrieval.embedQuery, Retrieval.over, found]

theorem rank_best_chunks {chunks : List Chunk}
    (scored : ∀ chunk ∈ chunks, chunk.scored vector = true) (limit : Nat) :
    ∃ kept left, Hit.rank limit (Hit.best limit (chunks.map (Chunk.hit vector))) =
        kept.map (fun chunk => (chunk.hit vector).rounded) ∧
      Highest (Chunk.similarity vector) limit chunks kept left := by
  have numeric := Chunk.numeric_hits scored
  obtain ⟨kept, left, ranked, highest⟩ := (Hit.ranking_best_highest numeric limit).of_map
  refine ⟨kept, left, ?_, highest⟩
  rw [Hit.rank_best_eq numeric, ranked, List.map_map]
  rfl

theorem check_eq_ok (tool : QueryTool) (said : (Text.trim query).isEmpty = false)
    (some : 1 ≤ limit.getD tool.defaultLimit) :
    tool.check query limit = .ok ⟨Text.trim query, limit.getD tool.defaultLimit⟩ := by
  rw [check, said, if_neg Bool.false_ne_true, if_neg (Nat.ne_of_gt some)]

theorem numeric_of_scored {chunks : List Chunk}
    (scored : ∀ chunk ∈ chunks, chunk.scored vector = true) :
    ∀ chunk ∈ chunks, (chunk.similarity vector).isNaN = false := by
  intro chunk known
  have scoredChunk := scored chunk known
  rw [Chunk.scored, Bool.not_eq_true'] at scoredChunk
  rw [Chunk.similarity, Element.widen_isNaN, scoredChunk]

theorem scores_highest {chunks kept left : List Chunk}
    (scored : ∀ chunk ∈ chunks, chunk.scored vector = true) {limit : Nat}
    (highest : Highest (Chunk.similarity vector) limit chunks kept left) :
    (∃ values, Descending (chunks.map (Chunk.similarity vector)) values ∧
      kept.map (Chunk.similarity vector) = values.take limit) ∧
    ∀ values, Descending (chunks.map (Chunk.similarity vector)) values →
      List.Forall₂ (fun score value => (score == value) = true)
        (kept.map (Chunk.similarity vector)) (values.take limit) := by
  obtain ⟨values, descending, start⟩ := highest.exists_descending (numeric_of_scored scored)
  refine ⟨⟨values, descending, start⟩, fun others alike => ?_⟩
  rw [start]
  refine List.forall₂_take _ (descending.beq alike fun score member => ?_)
  obtain ⟨chunk, known, rfl⟩ := List.mem_map.mp member
  exact numeric_of_scored scored chunk known

def twoShelves : ChunkStore :=
  (ChunkStore.empty.addAll "docs" (evenChunks ++ unevenChunks)).addAll "notes" unevenChunks

end QueryTool
end Corpora
