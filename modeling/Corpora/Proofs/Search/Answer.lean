import Corpora.Proofs.Number.NotANumber
import Corpora.Proofs.Search.Cut
import Corpora.Proofs.SortedMap
import Corpora.Search.Backend
import Corpora.Tools.Query

/-!
What a query over chunks in memory answers. The ranking of all chunks is answered for every order
in which they were added exactly if the cut of the store is clean; otherwise the first of them to
be added wins. A chunk whose similarity is not a number can cost the answer one that has one.
-/

namespace Corpora

namespace ChunkStore

theorem chunksOf_add (store : ChunkStore) (index : String) (chunk : Chunk) :
    (store.add index chunk).chunksOf index = store.chunksOf index ++ [chunk] := by
  rw [chunksOf, add, SortedMap.get?_insert_self, Option.getD_some]

theorem chunksOf_add_other (store : ChunkStore) {index other : String} (apart : other ≠ index)
    (chunk : Chunk) : (store.add index chunk).chunksOf other = store.chunksOf other := by
  rw [chunksOf, add, SortedMap.get?_insert_of_ne _ _ apart, chunksOf]

def addAll (store : ChunkStore) (index : String) (chunks : List Chunk) : ChunkStore :=
  chunks.foldl (fun store chunk => store.add index chunk) store

theorem chunksOf_addAll (store : ChunkStore) (index : String) (chunks : List Chunk) :
    (store.addAll index chunks).chunksOf index = store.chunksOf index ++ chunks := by
  induction chunks generalizing store with
  | nil => exact (List.append_nil _).symm
  | cons chunk chunks ih =>
      rw [addAll, List.foldl_cons, ← addAll, ih, chunksOf_add, List.append_assoc,
        List.singleton_append]

end ChunkStore

namespace Chunk

def source (chunk : Chunk) : String × Int := (chunk.filename, chunk.number)

def scored (query : Vector32) (chunk : Chunk) : Bool :=
  !(Vector32.cosine query chunk.vector).value.isNaN

theorem hit_scored (query : Vector32) (chunk : Chunk) :
    (chunk.hit query).scored = chunk.scored query := by
  rw [Hit.scored, hit, Element.widen_isNaN, scored]

theorem numeric_hits {query : Vector32} {chunks : List Chunk}
    (scored : ∀ chunk ∈ chunks, chunk.scored query = true) :
    ∀ hit ∈ chunks.map (Chunk.hit query), hit.Numeric := by
  intro hit member
  obtain ⟨chunk, known, rfl⟩ := List.mem_map.mp member
  rw [Hit.numeric_iff_scored, hit_scored]
  exact scored chunk known

theorem countP_hit_scored (query : Vector32) (chunks : List Chunk) :
    (chunks.map (Chunk.hit query)).countP Hit.scored = chunks.countP (scored query) := by
  rw [List.countP_map]
  exact List.countP_congr fun chunk _ => by rw [Function.comp_apply, hit_scored]

end Chunk

namespace ChunkBackend

def chunksOf : ChunkBackend → String → List Chunk
  | memory store, index => store.chunksOf index
  | table rows, index => rows.chunksOf index
  | unprepared, _ => []

/-- Chunks can be kept: there is a store in memory, or a database with its table. -/
def Prepared : ChunkBackend → Prop
  | unprepared => False
  | memory _ | table _ => True

theorem search_prepared {backend : ChunkBackend} (prepared : backend.Prepared) (index : String)
    (vector : Vector32) (limit : Nat) :
    backend.search index vector limit =
      .ok (Hit.best limit ((backend.chunksOf index).map (Chunk.hit vector))) := by
  cases backend with
  | memory store => rfl
  | table rows => rfl
  | unprepared => exact prepared.elim

end ChunkBackend

def Retrieval.over (embed : List String → Attempt (List Vector32)) (backend : ChunkBackend) :
    Retrieval :=
  ⟨embed, backend.search⟩

def Retrieval.inMemory (embed : List String → Attempt (List Vector32)) (store : ChunkStore) :
    Retrieval :=
  ⟨embed, (ChunkBackend.memory store).search⟩

namespace QueryTool

variable {tool : QueryTool} {embed : List String → Attempt (List Vector32)} {query : String}
  {limit : Option Nat} {wanted : Wanted} {vector : Vector32}

theorem invoke_over
    (checked : tool.check query limit = .ok wanted)
    (embedded : (embed [wanted.query]).bind Embedding.firstVector = .ok vector)
    {backend : ChunkBackend} (prepared : backend.Prepared) :
    tool.invoke (.over embed backend) query limit =
      .ok ⟨tool.index, wanted.query, Hit.rank wanted.limit
        (Hit.best wanted.limit ((backend.chunksOf tool.index).map (Chunk.hit vector)))⟩ := by
  have vectorOf : (Retrieval.over embed backend).embedQuery wanted.query = .ok vector := embedded
  have found : (Retrieval.over embed backend).search tool.index vector wanted.limit =
      .ok (Hit.best wanted.limit ((backend.chunksOf tool.index).map (Chunk.hit vector))) :=
    ChunkBackend.search_prepared prepared _ _ _
  rw [invoke, checked]
  simp only [bind, Except.bind, conclude, vectorOf, found, Attempt.internal, Except.mapError]
  rfl

theorem invoke_inMemory
    (checked : tool.check query limit = .ok wanted)
    (embedded : (embed [wanted.query]).bind Embedding.firstVector = .ok vector)
    (store : ChunkStore) :
    tool.invoke (.inMemory embed store) query limit =
      .ok ⟨tool.index, wanted.query, Hit.rank wanted.limit
        (Hit.best wanted.limit ((store.chunksOf tool.index).map (Chunk.hit vector)))⟩ :=
  invoke_over checked embedded (show (ChunkBackend.memory store).Prepared from trivial)

/-- A query answers the ranking of all chunks, whatever the order in which they were added,
exactly if the cut at its limit divides no two hits of one score. -/
theorem answer_forgets_order_iff
    (checked : tool.check query limit = .ok wanted)
    (embedded : (embed [wanted.query]).bind Embedding.firstVector = .ok vector)
    {chunks : List Chunk} (distinct : (chunks.map Chunk.source).Nodup)
    (scored : ∀ chunk ∈ chunks, chunk.scored vector = true) :
    (∀ order, chunks.Perm order → ∀ store : ChunkStore, store.chunksOf tool.index = [] →
      tool.invoke (.inMemory embed (store.addAll tool.index order)) query limit =
        .ok ⟨tool.index, wanted.query,
          Hit.rank wanted.limit (chunks.map (Chunk.hit vector))⟩) ↔
      Hit.CleanCut wanted.limit (chunks.map (Chunk.hit vector)) := by
  have numeric := Chunk.numeric_hits scored
  have apart : ((chunks.map (Chunk.hit vector)).map Hit.source).Nodup := by
    rw [List.map_map]
    exact distinct
  rw [← Hit.rank_best_iff numeric apart]
  constructor
  · intro agrees order same
    obtain ⟨chunkOrder, rfl, sameChunks⟩ : Relation.Comp (· = List.map (Chunk.hit vector) ·)
        List.Perm order chunks := by
      rw [List.eq_map_comp_perm]
      exact same.symm
    have answered := agrees chunkOrder sameChunks.symm .empty rfl
    rw [invoke_inMemory checked embedded, ChunkStore.chunksOf_addAll] at answered
    exact congrArg QueryAnswer.results (Except.ok.inj answered)
  · intro agrees order same store fresh
    rw [invoke_inMemory checked embedded, ChunkStore.chunksOf_addAll, fresh, List.nil_append,
      agrees _ (same.map _)]

def docsTool : QueryTool := .new "docs" "" 5

def across : Vector32 := [.ofFloat32 1, .ofFloat32 0]

def along : Vector32 := [.ofFloat32 0, .ofFloat32 1]

def nowhere : Vector32 := [⟨0x7FC00000⟩, .ofFloat32 1]

def embedAcross (texts : List String) : Attempt (List Vector32) := .ok (texts.map fun _ => across)

def filenamesFor (limit : Nat) (chunks : List Chunk) : Answered (List String) :=
  (docsTool.invoke (.inMemory embedAcross (ChunkStore.empty.addAll "docs" chunks)) "q"
    (some limit)).map fun answer => answer.results.map Hit.filename

def evenChunks : List Chunk := [⟨"b.md", 0, "b", across⟩, ⟨"a.md", 0, "a", across⟩]

def unevenChunks : List Chunk := [⟨"b.md", 0, "b", along⟩, ⟨"a.md", 0, "a", across⟩]

def unscoredFirst : List Chunk := [⟨"n.md", 0, "n", nowhere⟩, ⟨"a.md", 0, "a", across⟩]

theorem uneven_answer_forgets_order :
    Hit.CleanCut 1 (unevenChunks.map (Chunk.hit across)) ∧
      docsTool.invoke (.inMemory embedAcross (ChunkStore.empty.addAll "docs" unevenChunks.reverse))
          "q" (some 1) =
        .ok ⟨"docs", "q", Hit.rank 1 (unevenChunks.map (Chunk.hit across))⟩ := by
  have checked : docsTool.check "q" (some 1) = .ok ⟨"q", 1⟩ := by decide
  have embedded : (embedAcross ["q"]).bind Embedding.firstVector = .ok across := rfl
  have distinct : (unevenChunks.map Chunk.source).Nodup := by decide
  have scored : ∀ chunk ∈ unevenChunks, chunk.scored across = true := by decide +kernel
  have clean : Hit.CleanCut 1 (unevenChunks.map (Chunk.hit across)) := by decide +kernel
  have agrees := (answer_forgets_order_iff checked embedded distinct scored).mpr clean
  exact ⟨clean, agrees _ (List.reverse_perm _).symm .empty rfl⟩

/-- Two chunks of one score: with room for one, it is the first that was added. -/
theorem even_answer_keeps_order :
    (evenChunks.map Chunk.source).Nodup ∧
      (∀ chunk ∈ evenChunks, chunk.scored across = true) ∧
      filenamesFor 1 evenChunks = .ok ["b.md"] ∧
      filenamesFor 1 evenChunks.reverse = .ok ["a.md"] := by
  decide +kernel

/-- A query answers no more hits than there are chunks with a score, and falls short by no more
than there are chunks without. It answers all that are wanted if every chunk has a score or the
limit leaves none out. -/
theorem answer_length_bounds
    (checked : tool.check query limit = .ok wanted)
    (embedded : (embed [wanted.query]).bind Embedding.firstVector = .ok vector)
    (store : ChunkStore) :
    ∃ answer, tool.invoke (.inMemory embed store) query limit = .ok answer ∧
      let chunks := store.chunksOf tool.index
      let scored := chunks.countP (Chunk.scored vector)
      answer.results.length ≤ min wanted.limit scored ∧
      min wanted.limit scored ≤ answer.results.length + (chunks.length - scored) ∧
      (chunks.length ≤ wanted.limit ∨ scored = chunks.length →
        answer.results.length = min wanted.limit scored) := by
  refine ⟨_, invoke_inMemory checked embedded store, ?_⟩
  have bounds := Hit.length_rank_best_bounds wanted.limit
    ((store.chunksOf tool.index).map (Chunk.hit vector))
  have parts := Hit.countP_scored_add ((store.chunksOf tool.index).map (Chunk.hit vector))
  rw [Chunk.countP_hit_scored, List.length_map] at bounds parts
  dsimp only
  omega

theorem unscored_answer_length :
    ∃ answer, docsTool.invoke
        (.inMemory embedAcross (ChunkStore.empty.addAll "docs" unscoredFirst)) "q" (some 2) =
          .ok answer ∧ answer.results.length = 1 := by
  have checked : docsTool.check "q" (some 2) = .ok ⟨"q", 2⟩ := by decide
  have embedded : (embedAcross ["q"]).bind Embedding.firstVector = .ok across := rfl
  have chunks : (ChunkStore.empty.addAll "docs" unscoredFirst).chunksOf docsTool.index =
      unscoredFirst := ChunkStore.chunksOf_addAll .empty "docs" unscoredFirst
  have scored : unscoredFirst.countP (Chunk.scored across) = 1 := by decide +kernel
  obtain ⟨answer, answered, bounds⟩ := answer_length_bounds checked embedded
    (ChunkStore.empty.addAll "docs" unscoredFirst)
  rw [chunks] at bounds
  dsimp only at bounds
  rw [scored] at bounds
  exact ⟨answer, answered, bounds.2.2 (Or.inl (by decide))⟩

/-- A chunk without a score can keep out the only one that has a score. -/
theorem unscored_chunk_hides :
    unscoredFirst.countP (Chunk.scored across) = 1 ∧ filenamesFor 1 unscoredFirst = .ok [] := by
  decide +kernel

end QueryTool
end Corpora
