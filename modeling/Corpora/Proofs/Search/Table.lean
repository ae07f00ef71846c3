import Corpora.Proofs.Search.Selection
import Corpora.Proofs.Vector.Blob

/-!
A table of chunks as a map. Under every index it has the chunk of the last write of each file and
number and no other, and a search with room for all of them answers each once, with the text and
the vector that were written.
-/

namespace Corpora

theorem ChunkTable.chunksOf_upsert (table : ChunkTable) (index : String) (chunk : Chunk) :
    (table.upsert index chunk).chunksOf index =
      (table.chunksOf index).filter (fun other => other.source != chunk.source) ++ [chunk] := by
  have written : (ChunkRow.mk index chunk.filename chunk.number chunk.content
      chunk.vector.toBlob).chunk = chunk := by
    rw [ChunkRow.chunk, Vector32.ofBlob_toBlob]
  rw [chunksOf, upsert, List.filter_append, List.map_append, List.filter_filter,
    List.filter_cons_of_pos (by simp), List.filter_nil, List.map_singleton, written, chunksOf,
    List.filter_map, List.filter_filter]
  congr 2
  apply List.filter_congr
  intro row _
  rw [Bool.eq_iff_iff]
  simp only [Bool.and_eq_true, Bool.not_eq_true', Bool.and_eq_false_iff, beq_iff_eq,
    beq_eq_false_iff_ne, bne_iff_ne, Function.comp_apply, Chunk.source, ChunkRow.chunk, ne_eq,
    Prod.mk.injEq]
  tauto

structure ChunkWrite where
  index : String
  chunk : Chunk

namespace ChunkWrite

def Of (write : ChunkWrite) (index : String) (source : String × Int) : Prop :=
  write.index = index ∧ write.chunk.source = source

instance (write : ChunkWrite) (index : String) (source : String × Int) :
    Decidable (write.Of index source) :=
  inferInstanceAs (Decidable (_ ∧ _))

/-- The chunk of the last write of a file and number under an index. -/
def last? (writes : List ChunkWrite) (index : String) (source : String × Int) : Option Chunk :=
  ((writes.filter fun write => write.Of index source).getLast?).map chunk

theorem last?_concat (writes : List ChunkWrite) (write : ChunkWrite) (index : String)
    (source : String × Int) :
    last? (writes ++ [write]) index source =
      if write.Of index source then some write.chunk else last? writes index source := by
  rw [last?, List.filter_append]
  by_cases same : write.Of index source
  · rw [if_pos same, List.filter_cons_of_pos (by simpa using same), List.filter_nil,
      List.getLast?_concat, Option.map_some]
  · rw [if_neg same, List.filter_cons_of_neg (by simpa using same), List.filter_nil,
      List.append_nil, last?]

theorem mem_of_last? {writes : List ChunkWrite} {index : String} {source : String × Int}
    {chunk : Chunk} (last : last? writes index source = some chunk) :
    ∃ write ∈ writes, write.Of index source ∧ write.chunk = chunk := by
  obtain ⟨write, found, rfl⟩ := Option.map_eq_some_iff.mp last
  obtain ⟨member, kept⟩ := List.mem_filter.mp (List.mem_of_getLast? found)
  exact ⟨write, member, of_decide_eq_true kept, rfl⟩

theorem source_of_last? {writes : List ChunkWrite} {index : String} {source : String × Int}
    {chunk : Chunk} (last : last? writes index source = some chunk) : chunk.source = source := by
  obtain ⟨write, -, same, rfl⟩ := mem_of_last? last
  exact same.2

theorem exists_last?_iff {writes : List ChunkWrite} {index : String} {source : String × Int} :
    (∃ chunk, last? writes index source = some chunk) ↔
      ∃ write ∈ writes, write.Of index source := by
  have none : last? writes index source = none ↔ ∀ write ∈ writes, ¬write.Of index source := by
    rw [last?, Option.map_eq_none_iff, List.getLast?_eq_none_iff, List.filter_eq_nil_iff]
    simp only [decide_eq_true_eq]
  rw [← Option.ne_none_iff_exists', ne_eq, none]
  push Not
  rfl

end ChunkWrite

/-- A table has under each index the chunks of the last writes, each file and number once. -/
structure ChunkTable.Keeps (table : ChunkTable) (writes : List ChunkWrite) : Prop where
  distinct : ∀ index, ((table.chunksOf index).map Chunk.source).Nodup
  mem_iff : ∀ index chunk,
    chunk ∈ table.chunksOf index ↔ ChunkWrite.last? writes index chunk.source = some chunk

namespace ChunkTable

theorem keeps_empty : empty.Keeps [] where
  distinct _ := List.nodup_nil
  mem_iff _ _ := ⟨nofun, nofun⟩

-- A write takes the chunk of its own file and number out and puts the new one in; under another
-- index, and for another file or number, the last write is the one that it was.
theorem Keeps.upsert {table : ChunkTable} {writes : List ChunkWrite} (keeps : table.Keeps writes)
    (write : ChunkWrite) :
    (table.upsert write.index write.chunk).Keeps (writes ++ [write]) where
  distinct index := by
    by_cases same : write.index = index
    · subst same
      rw [chunksOf_upsert, List.map_append, List.map_singleton]
      refine ((keeps.distinct write.index).sublist (List.filter_sublist.map Chunk.source)).append
        (List.nodup_singleton _) (List.disjoint_singleton.mpr fun again => ?_)
      obtain ⟨other, kept, named⟩ := List.mem_map.mp again
      exact bne_iff_ne.mp (List.mem_filter.mp kept).2 named
    · rw [ChunkBackend.chunksOf_upsert_other table same]
      exact keeps.distinct index
  mem_iff index chunk := by
    rw [ChunkWrite.last?_concat]
    by_cases same : write.index = index
    · subst same
      rw [chunksOf_upsert, List.mem_append, List.mem_singleton, List.mem_filter, bne_iff_ne]
      by_cases named : write.chunk.source = chunk.source
      · rw [if_pos ⟨rfl, named⟩, Option.some.injEq]
        exact ⟨fun member => member.elim (fun kept => (kept.2 named.symm).elim) Eq.symm,
          fun same => Or.inr same.symm⟩
      · rw [if_neg fun both => named both.2, ← keeps.mem_iff]
        have other : chunk ≠ write.chunk := fun same => named (congrArg Chunk.source same).symm
        exact ⟨fun member => member.elim And.left fun same => (other same).elim,
          fun kept => Or.inl ⟨kept, Ne.symm named⟩⟩
    · rw [ChunkBackend.chunksOf_upsert_other table same, if_neg fun both => same both.1]
      exact keeps.mem_iff index chunk

end ChunkTable

theorem Hit.best_all {limit : Nat} {hits : List Hit} (room : hits.length ≤ limit) :
    (best limit hits).Perm hits ∧
      ((∀ hit ∈ hits, hit.Numeric) →
        (best limit hits).Pairwise fun earlier later => later.score ≤ earlier.score) := by
  have sorted := byScore_perm hits
  rw [best_eq, List.take_of_length_le (sorted.length_eq.trans_le room)]
  refine ⟨sorted, fun numeric => (byScore_descends numeric).imp_of_mem ?_⟩
  intro earlier later first second order
  exact score_le numeric (sorted.mem_iff.mp first) (sorted.mem_iff.mp second) order

namespace ChunkTable

variable {table : ChunkTable} {index : String} {query : Vector32} {limit : Nat}
  (room : (table.chunksOf index).length ≤ limit)

include room

theorem search_all :
    (table.search index query limit).Perm ((table.chunksOf index).map (Chunk.hit query)) ∧
      ((∀ chunk ∈ table.chunksOf index, chunk.scored query = true) →
        (table.search index query limit).Pairwise
          fun earlier later => later.score ≤ earlier.score) := by
  rw [← List.length_map (Chunk.hit query)] at room
  obtain ⟨same, descends⟩ := Hit.best_all room
  exact ⟨same, fun scored => descends (Chunk.numeric_hits scored)⟩

variable {writes : List ChunkWrite} (keeps : table.Keeps writes)

include keeps

theorem Keeps.nodup_search : ((table.search index query limit).map Hit.source).Nodup := by
  rw [((search_all room).1.map Hit.source).nodup_iff, List.map_map]
  exact keeps.distinct index

theorem Keeps.mem_search (hit : Hit) :
    hit ∈ table.search index query limit ↔
      ∃ chunk, ChunkWrite.last? writes index hit.source = some chunk ∧
        hit.content = chunk.content ∧ hit.score = (Vector32.cosine query chunk.vector).widen := by
  rw [(search_all room).1.mem_iff, List.mem_map]
  refine exists_congr fun chunk => ?_
  rw [keeps.mem_iff]
  constructor
  · rintro ⟨last, rfl⟩
    exact ⟨last, rfl, rfl⟩
  · rintro ⟨last, text, score⟩
    have source := ChunkWrite.source_of_last? last
    obtain ⟨filename, number, content, similarity⟩ := hit
    obtain ⟨rfl, rfl⟩ := Prod.mk.inj source
    subst text score
    exact ⟨last, rfl⟩

theorem Keeps.source_mem_search (source : String × Int) :
    source ∈ (table.search index query limit).map Hit.source ↔
      ∃ write ∈ writes, write.Of index source := by
  rw [((search_all room).1.map Hit.source).mem_iff, List.map_map, List.mem_map,
    ← ChunkWrite.exists_last?_iff]
  refine exists_congr fun chunk => ?_
  rw [keeps.mem_iff]
  constructor
  · rintro ⟨last, rfl⟩
    exact last
  · intro last
    have same := ChunkWrite.source_of_last? last
    exact ⟨same ▸ last, same⟩

theorem Keeps.search_descends
    (scored : ∀ source chunk, ChunkWrite.last? writes index source = some chunk →
      chunk.scored query = true) :
    (table.search index query limit).Pairwise fun earlier later => later.score ≤ earlier.score :=
  (search_all room).2 fun chunk known => scored _ chunk ((keeps.mem_iff index chunk).mp known)

end ChunkTable

namespace ChunkBackend

def addAll (backend : ChunkBackend) (writes : List ChunkWrite) : Attempt ChunkBackend :=
  writes.foldlM (fun backend write => backend.add write.index write.chunk) backend

theorem addAll_table (writes : List ChunkWrite) :
    ∃ rows : ChunkTable, (table .empty).addAll writes = .ok (table rows) ∧ rows.Keeps writes := by
  -- The last write is the one that a step adds, so the induction is on the writes from their end.
  induction writes using List.reverseRecOn with
  | nil => exact ⟨.empty, rfl, ChunkTable.keeps_empty⟩
  | append_singleton writes write ih =>
      obtain ⟨rows, added, keeps⟩ := ih
      refine ⟨rows.upsert write.index write.chunk, ?_, keeps.upsert write⟩
      rw [addAll] at added ⊢
      rw [List.foldlM_append, added]
      rfl

/-- A fresh table takes every sequence of writes. A search with room for all chunks of an index
then finds one hit for each file and number that was ever written under it, with the text and the
similarity of the last write, and from the highest score down if every score is a number. -/
theorem search_finds_last_writes (writes : List ChunkWrite) :
    ∃ backend, (table .empty).addAll writes = .ok backend ∧
      ∀ index query limit, (backend.chunksOf index).length ≤ limit →
        ∃ hits, backend.search index query limit = .ok hits ∧
          (hits.map Hit.source).Nodup ∧
          (∀ source, source ∈ hits.map Hit.source ↔ ∃ write ∈ writes, write.Of index source) ∧
          (∀ hit, hit ∈ hits ↔ ∃ chunk, ChunkWrite.last? writes index hit.source = some chunk ∧
            hit.content = chunk.content ∧
            hit.score = (Vector32.cosine query chunk.vector).widen) ∧
          ((∀ source chunk, ChunkWrite.last? writes index source = some chunk →
              chunk.scored query = true) →
            hits.Pairwise fun earlier later => later.score ≤ earlier.score) := by
  obtain ⟨rows, added, keeps⟩ := addAll_table writes
  refine ⟨table rows, added, fun index query limit room => ⟨rows.search index query limit, rfl, ?_⟩⟩
  exact ⟨keeps.nodup_search room, keeps.source_mem_search room, keeps.mem_search room,
    keeps.search_descends room⟩

def shelfWrites : List ChunkWrite :=
  [⟨"docs", ⟨"a.md", 0, "old", QueryTool.along⟩⟩, ⟨"docs", ⟨"b.md", 1, "b", QueryTool.along⟩⟩,
    ⟨"notes", ⟨"a.md", 0, "elsewhere", QueryTool.along⟩⟩,
    ⟨"docs", ⟨"a.md", 0, "new", QueryTool.across⟩⟩]

theorem rewritten_chunk_found :
    ∃ backend hits, (table .empty).addAll shelfWrites = .ok backend ∧
      backend.search "docs" QueryTool.across 2 = .ok hits ∧
      ⟨"a.md", 0, "new", (Vector32.cosine QueryTool.across QueryTool.across).widen⟩ ∈ hits ∧
      (hits.map Hit.source).Nodup ∧
      hits.Pairwise fun earlier later => later.score ≤ earlier.score := by
  obtain ⟨backend, added, found⟩ := search_finds_last_writes shelfWrites
  have room : (backend.chunksOf "docs").length ≤ 2 := by
    have count : ((table .empty).addAll shelfWrites).map
        (fun backend => (backend.chunksOf "docs").length) = .ok 2 := by decide +kernel
    rw [added] at count
    exact (Except.ok.inj count).le
  obtain ⟨hits, searched, distinct, -, members, descends⟩ :=
    found "docs" QueryTool.across 2 room
  have scored : ∀ write ∈ shelfWrites, write.chunk.scored QueryTool.across = true := by
    decide +kernel
  have last : ChunkWrite.last? shelfWrites "docs" ("a.md", 0) =
      some ⟨"a.md", 0, "new", QueryTool.across⟩ := by decide +kernel
  refine ⟨backend, hits, added, searched, (members _).mpr ⟨_, last, rfl, rfl⟩, distinct,
    descends fun source chunk written => ?_⟩
  obtain ⟨write, member, -, rfl⟩ := ChunkWrite.mem_of_last? written
  exact scored write member

end ChunkBackend
end Corpora
