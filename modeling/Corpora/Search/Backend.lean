import Corpora.Failure
import Corpora.Search.ChunkStore

/-!
Where chunks are kept: in memory, in a table, or in a database without its table.
-/

namespace Corpora

inductive ChunkBackend where
  | memory (store : ChunkStore)
  | table (rows : ChunkTable)
  | unprepared

namespace ChunkBackend

def add (backend : ChunkBackend) (index : String) (chunk : Chunk) : Attempt ChunkBackend :=
  match backend with
  | memory store => .ok (memory (store.add index chunk))
  | table rows => .ok (table (rows.upsert index chunk))
  | unprepared => .error .foreign

/-- Takes the chunks of an index out of memory; a table is left alone. -/
def clear (backend : ChunkBackend) (index : String) : ChunkBackend :=
  match backend with
  | memory store => memory (store.clear index)
  | other => other

def search (backend : ChunkBackend) (index : String) (query : Vector32) (limit : Nat) :
    Attempt (List Hit) :=
  match backend with
  | memory store => .ok (store.search index query limit)
  | table rows => .ok (rows.search index query limit)
  | unprepared => .error (Failure.foreign.within ("Vector search failed for index " ++ index))

end ChunkBackend
end Corpora
