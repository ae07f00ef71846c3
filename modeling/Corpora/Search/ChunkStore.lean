import Corpora.Order.SortedMap
import Corpora.Search.Ranking
import Corpora.Vector.Blob

/-!
Stores of embedded chunks. `ChunkStore` keeps what is added, index by index; `ChunkTable` keeps
one row for each chunk of a file and its vector as bytes. Both score every chunk of one index.
-/

namespace Corpora

structure Chunk where
  filename : String
  number : Int
  content : String
  vector : Vector32
  deriving Repr, DecidableEq

def Chunk.hit (query : Vector32) (chunk : Chunk) : Hit :=
  ⟨chunk.filename, chunk.number, chunk.content, (Vector32.cosine query chunk.vector).widen⟩

structure ChunkStore where
  indices : SortedMap String (List Chunk)

namespace ChunkStore

def empty : ChunkStore := ⟨∅⟩

def chunksOf (store : ChunkStore) (index : String) : List Chunk :=
  (store.indices.get? index).getD []

def add (store : ChunkStore) (index : String) (chunk : Chunk) : ChunkStore :=
  ⟨store.indices.insert index (store.chunksOf index ++ [chunk])⟩

def clear (store : ChunkStore) (index : String) : ChunkStore := ⟨store.indices.erase index⟩

def search (store : ChunkStore) (index : String) (query : Vector32) (limit : Nat) : List Hit :=
  Hit.best limit ((store.chunksOf index).map (Chunk.hit query))

end ChunkStore

structure ChunkRow where
  index : String
  filename : String
  number : Int
  content : String
  blob : Bytes
  deriving Repr, DecidableEq

def ChunkRow.chunk (row : ChunkRow) : Chunk :=
  ⟨row.filename, row.number, row.content, Vector32.ofBlob row.blob⟩

structure ChunkTable where
  rows : List ChunkRow

namespace ChunkTable

def empty : ChunkTable := ⟨[]⟩

/-- Replaces the row of the same index, file and number; the new row comes last. -/
def upsert (table : ChunkTable) (index : String) (chunk : Chunk) : ChunkTable :=
  ⟨table.rows.filter (fun row => !(row.index == index && row.filename == chunk.filename &&
      row.number == chunk.number)) ++
    [⟨index, chunk.filename, chunk.number, chunk.content, chunk.vector.toBlob⟩]⟩

def chunksOf (table : ChunkTable) (index : String) : List Chunk :=
  (table.rows.filter fun row => row.index == index).map ChunkRow.chunk

def search (table : ChunkTable) (index : String) (query : Vector32) (limit : Nat) : List Hit :=
  Hit.best limit ((table.chunksOf index).map (Chunk.hit query))

end ChunkTable
end Corpora
