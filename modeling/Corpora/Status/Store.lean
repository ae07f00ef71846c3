import Corpora.Document.Status
import Corpora.Order.SortedMap

/-!
Stores of status records, one record at most for each file of an index. `StatusStore` keeps them
in memory; `StatusTable` is a table whose rows are unique by index and file and also by their id, and
whose rows have the progress of a document as a text.
-/

namespace Corpora

open Document (Status)

structure StatusKey where
  index : String
  filename : String
  deriving Repr, DecidableEq

instance : Ord StatusKey :=
  ⟨compareLex (compareOn StatusKey.index) (compareOn StatusKey.filename)⟩

instance : Std.TransOrd StatusKey :=
  inferInstanceAs
    (Std.TransCmp (compareLex (compareOn StatusKey.index) (compareOn StatusKey.filename)))

instance : Std.LawfulEqOrd StatusKey where
  eq_of_compare {a b} same := by
    have both : compare a.index b.index = .eq ∧ compare a.filename b.filename = .eq := by
      simpa [compare, compareLex, compareOn, Ordering.then_eq_eq] using same
    cases a; cases b
    simp_all

def Document.Status.key (status : Status) : StatusKey := ⟨status.index, status.filename⟩

/-- The record after a later report: its id and time of creation are kept. -/
def Document.Status.revise (held report : Status) : Status :=
  { held with
    progress := report.progress
    errorMessage := report.errorMessage
    updatedAt := report.updatedAt }

structure StatusStore where
  records : SortedMap StatusKey Status

namespace StatusStore

def empty : StatusStore := ⟨∅⟩

def upsert (store : StatusStore) (status : Status) : StatusStore :=
  match store.records.get? status.key with
  | some held => ⟨store.records.insert status.key (held.revise status)⟩
  | none => ⟨store.records.insert status.key status⟩

def get? (store : StatusStore) (key : StatusKey) : Option Status := store.records.get? key

def list (store : StatusStore) (index : String) : List Status :=
  store.records.values.filter fun status => status.index == index

def delete (store : StatusStore) (key : StatusKey) : Bool × StatusStore :=
  (store.records.contains key, ⟨store.records.erase key⟩)

def deleteIndex (store : StatusStore) (index : String) : Nat × StatusStore :=
  let kept := store.records.filterKeys fun key => key.index != index
  (store.records.size - kept.size, ⟨kept⟩)

end StatusStore

structure StatusRow where
  id : String
  index : String
  filename : String
  progress : String
  errorMessage : Option String
  createdAt : Int
  updatedAt : Int
  deriving Repr, DecidableEq

namespace StatusRow

def ofStatus (status : Status) : StatusRow :=
  ⟨status.id, status.index, status.filename, status.progress.name, status.errorMessage,
    status.createdAt, status.updatedAt⟩

def key (row : StatusRow) : StatusKey := ⟨row.index, row.filename⟩

def status (row : StatusRow) : Attempt Status := do
  return ⟨row.id, row.index, row.filename, ← Document.Progress.parse row.progress,
    row.errorMessage, row.createdAt, row.updatedAt⟩

def revise (held refused : StatusRow) : StatusRow :=
  { held with
    progress := refused.progress
    errorMessage := refused.errorMessage
    updatedAt := refused.updatedAt }

end StatusRow

structure StatusTable where
  rows : List StatusRow

namespace StatusTable

def empty : StatusTable := ⟨[]⟩

/-- Inserts a row, or revises the row of the same file. A new row whose id is already taken is
refused. -/
def upsert (table : StatusTable) (row : StatusRow) : Option StatusTable :=
  if table.rows.any fun held => held.key == row.key then
    some ⟨table.rows.map fun held => if held.key == row.key then held.revise row else held⟩
  else if table.rows.any fun held => held.id == row.id then none
  else some ⟨table.rows ++ [row]⟩

def get? (table : StatusTable) (key : StatusKey) : Attempt (Option Status) :=
  match table.rows.find? fun row => row.key == key with
  | some row => row.status.map some
  | none => .ok none

def insertByFilename (row : StatusRow) : List StatusRow → List StatusRow
  | [] => [row]
  | first :: rest =>
      if row.filename < first.filename then row :: first :: rest
      else first :: insertByFilename row rest

def select (table : StatusTable) (index : String) : List StatusRow :=
  (table.rows.filter fun row => row.index == index).foldl
    (fun sorted row => insertByFilename row sorted) []

/-- The records of an index by filename; one row that cannot be read spoils them all. -/
def list (table : StatusTable) (index : String) : Attempt (List Status) :=
  (table.select index).mapM StatusRow.status

def delete (table : StatusTable) (key : StatusKey) : Bool × StatusTable :=
  (table.rows.any fun row => row.key == key, ⟨table.rows.filter fun row => !(row.key == key)⟩)

def deleteIndex (table : StatusTable) (index : String) : Nat × StatusTable :=
  let kept := table.rows.filter fun row => row.index != index
  (table.rows.length - kept.length, ⟨kept⟩)

end StatusTable

/-- Where status records are kept. A database that was never set up has no table. -/
inductive StatusBackend where
  | memory (store : StatusStore)
  | table (rows : StatusTable)
  | unprepared

namespace StatusBackend

def migrated : StatusBackend → StatusBackend
  | unprepared => table .empty
  | prepared => prepared

def databaseFailure (action : String) : Failure := Failure.foreign.within action

def rowName (index filename : String) : String := index ++ "/" ++ filename

def upsert (backend : StatusBackend) (status : Status) : Attempt StatusBackend :=
  let refused := databaseFailure
    ("Failed to upsert status for " ++ rowName status.index status.filename)
  match backend with
  | memory store => .ok (memory (store.upsert status))
  | table rows =>
      match rows.upsert (.ofStatus status) with
      | some rows => .ok (table rows)
      | none => .error refused
  | unprepared => .error refused

def get? (backend : StatusBackend) (key : StatusKey) : Attempt (Option Status) :=
  match backend with
  | memory store => .ok (store.get? key)
  | table rows => rows.get? key
  | unprepared => .error (databaseFailure
      ("Failed to read status for " ++ rowName key.index key.filename))

def list (backend : StatusBackend) (index : String) : Attempt (List Status) :=
  match backend with
  | memory store => .ok (store.list index)
  | table rows => rows.list index
  | unprepared => .error (databaseFailure ("Failed to list statuses for index " ++ index))

def delete (backend : StatusBackend) (key : StatusKey) : Attempt (Bool × StatusBackend) :=
  match backend with
  | memory store => .ok ((store.delete key).map id memory)
  | table rows => .ok ((rows.delete key).map id table)
  | unprepared => .error (databaseFailure
      ("Failed to delete status for " ++ rowName key.index key.filename))

def deleteIndex (backend : StatusBackend) (index : String) : Attempt (Nat × StatusBackend) :=
  match backend with
  | memory store => .ok ((store.deleteIndex index).map id memory)
  | table rows => .ok ((rows.deleteIndex index).map id table)
  | unprepared => .error (databaseFailure ("Failed to delete statuses for index " ++ index))

end StatusBackend
end Corpora
