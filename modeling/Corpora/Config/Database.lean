import Corpora.Failure
import Corpora.Text.Search

/-!
Kinds of databases, told from the start of a connection URL.
-/

namespace Corpora

inductive DatabaseKind where
  | postgres
  | sqlite
  deriving Repr, DecidableEq

namespace DatabaseKind

def name : DatabaseKind → String
  | postgres => "Postgres"
  | sqlite => "Sqlite"

def startsWith (start text : String) : Bool :=
  (Text.stripStart? start.toList text.toList).isSome

def ofUrl (url : String) : Attempt DatabaseKind :=
  if startsWith "postgres://" url || startsWith "postgresql://" url then .ok postgres
  else if startsWith "sqlite:" url then .ok sqlite
  else Attempt.fail ("Unsupported database URL scheme: " ++ url)

end DatabaseKind
end Corpora
