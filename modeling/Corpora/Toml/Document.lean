import Corpora.Toml.Scalar

/-!
Documents of TOML. A document is read line by line into a tree of tables. A table remembers
whether it was only implied by a longer header, and whether dotted keys made it; both decide
whether a later line may still add to it.
-/

namespace Corpora.Toml

inductive Value where
  | scalar (value : Scalar)
  | array (items : List Value)
  | table (entries : List (String × Value))

inductive Node where
  | leaf (value : Value)
  | table (implied dotted : Bool) (entries : List (String × Node))
  | tables (elements : List Node)

def Node.opened : Node := .table false false []

def setEntry (key : String) (node : Node) (entries : List (String × Node)) :
    List (String × Node) :=
  entries.map fun entry => if entry.1 == key then (key, node) else entry

/-- Changes the table at a path; tables on the way that are missing are made. Under an array of
tables the last of them is meant. Dotted keys do not pass through a table that has its own
header. -/
def Node.modify (dotted : Bool) (change : Node → Option Node) : List String → Node → Option Node
  | [], node => change node
  | key :: path, .table implied made entries =>
      match entries.lookup key with
      | none => do
          let child ← modify dotted change path (.table true dotted [])
          return .table implied made (entries ++ [(key, child)])
      | some (.leaf _) => none
      | some (.tables elements) => do
          let child ← modify dotted change path (← elements.getLast?)
          return .table implied made (setEntry key (.tables (elements.dropLast ++ [child])) entries)
      | some (.table childImplied childMade childEntries) =>
          if dotted && !childImplied then none
          else do
            let child ← modify dotted change path (.table childImplied childMade childEntries)
            return .table implied made (setEntry key child entries)
  | _ :: _, _ => none

/-- Adds a value under a dotted key of a table. A key is set once, and a table of dotted keys gets
no other entries. -/
def Node.addValue (path : List String) (value : Value) (node : Node) : Option Node := do
  let key ← path.getLast?
  let parent := path.dropLast
  let add : Node → Option Node
    | .table implied made entries =>
        if made == parent.isEmpty then none
        else if (entries.lookup key).isSome then none
        else some (.table implied made (entries ++ [(key, .leaf value)]))
    | _ => none
  node.modify true add parent

def Node.openTable (path : List String) (root : Node) : Option Node := do
  let key ← path.getLast?
  let addTo : Node → Option Node
    | .table implied made entries =>
        match entries.lookup key with
        | none => some (.table implied made (entries ++ [(key, .opened)]))
        | some (.table true false children) =>
            some (.table implied made (setEntry key (.table false false children) entries))
        | some _ => none
    | _ => none
  root.modify false addTo path.dropLast

def Node.openElement (path : List String) (root : Node) : Option Node := do
  let key ← path.getLast?
  let addTo : Node → Option Node
    | .table implied made entries =>
        match entries.lookup key with
        | none => some (.table implied made (entries ++ [(key, .tables [.opened])]))
        | some (.tables elements) =>
            some (.table implied made (setEntry key (.tables (elements ++ [.opened])) entries))
        | some _ => none
    | _ => none
  root.modify false addTo path.dropLast

mutual

def Node.value : Node → Value
  | .leaf value => value
  | .table _ _ entries => .table (entryValues entries)
  | .tables elements => .array (elementValues elements)

def entryValues : List (String × Node) → List (String × Value)
  | [] => []
  | (key, node) :: rest => (key, node.value) :: entryValues rest

def elementValues : List Node → List Value
  | [] => []
  | node :: rest => node.value :: elementValues rest

end

def arrayItems (item : List Char → Option (Value × List Char)) :
    (fuel : Nat) → List Value → List Char → Option (List Value × List Char)
  | 0, _, _ => none
  | fuel + 1, found, cs => do
      match ← skipLines cs.length cs with
      | ']' :: rest => return (found.reverse, rest)
      | cs =>
          let (value, rest) ← item cs
          match ← skipLines rest.length rest with
          | ',' :: rest => arrayItems item fuel (value :: found) rest
          | rest => return ((value :: found).reverse, ← expectChar ']' rest)

def inlineEntries (item : List Char → Option (Value × List Char)) :
    (fuel : Nat) → Node → List Char → Option (Node × List Char)
  | 0, _, _ => none
  | fuel + 1, table, cs => do
      let (path, rest) ← key cs
      let (value, rest) ← item (skipSpaces (← expectChar '=' rest))
      let table ← table.addValue path value
      match skipSpaces rest with
      | ',' :: rest => inlineEntries item fuel table rest
      | rest => return (table, ← expectChar '}' rest)

def value : (depth : Nat) → List Char → Option (Value × List Char)
  | depth, '[' :: rest =>
      match depth with
      | 0 => none
      | depth + 1 => (arrayItems (value depth) (rest.length + 1) [] rest).map
          fun (items, rest) => (.array items, rest)
  | depth, '{' :: rest =>
      match depth with
      | 0 => none
      | depth + 1 =>
          match skipSpaces rest with
          | '}' :: rest => some (.table [], rest)
          | _ => (inlineEntries (value depth) (rest.length + 1) .opened rest).map
              fun (table, rest) => (table.value, rest)
  | _, cs => (scalar cs).map fun (value, rest) => (.scalar value, rest)

structure Reading where
  root : Node
  header : List String

def readLine (reading : Reading) (cs : List Char) : Option (Reading × List Char) :=
  match cs with
  | '[' :: '[' :: rest => do
      let (path, rest) ← key rest
      let rest ← expectChar ']' (← expectChar ']' rest)
      return (⟨← reading.root.openElement path, path⟩, ← lineTail rest)
  | '[' :: rest => do
      let (path, rest) ← key rest
      let rest ← expectChar ']' rest
      return (⟨← reading.root.openTable path, path⟩, ← lineTail rest)
  | cs => do
      let (path, rest) ← key cs
      let (value, rest) ← value (nestingLimit - 1) (skipSpaces (← expectChar '=' rest))
      let root ← reading.root.modify false (Node.addValue path value) reading.header
      return ({ reading with root := root }, ← lineTail rest)

def readLines : (fuel : Nat) → Reading → List Char → Option Node
  | 0, _, _ => none
  | fuel + 1, reading, cs => do
      match ← skipLines cs.length cs with
      | [] => return reading.root
      | cs =>
          let (reading, rest) ← readLine reading cs
          readLines fuel reading rest

def byteOrderMark : Char := '\uFEFF'

def parse? (text : String) : Option Value :=
  let cs := match text.toList with
    | c :: rest => if c = byteOrderMark then rest else c :: rest
    | [] => []
  (readLines (cs.length + 1) ⟨.opened, []⟩ cs).map Node.value

end Corpora.Toml
