/-!
Finite maps that keep their entries sorted by key, each key once. Two maps with the same entries
under every key are equal.
-/

namespace Corpora

structure SortedMap (κ β : Type) [Ord κ] where
  entries : List (κ × β)
  ascending : entries.Pairwise fun left right => compare left.1 right.1 = .lt

namespace SortedMap

variable {κ β : Type} [Ord κ]

def insertEntry (key : κ) (value : β) : List (κ × β) → List (κ × β)
  | [] => [(key, value)]
  | (other, held) :: rest =>
      match compare key other with
      | .lt => (key, value) :: (other, held) :: rest
      | .eq => (key, value) :: rest
      | .gt => (other, held) :: insertEntry key value rest

def eraseEntry (key : κ) : List (κ × β) → List (κ × β)
  | [] => []
  | (other, held) :: rest =>
      match compare key other with
      | .lt => (other, held) :: rest
      | .eq => rest
      | .gt => (other, held) :: eraseEntry key rest

def findEntry (key : κ) : List (κ × β) → Option β
  | [] => none
  | (other, held) :: rest =>
      match compare key other with
      | .lt => none
      | .eq => some held
      | .gt => findEntry key rest

theorem mem_insertEntry {key : κ} {value : β} {entries : List (κ × β)} {entry : κ × β}
    (member : entry ∈ insertEntry key value entries) :
    entry = (key, value) ∨ entry ∈ entries := by
  induction entries with
  | nil => simpa [insertEntry] using member
  | cons first rest ih =>
      obtain ⟨other, held⟩ := first
      simp only [insertEntry] at member
      split at member
      · simpa using member
      · simp only [List.mem_cons] at member ⊢
        exact member.imp_right Or.inr
      · simp only [List.mem_cons] at member ⊢
        rcases member with here | later
        · exact Or.inr (Or.inl here)
        · exact (ih later).imp_right Or.inr

theorem mem_eraseEntry {key : κ} {entries : List (κ × β)} {entry : κ × β}
    (member : entry ∈ eraseEntry key entries) : entry ∈ entries := by
  induction entries with
  | nil => simp [eraseEntry] at member
  | cons first rest ih =>
      obtain ⟨other, held⟩ := first
      simp only [eraseEntry] at member
      split at member
      · exact member
      · exact List.mem_cons_of_mem _ member
      · simp only [List.mem_cons] at member ⊢
        exact member.imp_right ih

theorem pairwise_eraseEntry {key : κ} {entries : List (κ × β)}
    (ascending : entries.Pairwise fun left right => compare left.1 right.1 = .lt) :
    (eraseEntry key entries).Pairwise fun left right => compare left.1 right.1 = .lt := by
  induction entries with
  | nil => simp [eraseEntry]
  | cons first rest ih =>
      obtain ⟨other, held⟩ := first
      have below := List.pairwise_cons.mp ascending
      simp only [eraseEntry]
      split
      · exact ascending
      · exact below.2
      · exact List.pairwise_cons.mpr
          ⟨fun entry member => below.1 entry (mem_eraseEntry member), ih below.2⟩

theorem pairwise_insertEntry [Std.TransOrd κ] [Std.LawfulEqOrd κ] {key : κ} {value : β}
    {entries : List (κ × β)}
    (ascending : entries.Pairwise fun left right => compare left.1 right.1 = .lt) :
    (insertEntry key value entries).Pairwise
      fun left right => compare left.1 right.1 = .lt := by
  induction entries with
  | nil => simp [insertEntry]
  | cons first rest ih =>
      obtain ⟨other, held⟩ := first
      have below := List.pairwise_cons.mp ascending
      simp only [insertEntry]
      split
      · next smaller =>
        refine List.pairwise_cons.mpr ⟨fun entry member => ?_, ascending⟩
        rcases List.mem_cons.mp member with rfl | later
        · exact smaller
        · exact Std.TransCmp.lt_trans smaller (below.1 entry later)
      · next same =>
        have keys : key = other := Std.LawfulEqOrd.eq_of_compare same
        subst keys
        exact List.pairwise_cons.mpr ⟨fun entry member => below.1 entry member, below.2⟩
      · next greater =>
        refine List.pairwise_cons.mpr ⟨fun entry member => ?_, ih below.2⟩
        rcases mem_insertEntry member with rfl | old
        · exact Std.OrientedCmp.lt_of_gt greater
        · exact below.1 entry old

def empty : SortedMap κ β := ⟨[], List.Pairwise.nil⟩

instance : EmptyCollection (SortedMap κ β) := ⟨empty⟩

instance : Inhabited (SortedMap κ β) := ⟨empty⟩

def get? (map : SortedMap κ β) (key : κ) : Option β := findEntry key map.entries

def contains (map : SortedMap κ β) (key : κ) : Bool := (map.get? key).isSome

def insert [Std.TransOrd κ] [Std.LawfulEqOrd κ] (map : SortedMap κ β) (key : κ) (value : β) :
    SortedMap κ β :=
  ⟨insertEntry key value map.entries, pairwise_insertEntry map.ascending⟩

def erase (map : SortedMap κ β) (key : κ) : SortedMap κ β :=
  ⟨eraseEntry key map.entries, pairwise_eraseEntry map.ascending⟩

def filterKeys (map : SortedMap κ β) (keep : κ → Bool) : SortedMap κ β :=
  ⟨map.entries.filter fun entry => keep entry.1, map.ascending.filter _⟩

def keys (map : SortedMap κ β) : List κ := map.entries.map (·.1)

def values (map : SortedMap κ β) : List β := map.entries.map (·.2)

def size (map : SortedMap κ β) : Nat := map.entries.length

def isEmpty (map : SortedMap κ β) : Bool := map.entries.isEmpty

def ofList [Std.TransOrd κ] [Std.LawfulEqOrd κ] (entries : List (κ × β)) : SortedMap κ β :=
  entries.foldl (fun map (key, value) => map.insert key value) empty

end SortedMap
end Corpora
