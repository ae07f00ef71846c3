import Corpora.Proofs.SortedMap
import Corpora.Status.Store
import Mathlib.Data.List.Nodup

/-!
A table of status rows beside the records that it stands for. Rows are unique by their key, so a row
is found by it, and what a selection shows in the order of filenames is what a map in the order of
keys shows of the same records.
-/

namespace Corpora

open Document (Status Progress)

namespace StatusRow

theorem parse_name (progress : Progress) : Progress.parse progress.name = .ok progress := by
  cases progress <;> rfl

theorem status_ofStatus (status : Status) : (ofStatus status).status = .ok status := by
  simp only [StatusRow.status, ofStatus, parse_name]
  rfl

theorem key_ofStatus (status : Status) : (ofStatus status).key = status.key := rfl

end StatusRow

namespace StatusKey

theorem lt_of_index_eq {left right : StatusKey} (order : compare left right = .lt)
    (same : left.index = right.index) : left.filename < right.filename := by
  have first : compare left.index right.index = .eq := by
    rw [same]
    exact Std.ReflCmp.compare_self
  have second : (compare left.index right.index).then (compare left.filename right.filename) =
      .lt := order
  rw [first] at second
  exact compareOfLessAndEq_eq_lt.mp second

end StatusKey

namespace StatusStore

variable {store : StatusStore}

def Keyed (store : StatusStore) : Prop :=
  ∀ key status, store.records.get? key = some status → status.key = key

theorem Keyed.mem_list (keyed : store.Keyed) (index : String) (status : Status) :
    status ∈ store.list index ↔
      status.index = index ∧ store.records.get? status.key = some status := by
  rw [list, List.mem_filter, SortedMap.mem_values, beq_iff_eq, and_comm]
  apply and_congr_right
  intro _
  constructor
  · rintro ⟨key, held⟩
    rw [keyed key status held]
    exact held
  · intro held
    exact ⟨status.key, held⟩

-- Records of one index are in the order of their keys, which is that of their filenames.
theorem Keyed.list_ascending (keyed : store.Keyed) (index : String) :
    (store.list index).Pairwise fun left right => left.filename < right.filename := by
  have entries : (store.records.entries.filter fun entry => entry.2.index == index).Pairwise
      fun left right => left.2.filename < right.2.filename := by
    apply List.pairwise_filter.mpr
    apply store.records.ascending.imp_of_mem
    intro left right leftMember rightMember order leftIndex rightIndex
    have first := keyed left.1 left.2 ((SortedMap.get?_iff _ _ _).mpr leftMember)
    have second := keyed right.1 right.2 ((SortedMap.get?_iff _ _ _).mpr rightMember)
    rw [← first, ← second] at order
    apply StatusKey.lt_of_index_eq order
    exact (beq_iff_eq.mp leftIndex).trans (beq_iff_eq.mp rightIndex).symm
  have listed : store.list index =
      (store.records.entries.filter fun entry => entry.2.index == index).map Prod.snd := by
    rw [list, SortedMap.values, List.filter_map]
    rfl
  rw [listed]
  exact List.pairwise_map.mpr entries

end StatusStore

namespace StatusTable

section Selection

theorem mem_insertByFilename {row other : StatusRow} {sorted : List StatusRow} :
    other ∈ insertByFilename row sorted ↔ other = row ∨ other ∈ sorted := by
  induction sorted with
  | nil => simp [insertByFilename]
  | cons first rest ih =>
      simp only [insertByFilename]
      split
      · exact List.mem_cons
      · rw [List.mem_cons, ih, List.mem_cons]
        exact or_left_comm

theorem insertByFilename_ascending {row : StatusRow} {sorted : List StatusRow}
    (order : sorted.Pairwise fun left right => left.filename < right.filename)
    (fresh : ∀ other ∈ sorted, other.filename ≠ row.filename) :
    (insertByFilename row sorted).Pairwise fun left right => left.filename < right.filename := by
  induction sorted with
  | nil => exact List.pairwise_singleton _ row
  | cons first rest ih =>
      obtain ⟨below, later⟩ := List.pairwise_cons.mp order
      simp only [insertByFilename]
      split
      · next smaller =>
        refine List.pairwise_cons.mpr ⟨?_, order⟩
        intro other member
        rcases List.mem_cons.mp member with rfl | behind
        · exact smaller
        · exact String.lt_trans smaller (below other behind)
      · next notSmaller =>
        have larger : first.filename < row.filename :=
          Std.lt_of_le_of_ne (String.not_lt.mp notSmaller) (fresh first List.mem_cons_self)
        refine List.pairwise_cons.mpr
          ⟨?_, ih later fun other member => fresh other (List.mem_cons_of_mem _ member)⟩
        intro other member
        rcases mem_insertByFilename.mp member with rfl | behind
        · exact larger
        · exact below other behind

theorem foldl_insertByFilename {rows sorted : List StatusRow}
    (order : sorted.Pairwise fun left right => left.filename < right.filename)
    (distinct : (rows.map StatusRow.filename).Nodup)
    (fresh : ∀ row ∈ rows, ∀ other ∈ sorted, other.filename ≠ row.filename) :
    let result := rows.foldl (fun sorted row => insertByFilename row sorted) sorted
    (result.Pairwise fun left right => left.filename < right.filename) ∧
      ∀ row, row ∈ result ↔ row ∈ rows ∨ row ∈ sorted := by
  induction rows generalizing sorted with
  | nil => exact ⟨order, fun row => by simp⟩
  | cons row rows ih =>
      rw [List.map_cons, List.nodup_cons] at distinct
      have inserted := insertByFilename_ascending order (fresh row List.mem_cons_self)
      have apart : ∀ later ∈ rows, ∀ other ∈ insertByFilename row sorted,
          other.filename ≠ later.filename := by
        intro later member other there same
        rcases mem_insertByFilename.mp there with rfl | old
        · exact distinct.1 (List.mem_map.mpr ⟨later, member, same.symm⟩)
        · exact fresh later (List.mem_cons_of_mem _ member) other old same
      obtain ⟨ascending, members⟩ := ih inserted distinct.2 apart
      refine ⟨ascending, fun other => ?_⟩
      rw [List.foldl_cons, members, mem_insertByFilename, List.mem_cons]
      exact or_left_comm.trans or_assoc.symm

end Selection

/-- A table has the rows of certain records, one for each key that has a record. -/
structure Holds (table : StatusTable) (records : StatusKey → Option Status) : Prop where
  own : ∀ key status, records key = some status → status.key = key
  distinct : (table.rows.map StatusRow.key).Nodup
  rows : ∀ row, row ∈ table.rows ↔ ∃ status, records row.key = some status ∧ row = .ofStatus status

theorem holds_empty : Holds empty fun _ => none where
  own := nofun
  distinct := List.nodup_nil
  rows row := by simp [empty]

namespace Holds

variable {table : StatusTable} {records : StatusKey → Option Status}

theorem mem (holds : table.Holds records) {key : StatusKey} {status : Status}
    (held : records key = some status) : .ofStatus status ∈ table.rows := by
  rw [holds.rows, StatusRow.key_ofStatus, holds.own key status held]
  exact ⟨status, held, rfl⟩

theorem find (holds : table.Holds records) (key : StatusKey) :
    table.rows.find? (fun row => row.key == key) = (records key).map .ofStatus := by
  cases found : table.rows.find? fun row => row.key == key with
  | some row =>
      have same : row.key = key := by simpa using List.find?_some found
      obtain ⟨status, held, rfl⟩ := (holds.rows row).mp (List.mem_of_find?_eq_some found)
      rw [← same, held, Option.map_some]
  | none =>
      cases held : records key with
      | none => rfl
      | some status =>
          have other := List.find?_eq_none.mp found _ (holds.mem held)
          rw [StatusRow.key_ofStatus, holds.own key status held] at other
          exact absurd (beq_self_eq_true key) other

theorem any (holds : table.Holds records) (key : StatusKey) :
    (table.rows.any fun row => row.key == key) = (records key).isSome := by
  rw [Bool.eq_iff_iff, List.any_eq_true, ← List.find?_isSome, holds.find, Option.isSome_map]

theorem get? (holds : table.Holds records) (key : StatusKey) :
    table.get? key = .ok (records key) := by
  rw [StatusTable.get?, holds.find]
  cases records key with
  | none => rfl
  | some status =>
      simp only [Option.map_some, StatusRow.status_ofStatus]
      rfl

theorem absent_row (holds : table.Holds records) {key : StatusKey} (absent : records key = none)
    {row : StatusRow} (member : row ∈ table.rows) : row.key ≠ key := by
  rintro rfl
  obtain ⟨status, held, _⟩ := (holds.rows row).mp member
  rw [absent] at held
  cases held

theorem add (holds : table.Holds records) {status : Status} (absent : records status.key = none)
    (fresh : ∀ key held, records key = some held → held.id ≠ status.id) :
    ∃ after, table.upsert (.ofStatus status) = some after ∧
      after.Holds fun key => if key = status.key then some status else records key := by
  have noKey : (table.rows.any fun row => row.key == (StatusRow.ofStatus status).key) = false := by
    rw [StatusRow.key_ofStatus, holds.any, absent]
    rfl
  have noId : (table.rows.any fun row => row.id == (StatusRow.ofStatus status).id) = false := by
    rw [List.any_eq_false]
    intro row member taken
    obtain ⟨held, there, rfl⟩ := (holds.rows row).mp member
    exact fresh _ held there (beq_iff_eq.mp taken)
  refine ⟨⟨table.rows ++ [.ofStatus status]⟩, ?_, ?_, ?_, ?_⟩
  · simp only [upsert, noKey, noId, Bool.false_eq_true, ↓reduceIte]
  · intro key held there
    by_cases same : key = status.key
    · rw [if_pos same] at there
      cases there
      exact same.symm
    · rw [if_neg same] at there
      exact holds.own key held there
  · rw [List.map_append, List.map_singleton, List.nodup_append_comm, List.singleton_append,
      List.nodup_cons]
    constructor
    · intro member
      obtain ⟨row, there, same⟩ := List.mem_map.mp member
      exact holds.absent_row absent there same
    · exact holds.distinct
  · intro row
    rw [List.mem_append, List.mem_singleton]
    by_cases same : row.key = status.key
    · rw [if_pos same]
      constructor
      · rintro (member | rfl)
        · exact absurd same (holds.absent_row absent member)
        · exact ⟨status, rfl, rfl⟩
      · rintro ⟨_, ⟨⟩, rfl⟩
        exact Or.inr rfl
    · rw [if_neg same, holds.rows]
      constructor
      · rintro (held | rfl)
        · exact held
        · exact absurd rfl same
      · exact Or.inl

theorem revise (holds : table.Holds records) {held report : Status}
    (there : records report.key = some held) :
    ∃ after, table.upsert (.ofStatus report) = some after ∧
      after.Holds fun key => if key = report.key then some (held.revise report) else records key := by
  have known : (table.rows.any fun row => row.key == (StatusRow.ofStatus report).key) = true := by
    rw [StatusRow.key_ofStatus, holds.any, there]
    rfl
  let change (row : StatusRow) : StatusRow :=
    if row.key == report.key then row.revise (.ofStatus report) else row
  have keyed (row : StatusRow) : (change row).key = row.key := by
    simp only [change]
    split <;> rfl
  refine ⟨⟨table.rows.map change⟩, ?_, ?_, ?_, ?_⟩
  · simp only [upsert, known, ↓reduceIte]
    rfl
  · intro key status found
    by_cases same : key = report.key
    · rw [if_pos same] at found
      cases found
      exact (holds.own _ held there).trans same.symm
    · rw [if_neg same] at found
      exact holds.own key status found
  · rw [List.map_map]
    have keys : StatusRow.key ∘ change = StatusRow.key := funext keyed
    rw [keys]
    exact holds.distinct
  · intro row
    rw [List.mem_map]
    by_cases same : row.key = report.key
    · rw [if_pos same]
      constructor
      · rintro ⟨old, member, rfl⟩
        rw [keyed] at same
        obtain ⟨status, found, rfl⟩ := (holds.rows old).mp member
        rw [same, there] at found
        cases found
        refine ⟨_, rfl, ?_⟩
        simp only [change, same, beq_self_eq_true, ↓reduceIte]
        rfl
      · rintro ⟨_, ⟨⟩, rfl⟩
        refine ⟨.ofStatus held, holds.mem there, ?_⟩
        have key : (StatusRow.ofStatus held).key = report.key := holds.own _ held there
        simp only [change, key, beq_self_eq_true, ↓reduceIte]
        rfl
    · rw [if_neg same, ← holds.rows]
      have plain {old : StatusRow} (other : old.key ≠ report.key) : change old = old := by
        simp only [change, beq_eq_false_iff_ne.mpr other, Bool.false_eq_true, ↓reduceIte]
      constructor
      · rintro ⟨old, member, rfl⟩
        rw [keyed] at same
        rw [plain same]
        exact member
      · intro member
        exact ⟨row, member, plain same⟩

theorem filter (holds : table.Holds records) (keep : StatusKey → Bool) :
    Holds ⟨table.rows.filter fun row => keep row.key⟩ fun key =>
      if keep key then records key else none where
  own key status found := by
    cases kept : keep key with
    | false => simp [kept] at found
    | true => exact holds.own key status (by simpa [kept] using found)
  distinct := (List.filter_sublist.map _).nodup holds.distinct
  rows row := by
    rw [List.mem_filter, holds.rows]
    cases kept : keep row.key with
    | false => simp
    | true => simp

theorem select (holds : table.Holds records) (index : String) :
    ((table.select index).Pairwise fun left right => left.filename < right.filename) ∧
      ∀ row, row ∈ table.select index ↔ row ∈ table.rows ∧ row.index = index := by
  have distinct : ((table.rows.filter fun row => row.index == index).map
      StatusRow.filename).Nodup := by
    apply List.pairwise_map.mpr
    apply List.pairwise_filter.mpr
    apply (List.pairwise_map.mp holds.distinct).imp
    intro left right different leftIndex rightIndex same
    apply different
    rw [StatusRow.key, StatusRow.key, same, beq_iff_eq.mp leftIndex, beq_iff_eq.mp rightIndex]
  have sorted := foldl_insertByFilename List.Pairwise.nil distinct (fun _ _ => nofun)
  refine ⟨sorted.1, fun row => (sorted.2 row).trans ?_⟩
  simp

variable {store : StatusStore}

theorem length (holds : table.Holds store.records.get?) :
    table.rows.length = store.records.size := by
  have members : ∀ key, key ∈ table.rows.map StatusRow.key ↔ key ∈ store.records.keys := by
    intro key
    rw [SortedMap.mem_keys, SortedMap.contains, ← holds.any, List.any_eq_true, List.mem_map]
    simp
  have same := (List.perm_ext_iff_of_nodup holds.distinct
    (SortedMap.keys_nodup store.records)).mpr members
  simpa [SortedMap.keys, SortedMap.size] using same.length_eq

theorem mapM_status (statuses : List Status) :
    (statuses.map StatusRow.ofStatus).mapM StatusRow.status = .ok statuses := by
  induction statuses with
  | nil => rfl
  | cons status rest ih =>
      rw [List.map_cons, List.mapM_cons, StatusRow.status_ofStatus, ih]
      rfl

theorem list (holds : table.Holds store.records.get?) (index : String) :
    table.list index = .ok (store.list index) := by
  have keyed : store.Keyed := holds.own
  obtain ⟨selected, members⟩ := holds.select index
  have listed : ((store.list index).map StatusRow.ofStatus).Pairwise fun left right =>
      left.filename < right.filename :=
    List.pairwise_map.mpr (keyed.list_ascending index)
  have same : table.select index = (store.list index).map .ofStatus := by
    refine SortedMap.ascending_unique StatusRow.filename
      (selected.imp compareOfLessAndEq_eq_lt.mpr) (listed.imp compareOfLessAndEq_eq_lt.mpr) ?_
    intro row
    rw [members, holds.rows, List.mem_map]
    constructor
    · rintro ⟨⟨status, held, rfl⟩, within⟩
      exact ⟨status, (keyed.mem_list index status).mpr ⟨within, held⟩, rfl⟩
    · rintro ⟨status, member, rfl⟩
      obtain ⟨within, held⟩ := (keyed.mem_list index status).mp member
      exact ⟨⟨status, held, rfl⟩, within⟩
  rw [StatusTable.list, same, mapM_status]

end Holds
end StatusTable
end Corpora
