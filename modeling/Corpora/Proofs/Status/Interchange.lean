import Corpora.Proofs.Status.Table
import Mathlib.Data.List.Induction

/-!
The two stores of status records answer alike. What was reported on a file since it was last without
a record determines its record: the first report says which it is and since when, the last one how
it stands. The store in memory follows this, and the table follows the store, as long as no two files
are reported under one id.
-/

namespace Corpora

open Document (Status)

inductive StatusRequest where
  | upsert (status : Status)
  | get (key : StatusKey)
  | list (index : String)
  | delete (key : StatusKey)
  | deleteIndex (index : String)

inductive StatusAnswer where
  | done
  | found (status : Option Status)
  | listed (statuses : List Status)
  | deleted (there : Bool)
  | dropped (count : Nat)
  deriving Repr, DecidableEq

namespace StatusRequest

def changed {α : Type} (backend : StatusBackend) (tell : α → StatusAnswer) :
    Attempt (α × StatusBackend) → Attempt StatusAnswer × StatusBackend
  | .ok (value, after) => (.ok (tell value), after)
  | .error why => (.error why, backend)

def run : StatusRequest → StatusBackend → Attempt StatusAnswer × StatusBackend
  | upsert status, backend => changed backend (fun () => .done) ((backend.upsert status).map ((), ·))
  | get key, backend => ((backend.get? key).map .found, backend)
  | list index, backend => ((backend.list index).map .listed, backend)
  | delete key, backend => changed backend .deleted (backend.delete key)
  | deleteIndex index, backend => changed backend .dropped (backend.deleteIndex index)

def runAll : List StatusRequest → StatusBackend → List (Attempt StatusAnswer) × StatusBackend
  | [], backend => ([], backend)
  | request :: rest, backend =>
      let answered := request.run backend
      let later := runAll rest answered.2
      (answered.1 :: later.1, later.2)

/-- The reports on a file since it was last without a record, after one more call. -/
def note (key : StatusKey) (reports : List Status) : StatusRequest → List Status
  | upsert status => if status.key = key then reports ++ [status] else reports
  | delete other => if other = key then [] else reports
  | deleteIndex index => if index = key.index then [] else reports
  | get _ | list _ => reports

def reports (requests : List StatusRequest) (key : StatusKey) : List Status :=
  requests.foldl (note key) []

/-- The record that calls leave of a file: its id and the time of its creation from the first report
since it was last without a record, and what may change from the last one. -/
def record? (requests : List StatusRequest) (key : StatusKey) : Option Status := do
  let first ← (reports requests key).head?
  let latest ← (reports requests key).getLast?
  return ⟨first.id, key.index, key.filename, latest.progress, latest.errorMessage,
    first.createdAt, latest.updatedAt⟩

/-- Reports on different files do not share an id. -/
def IdsApart (requests : List StatusRequest) : Prop :=
  ∀ first second, upsert first ∈ requests → upsert second ∈ requests → first.id = second.id →
    first.key = second.key

section History

variable {past : List StatusRequest} {key : StatusKey}

theorem reports_snoc (past : List StatusRequest) (request : StatusRequest) (key : StatusKey) :
    reports (past ++ [request]) key = note key (reports past key) request := by
  rw [reports, List.foldl_append]
  rfl

theorem mem_reports {status : Status} (member : status ∈ reports past key) :
    upsert status ∈ past ∧ status.key = key := by
  induction past using List.reverseRecOn with
  | nil => cases member
  | append_singleton past request ih =>
      have earlier (old : status ∈ reports past key) :
          upsert status ∈ past ++ [request] ∧ status.key = key :=
        ⟨List.mem_append_left _ (ih old).1, (ih old).2⟩
      rw [reports_snoc] at member
      cases request with
      | upsert report =>
          by_cases same : report.key = key
          · rw [note, if_pos same, List.mem_append, List.mem_singleton] at member
            rcases member with old | rfl
            · exact earlier old
            · exact ⟨List.mem_append_right _ List.mem_cons_self, same⟩
          · rw [note, if_neg same] at member
            exact earlier member
      | get _ => exact earlier member
      | list _ => exact earlier member
      | delete other =>
          by_cases same : other = key
          · rw [note, if_pos same] at member
            cases member
          · rw [note, if_neg same] at member
            exact earlier member
      | deleteIndex index =>
          by_cases same : index = key.index
          · rw [note, if_pos same] at member
            cases member
          · rw [note, if_neg same] at member
            exact earlier member

theorem record?_reported {status : Status} (held : record? past key = some status) :
    ∃ first, upsert first ∈ past ∧ first.key = key ∧ first.id = status.id := by
  obtain ⟨first, reported, held⟩ := Option.bind_eq_some_iff.mp held
  obtain ⟨latest, _, held⟩ := Option.bind_eq_some_iff.mp held
  cases held
  obtain ⟨member, same⟩ := mem_reports (List.mem_of_head? reported)
  exact ⟨first, member, same, rfl⟩

theorem record?_same {request : StatusRequest}
    (same : note key (reports past key) request = reports past key) :
    record? (past ++ [request]) key = record? past key := by
  rw [record?, reports_snoc, same, record?]

theorem record?_gone {request : StatusRequest} (gone : note key (reports past key) request = []) :
    record? (past ++ [request]) key = none := by
  rw [record?, reports_snoc, gone]
  rfl

theorem reports_eq_nil (absent : record? past key = none) : reports past key = [] := by
  rw [record?] at absent
  cases noted : reports past key with
  | nil => rfl
  | cons first later =>
      rw [noted, List.head?_cons, List.getLast?_cons] at absent
      cases absent

theorem record?_first {status : Status} (absent : record? past status.key = none) :
    record? (past ++ [upsert status]) status.key = some status := by
  rw [record?, reports_snoc, note, if_pos rfl, reports_eq_nil absent]
  rfl

theorem record?_revised {status held : Status} (there : record? past status.key = some held) :
    record? (past ++ [upsert status]) status.key = some (held.revise status) := by
  obtain ⟨first, reported, told⟩ := Option.bind_eq_some_iff.mp there
  obtain ⟨latest, _, told⟩ := Option.bind_eq_some_iff.mp told
  cases told
  have started : (reports past status.key ++ [status]).head? = some first := by
    rw [List.head?_append, reported, Option.some_or]
  rw [record?, reports_snoc, note, if_pos rfl, started, List.getLast?_concat]
  rfl

theorem record?_other {status : Status} (other : key ≠ status.key) :
    record? (past ++ [upsert status]) key = record? past key :=
  record?_same (if_neg other.symm)

end History

section Run

structure Follow (past : List StatusRequest) (store : StatusStore) (table : StatusTable) : Prop where
  told : ∀ key, store.records.get? key = record? past key
  holds : table.Holds store.records.get?

variable {past : List StatusRequest} {store : StatusStore} {table : StatusTable}

theorem follow_start : Follow [] .empty .empty where
  told _ := rfl
  holds := StatusTable.holds_empty

/-- What one call does: it is answered alike by both stores, and they still follow the calls. -/
structure Step (past : List StatusRequest) (request : StatusRequest) (store : StatusStore)
    (table : StatusTable) (answer : StatusAnswer) (after : StatusStore) (final : StatusTable) :
    Prop where
  memory : request.run (.memory store) = (.ok answer, .memory after)
  table : request.run (.table table) = (.ok answer, .table final)
  follow : Follow (past ++ [request]) after final

-- No other file was reported under the id of a record that is still to come.
theorem Follow.fresh (follow : Follow past store table) {status : Status}
    (apart : IdsApart (past ++ [upsert status])) (absent : store.records.get? status.key = none)
    (key : StatusKey) (held : Status) (there : store.records.get? key = some held) :
    held.id ≠ status.id := by
  intro same
  rw [follow.told] at there
  obtain ⟨first, reported, rfl, id⟩ := record?_reported there
  have key := apart first status (List.mem_append_left _ reported)
    (List.mem_append_right _ List.mem_cons_self) (id.trans same)
  rw [← follow.told, key, absent] at there
  cases there

theorem Follow.insert (follow : Follow past store table) {status kept : Status}
    {final : StatusTable} (recorded : record? (past ++ [upsert status]) status.key = some kept)
    (written : final.Holds fun key =>
      if key = status.key then some kept else store.records.get? key) :
    Follow (past ++ [upsert status]) ⟨store.records.insert status.key kept⟩ final where
  told key := by
    by_cases same : key = status.key
    · rw [same, SortedMap.get?_insert_self, recorded]
    · rw [SortedMap.get?_insert_of_ne _ _ same, record?_other same, follow.told]
  holds := by
    have lookup : (store.records.insert status.key kept).get? = fun key =>
        if key = status.key then some kept else store.records.get? key :=
      funext fun key => SortedMap.get?_insert _ _ _ _
    rwa [lookup]

theorem Follow.upsert (follow : Follow past store table) {status : Status}
    (apart : IdsApart (past ++ [.upsert status])) :
    ∃ after final, Step past (.upsert status) store table .done after final := by
  cases held : store.records.get? status.key with
  | none =>
      obtain ⟨final, added, written⟩ := follow.holds.add held (follow.fresh apart held)
      have recorded := record?_first ((follow.told status.key).symm.trans held)
      refine ⟨_, final, ?_, ?_, follow.insert recorded written⟩
      · simp only [run, StatusBackend.upsert, StatusStore.upsert, held]
        rfl
      · simp only [run, StatusBackend.upsert, added]
        rfl
  | some old =>
      obtain ⟨final, revised, written⟩ := follow.holds.revise held
      have recorded := record?_revised ((follow.told status.key).symm.trans held)
      refine ⟨_, final, ?_, ?_, follow.insert recorded written⟩
      · simp only [run, StatusBackend.upsert, StatusStore.upsert, held]
        rfl
      · simp only [run, StatusBackend.upsert, revised]
        rfl

theorem Follow.look (follow : Follow past store table) {request : StatusRequest}
    (looks : ∀ key, note key (reports past key) request = reports past key) :
    Follow (past ++ [request]) store table where
  told key := (follow.told key).trans (record?_same (looks key)).symm
  holds := follow.holds

theorem Follow.drop (follow : Follow past store table) {request : StatusRequest}
    (keep : StatusKey → Bool) {after : StatusStore}
    (kept : ∀ key, keep key → note key (reports past key) request = reports past key)
    (gone : ∀ key, keep key = false → note key (reports past key) request = [])
    (lookup : ∀ key, after.records.get? key = if keep key then store.records.get? key else none) :
    Follow (past ++ [request]) after ⟨table.rows.filter fun row => keep row.key⟩ where
  told key := by
    rw [lookup]
    cases keeps : keep key with
    | true => exact (follow.told key).trans (record?_same (kept key keeps)).symm
    | false => exact (record?_gone (gone key keeps)).symm
  holds := by
    have same : after.records.get? = fun key =>
        if keep key then store.records.get? key else none := funext lookup
    rw [same]
    exact follow.holds.filter keep

theorem Follow.delete (follow : Follow past store table) (key : StatusKey) :
    Step past (.delete key) store table (.deleted (store.records.contains key))
      ⟨store.records.erase key⟩ ⟨table.rows.filter fun row => !(row.key == key)⟩ where
  memory := rfl
  table := by
    have there := follow.holds.any key
    simp only [run, StatusBackend.delete, StatusTable.delete, there]
    rfl
  follow := by
    apply follow.drop fun other => !(other == key)
    · intro other keeps
      have different : key ≠ other := by
        rintro rfl
        simp at keeps
      exact if_neg different
    · intro other dropped
      have same : other = key := by simpa using dropped
      exact if_pos same.symm
    · intro other
      rw [SortedMap.get?_erase]
      by_cases same : other = key
      · simp [same]
      · simp [same]

theorem Follow.deleteIndex (follow : Follow past store table) (index : String) :
    Step past (.deleteIndex index) store table (.dropped (store.deleteIndex index).1)
      (store.deleteIndex index).2 ⟨table.rows.filter fun row => row.key.index != index⟩ := by
  have after : Follow (past ++ [.deleteIndex index]) (store.deleteIndex index).2
      ⟨table.rows.filter fun row => row.key.index != index⟩ := by
    apply follow.drop fun key => key.index != index
    · intro key keeps
      have different : index ≠ key.index := by
        rintro rfl
        simp at keeps
      exact if_neg different
    · intro key dropped
      have same : key.index = index := by simpa using dropped
      exact if_pos same.symm
    · intro key
      exact SortedMap.get?_filterKeys _ _ _
  refine ⟨rfl, ?_, after⟩
  have counted : table.rows.length - (table.rows.filter fun row => row.key.index != index).length =
      (store.deleteIndex index).1 := by
    rw [follow.holds.length, after.holds.length]
    rfl
  rw [← counted]
  rfl

theorem Follow.step (follow : Follow past store table) {request : StatusRequest}
    (apart : IdsApart (past ++ [request])) :
    ∃ answer after final, Step past request store table answer after final := by
  cases request with
  | upsert status =>
      obtain ⟨after, final, step⟩ := follow.upsert apart
      exact ⟨.done, after, final, step⟩
  | get key =>
      refine ⟨.found (store.records.get? key), store, table, rfl, ?_, follow.look fun _ => rfl⟩
      simp only [run, StatusBackend.get?, follow.holds.get?]
      rfl
  | list index =>
      refine ⟨.listed (store.list index), store, table, rfl, ?_, follow.look fun _ => rfl⟩
      simp only [run, StatusBackend.list, follow.holds.list]
      rfl
  | delete key => exact ⟨_, _, _, follow.delete key⟩
  | deleteIndex index => exact ⟨_, _, _, follow.deleteIndex index⟩

theorem Follow.runAll (follow : Follow past store table) {requests : List StatusRequest}
    (apart : IdsApart (past ++ requests)) :
    ∃ (answers : List StatusAnswer) (after : StatusStore) (final : StatusTable),
      StatusRequest.runAll requests (.memory store) = (answers.map Except.ok, .memory after) ∧
      StatusRequest.runAll requests (.table table) = (answers.map Except.ok, .table final) ∧
      Follow (past ++ requests) after final := by
  induction requests generalizing past store table with
  | nil => exact ⟨[], store, table, rfl, rfl, by rwa [List.append_nil]⟩
  | cons request rest ih =>
      have whole : past ++ request :: rest = past ++ [request] ++ rest := by simp
      rw [whole] at apart ⊢
      have first : IdsApart (past ++ [request]) := fun left right leftMember rightMember =>
        apart left right (List.mem_append_left _ leftMember) (List.mem_append_left _ rightMember)
      obtain ⟨answer, after, final, step⟩ := follow.step first
      obtain ⟨answers, last, rows, memory, rest, follows⟩ := ih step.follow apart
      refine ⟨answer :: answers, last, rows, ?_, ?_, follows⟩
      · simp only [StatusRequest.runAll, step.memory, memory, List.map_cons]
      · simp only [StatusRequest.runAll, step.table, rest, List.map_cons]

end Run

/-- A store of status records shows what certain calls were to leave: under every key its record, and
of every index its records by filename. -/
structure Shows (requests : List StatusRequest) (backend : StatusBackend) : Prop where
  found : ∀ key, backend.get? key = .ok (record? requests key)
  listed : ∀ index, ∃ statuses, backend.list index = .ok statuses ∧
    (statuses.Pairwise fun left right => left.filename < right.filename) ∧
    ∀ status, status ∈ statuses ↔ status.index = index ∧ record? requests status.key = some status

theorem Follow.shows {past : List StatusRequest} {store : StatusStore} {table : StatusTable}
    (follow : Follow past store table) : Shows past (.memory store) ∧ Shows past (.table table) := by
  have keyed : store.Keyed := follow.holds.own
  have listed (index : String) : (store.list index).Pairwise (fun left right =>
      left.filename < right.filename) ∧ ∀ status, status ∈ store.list index ↔
        status.index = index ∧ record? past status.key = some status := by
    refine ⟨keyed.list_ascending index, fun status => ?_⟩
    rw [keyed.mem_list, follow.told]
  constructor
  · constructor
    · intro key
      exact congrArg Except.ok (follow.told key)
    · intro index
      exact ⟨store.list index, rfl, listed index⟩
  · constructor
    · intro key
      rw [← follow.told]
      exact follow.holds.get? key
    · intro index
      exact ⟨store.list index, follow.holds.list index, listed index⟩

/-- A new store in memory and a new table answer every call alike, and none of them fails, as long
as no two files are reported under one id. Afterwards both show for each file the record that its
reports since it was last without one leave. -/
theorem status_stores_agree {requests : List StatusRequest} (apart : IdsApart requests) :
    let memory := runAll requests (.memory .empty)
    let table := runAll requests StatusBackend.unprepared.migrated
    memory.1 = table.1 ∧ (∀ answer ∈ memory.1, ∃ told, answer = .ok told) ∧
      Shows requests memory.2 ∧ Shows requests table.2 := by
  intro memory table
  have apart : IdsApart ([] ++ requests) := apart
  obtain ⟨answers, after, final, inMemory, inTable, follow⟩ := follow_start.runAll apart
  have first : memory = (answers.map Except.ok, .memory after) := inMemory
  have second : table = (answers.map Except.ok, .table final) := inTable
  obtain ⟨shown, selected⟩ := follow.shows
  rw [first, second]
  refine ⟨rfl, ?_, shown, selected⟩
  intro answer member
  obtain ⟨told, _, rfl⟩ := List.mem_map.mp member
  exact ⟨told, rfl⟩

def reported : List StatusRequest :=
  [.upsert ⟨"1", "a", "note", .pending, none, 5, 5⟩,
   .upsert ⟨"2", "a", "note", .failed, some "unreadable", 7, 7⟩, .list "a"]

theorem reported_stores_agree :
    IdsApart reported ∧
      (runAll reported (.memory .empty)).1 =
        (runAll reported StatusBackend.unprepared.migrated).1 ∧
      (runAll reported StatusBackend.unprepared.migrated).2.get? ⟨"a", "note"⟩ =
        .ok (some ⟨"1", "a", "note", .failed, some "unreadable", 5, 7⟩) := by
  have apart : IdsApart reported := by
    intro first second firstMember secondMember _
    simp only [reported, List.mem_cons, upsert.injEq, reduceCtorEq, List.not_mem_nil,
      or_false] at firstMember secondMember
    rcases firstMember with rfl | rfl <;> rcases secondMember with rfl | rfl <;> rfl
  obtain ⟨same, _, _, shown⟩ := status_stores_agree apart
  exact ⟨apart, same, shown.found ⟨"a", "note"⟩⟩

end StatusRequest
end Corpora
