import Corpora.Proofs.Service.Faultless
import Corpora.Proofs.Status.Table

/-!
What the store shows of a report. The answer to a report is the record that was made for it, while
a store that holds an earlier record of the file keeps the id and the time of creation of that one.
-/

namespace Corpora

open Document (Status Progress)

/-- A report with the names, the id and the time of creation of an earlier record, if there is
one. -/
def Document.Status.mergedInto (report : Status) : Option StatusRow → Status
  | none => report
  | some held =>
      { report with
        id := held.id
        index := held.index
        filename := held.filename
        createdAt := held.createdAt }

theorem Document.Status.mergedInto_eq_iff (report : Status) (earlier : Option StatusRow) :
    report.mergedInto earlier = report ↔ ∀ held, earlier = some held →
      held.key = report.key ∧ held.id = report.id ∧ held.createdAt = report.createdAt := by
  cases earlier with
  | none => simp [mergedInto]
  | some held =>
      obtain ⟨id, index, filename, progress, errorMessage, createdAt, updatedAt⟩ := report
      simp only [mergedInto, Status.mk.injEq, Option.some.injEq, forall_eq', StatusRow.key,
        Status.key, StatusKey.mk.injEq, true_and]
      tauto

theorem StatusRow.status_revise (held : StatusRow) (report : Status) :
    (held.revise (.ofStatus report)).status = .ok (report.mergedInto (some held)) := by
  simp only [StatusRow.status, revise, ofStatus, parse_name]
  rfl

-- Revising rows leaves their keys as they are, so the first row of a key stays the first.
theorem StatusTable.find_upsert {table after : StatusTable} {row : StatusRow}
    (written : table.upsert row = some after) :
    after.rows.find? (fun held => held.key == row.key) =
      some (((table.rows.find? fun held => held.key == row.key).map (·.revise row)).getD row) := by
  let change (held : StatusRow) : StatusRow :=
    if held.key == row.key then held.revise row else held
  have keyed : (fun held : StatusRow => held.key == row.key) ∘ change =
      fun held => held.key == row.key := by
    funext held
    simp only [Function.comp_apply, change]
    split <;> rfl
  cases found : table.rows.find? fun held => held.key == row.key with
  | some first =>
      have known : (table.rows.any fun held => held.key == row.key) = true := by
        rw [← List.isSome_find?, found, Option.isSome_some]
      simp only [upsert, known, ↓reduceIte] at written
      cases written
      have own := List.find?_some found
      change (table.rows.map change).find? (fun held => held.key == row.key) = _
      rw [List.find?_map, keyed, found]
      simp only [Option.map_some, Option.getD_some, change, own, ↓reduceIte]
  | none =>
      have unknown : (table.rows.any fun held => held.key == row.key) = false := by
        rw [← List.isSome_find?, found, Option.isSome_none]
      simp only [upsert, unknown, Bool.false_eq_true, ↓reduceIte] at written
      split at written
      · cases written
      · cases written
        rw [List.find?_append, found]
        simp

namespace StatusBackend

variable {backend after : StatusBackend} {key : StatusKey} {report : Status}

/-- What is kept under a key: in memory its record, in a table its first row. -/
def held? : StatusBackend → StatusKey → Option StatusRow
  | memory store, key => (store.get? key).map .ofStatus
  | table rows, key => rows.rows.find? fun row => row.key == key
  | unprepared, _ => none

theorem get?_of_held {row : StatusRow} (held : backend.held? key = some row) :
    backend.get? key = row.status.map some := by
  cases backend with
  | memory store =>
      obtain ⟨status, found, rfl⟩ := Option.map_eq_some_iff.mp held
      rw [get?, found, StatusRow.status_ofStatus]
      rfl
  | table rows =>
      have found : rows.rows.find? (fun row => row.key == key) = some row := held
      rw [get?, StatusTable.get?, found]
  | unprepared => cases held

theorem held?_upsert (written : backend.upsert report = .ok after) :
    after.held? report.key =
      some (((backend.held? report.key).map (·.revise (.ofStatus report))).getD
        (.ofStatus report)) := by
  cases backend with
  | memory store =>
      cases written
      cases found : store.records.get? report.key with
      | none =>
          simp only [held?, StatusStore.get?, StatusStore.upsert, found,
            SortedMap.get?_insert_self]
          rfl
      | some held =>
          simp only [held?, StatusStore.get?, StatusStore.upsert, found,
            SortedMap.get?_insert_self]
          rfl
  | table rows =>
      simp only [upsert] at written
      split at written
      · next done =>
        cases written
        exact StatusTable.find_upsert done
      · cases written
  | unprepared => cases written

theorem get?_upsert (written : backend.upsert report = .ok after) :
    after.get? report.key = .ok (some (report.mergedInto (backend.held? report.key))) := by
  rw [get?_of_held (held?_upsert written)]
  cases backend.held? report.key with
  | none =>
      simp only [Option.map_none, Option.getD_none, StatusRow.status_ofStatus]
      rfl
  | some held =>
      simp only [Option.map_some, Option.getD_some, StatusRow.status_revise]
      rfl

theorem held?_reports {reports : List Status} {first : StatusRow}
    (own : ∀ report ∈ reports, report.key = key) (held : backend.held? key = some first)
    (written : reports.foldlM upsert backend = .ok after) :
    ∃ last, after.held? key = some last ∧ last.id = first.id ∧
      last.createdAt = first.createdAt := by
  induction reports generalizing backend first with
  | nil =>
      cases written
      exact ⟨first, held, rfl, rfl⟩
  | cons report rest ih =>
      have same := own report List.mem_cons_self
      cases taken : backend.upsert report with
      | error why =>
          rw [List.foldlM_cons, taken] at written
          cases written
      | ok next =>
          rw [List.foldlM_cons, taken] at written
          have revised := held?_upsert taken
          rw [same, held, Option.map_some, Option.getD_some] at revised
          obtain ⟨last, kept, id, created⟩ :=
            ih (fun later member => own later (List.mem_cons_of_mem _ member)) revised written
          exact ⟨last, kept, id, created⟩

end StatusBackend

namespace Service

variable {circumstances : Circumstances} {session after : Session}
  {name filename progress : String} {errorMessage : Option String} {report : Status}

theorem StatusCall.upsert_of_perform {backend statuses : StatusBackend} {value : Unit}
    (performed : (StatusCall.upsert report).perform backend = (.ok value, statuses)) :
    backend.upsert report = .ok statuses := by
  simp only [StatusCall.perform] at performed
  cases written : backend.upsert report with
  | ok changed =>
      rw [written] at performed
      cases performed
      rfl
  | error why =>
      rw [written] at performed
      cases performed

theorem updateStatus_ends (name filename progress : String) (errorMessage : Option String) :
    Action.Ends circumstances (updateStatus name filename progress errorMessage) session
      fun answer after _ => ∀ report, answer = .ok report →
        report.key = ⟨name, filename⟩ ∧ Progress.parse progress = .ok report.progress ∧
        report.errorMessage = (errorMessage.filter fun text => !text.isEmpty) ∧
        session.stores.statuses.upsert report = .ok after.stores.statuses := by
  unfold updateStatus
  by_cases blank : (Text.trim progress).isEmpty
  · simp only [blank, ↓reduceIte, Action.ends_throw_bind]
    exact nofun
  · simp only [blank, Bool.false_eq_true, ↓reduceIte]
    cases parsed : Progress.parse progress with
    | error why =>
        simp only [Action.ends_throw]
        exact nofun
    | ok progressed =>
        let message := errorMessage.filter fun text => !text.isEmpty
        have made : (newStatus name filename progressed message).Ends circumstances session
            fun status drawn _ => drawn.stores = session.stores ∧
              status.key = ⟨name, filename⟩ ∧ status.progress = progressed ∧
              status.errorMessage = message := ⟨rfl, rfl, rfl, rfl⟩
        apply Action.Ends.lift_bind made
        rintro status drawn _ ⟨kept, key, progressedSo, messageSo⟩
        apply Action.Ends.attempt (Program.ends_status _)
        · exact fun _ _ _ _ => nofun
        · rintro _ final _ ⟨-, statuses, performed, stored⟩
          rw [Action.ends_pure]
          rintro _ ⟨⟩
          rw [kept] at performed
          refine ⟨key, by rw [progressedSo], messageSo, ?_⟩
          rw [stored]
          exact StatusCall.upsert_of_perform performed

/-- A report that is answered is shown by the store just as it is answered if and only if there
was no earlier record of the file, or one of the same id and time of creation. The earlier record
keeps both, while the answer has those of the report. -/
theorem report_is_stored_iff
    (told : (updateStatus name filename progress errorMessage).outcome circumstances session =
      (.ok report, after)) :
    let earlier := session.stores.statuses.held? ⟨name, filename⟩
    report.key = ⟨name, filename⟩ ∧ Progress.parse progress = .ok report.progress ∧
    report.errorMessage = (errorMessage.filter fun text => !text.isEmpty) ∧
    after.stores.statuses.get? ⟨name, filename⟩ = .ok (some (report.mergedInto earlier)) ∧
    (after.stores.statuses.get? ⟨name, filename⟩ = .ok (some report) ↔
      ∀ held, earlier = some held → held.key = ⟨name, filename⟩ ∧ held.id = report.id ∧
        held.createdAt = report.createdAt) := by
  have answered : Program.run circumstances
      (updateStatus name filename progress errorMessage).run session = (.ok report, after) := told
  have ends : Action.Ends circumstances (updateStatus name filename progress errorMessage)
      session _ := updateStatus_ends name filename progress errorMessage
  rw [Action.Ends, Program.Ends, answered] at ends
  obtain ⟨key, parsed, message, written⟩ := ends report rfl
  have shown := StatusBackend.get?_upsert written
  rw [key] at shown
  refine ⟨key, parsed, message, shown, ?_⟩
  rw [shown, Except.ok.injEq, Option.some.injEq, Status.mergedInto_eq_iff, key]

/-- Circumstances in which the clock goes on and the first id that is drawn is not drawn again. -/
def counting : Circumstances where
  objectFate _ _ := .performed
  statusFate _ _ := .performed
  clock reading := ⟨reading, 0⟩
  ids drawn := if drawn = 0 then "first" else "later"

def unreported (statuses : StatusBackend) : Session := .start ⟨⟨∅⟩, statuses⟩

def reported (progress : String) (session : Session) : Answered Status × Session :=
  (updateStatus "docs" "a.md" progress none).outcome counting session

def onRecord (session : Session) : Attempt (Option Status) :=
  session.stores.statuses.get? ⟨"docs", "a.md"⟩

def reportedTwice (statuses : StatusBackend) : Answered Status × Attempt (Option Status) :=
  let second := reported "completed" (reported "pending" (unreported statuses)).2
  (second.1, onRecord second.2)

theorem first_report_is_stored :
    ∃ report, (reported "pending" (unreported (.memory .empty))).1 = .ok report ∧
      onRecord (reported "pending" (unreported (.memory .empty))).2 = .ok (some report) := by
  have told : (updateStatus "docs" "a.md" "pending" none).outcome counting
      (unreported (.memory .empty)) =
        (.ok ⟨"first", "docs", "a.md", .pending, none, 0, 0⟩,
          (reported "pending" (unreported (.memory .empty))).2) := by
    rfl
  obtain ⟨-, -, -, -, stored⟩ := report_is_stored_iff told
  exact ⟨_, rfl, stored.mpr nofun⟩

/-- A second report is answered with an id and a time of creation that no record has, in memory
and in a table. -/
theorem second_report_is_misstated :
    reportedTwice (.memory .empty) =
        (.ok ⟨"later", "docs", "a.md", .completed, none, 1, 1⟩,
          .ok (some ⟨"first", "docs", "a.md", .completed, none, 0, 1⟩)) ∧
      reportedTwice (.table .empty) =
        (.ok ⟨"later", "docs", "a.md", .completed, none, 1, 1⟩,
          .ok (some ⟨"first", "docs", "a.md", .completed, none, 0, 1⟩)) := by
  constructor <;> rfl

end Service
end Corpora
