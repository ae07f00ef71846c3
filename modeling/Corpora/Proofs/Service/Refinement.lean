import Corpora.Proofs.Service.Outcome
import Corpora.Proofs.Service.Representation

/-!
Where no store call fails the service is its catalogue: every request is answered as the catalogue
answers it in one step, and the stores keep the catalogue from one request to the next.
-/

namespace Corpora.Service

open Document (Entry Progress Status)

/-- The moments are what the clock showed during a request, if it was read at all, and the id is
the first one that could be drawn. -/
def Moments.Read (circumstances : Circumstances) (before after : Session) (moments : Moments) :
    Prop :=
  before.clockReads < after.clockReads → ∃ created stored recorded told,
    before.clockReads ≤ created ∧ created < after.clockReads ∧
      before.clockReads ≤ stored ∧ stored ≤ recorded ∧ recorded ≤ told ∧
      told < after.clockReads ∧
      moments = ⟨circumstances.clock created, circumstances.clock stored,
        circumstances.clock recorded, circumstances.clock told,
        circumstances.ids before.idsDrawn⟩

theorem Moments.read_at (circumstances : Circumstances) {before after : Session}
    (count created stored recorded told : Nat)
    (passed : after.clockReads = before.clockReads + count)
    (order : created < count ∧ stored ≤ recorded ∧ recorded ≤ told ∧ told < count) :
    Moments.Read circumstances before after
      ⟨circumstances.clock (before.clockReads + created),
        circumstances.clock (before.clockReads + stored),
        circumstances.clock (before.clockReads + recorded),
        circumstances.clock (before.clockReads + told), circumstances.ids before.idsDrawn⟩ := by
  intro _
  refine ⟨before.clockReads + created, before.clockReads + stored, before.clockReads + recorded,
    before.clockReads + told, ?_, ?_, ?_, ?_, ?_, ?_, rfl⟩ <;> omega

/-- The catalogue gives the answer of the service at moments of the request, and the stores after
the request keep the catalogue after it. -/
def Follows (target : NotificationTarget) (circumstances : Circumstances) (catalog : Catalog)
    (operation : Operation) (session : Session) : Prop :=
  ∃ moments : Moments,
    moments.Read circumstances session (operation.run target circumstances session).2 ∧
      (operation.run target circumstances session).1 = (catalog.step moments operation).1 ∧
      Represents (catalog.step moments operation).2
        (operation.run target circumstances session).2.stores

section Following

variable {target : NotificationTarget} {circumstances : Circumstances} {catalog final : Catalog}
  {operation : Operation} {session after : Session} {answer : Answered Reply}

theorem follows_at (moments : Moments)
    (outcome : (operation.action target).outcome circumstances session = (answer, after))
    (read : moments.Read circumstances session after)
    (represents : Represents final after.stores)
    (step : catalog.step moments operation = (answer, final)) :
    Follows target circumstances catalog operation session := by
  have ran : operation.run target circumstances session = (answer, after) := outcome
  refine ⟨moments, ?_, ?_, ?_⟩
  · rw [ran]
    exact read
  · rw [ran, step]
  · rw [ran, step]
    exact represents

-- Where the moments do not matter the first reading will do for all of them.
theorem follows_anyway
    (outcome : (operation.action target).outcome circumstances session = (answer, after))
    (represents : Represents final after.stores)
    (step : ∀ moments, catalog.step moments operation = (answer, final)) :
    Follows target circumstances catalog operation session := by
  let first := circumstances.clock session.clockReads
  let moments : Moments := ⟨first, first, first, first, circumstances.ids session.idsDrawn⟩
  refine follows_at moments outcome ?_ represents (step moments)
  intro some
  exact ⟨_, _, _, _, Nat.le_refl _, some, Nat.le_refl _, Nat.le_refl _, Nat.le_refl _, some, rfl⟩

end Following

-- Every proof below follows the catalogue through one of its steps.
attribute [local simp] Catalog.step

section Indices

variable {target : NotificationTarget} {circumstances : Circumstances} {catalog : Catalog}
  {session : Session} (faultless : circumstances.Faultless)
  (represents : Represents catalog session.stores)
include faultless represents

theorem create_follows (regular : ∀ number, (circumstances.clock number).Regular)
    (name description : String) :
    Follows target circumstances catalog (.create name description) session := by
  by_cases empty : name.isEmpty
  · have refused : (createIndex target name description).outcome circumstances session =
        (.error nameMissing, session) := by
      unfold createIndex
      simp only [empty, ↓reduceIte]
      rfl
    refine follows_anyway (Action.outcome_map refused) represents ?_
    intro moments
    simp only [Catalog.step, empty, ↓reduceIte]
    rfl
  by_cases valid : Index.isValidName name
  · cases found : catalog.shelves.get? name with
    | some shelf =>
        have present : catalog.shelves.contains name = true := by
          rw [SortedMap.contains, found]
          rfl
        have refused : (createIndex target name description).outcome circumstances session =
            (.error (indexPresent name), session.performed session.stores.objects) := by
          unfold createIndex
          simp only [empty, valid, Bool.not_true, Bool.false_eq_true, ↓reduceIte]
          rw [Action.outcome_bind (Action.outcome_object faultless session rfl)]
          simp only [represents.contains_same, present, ↓reduceIte]
          rfl
        refine follows_anyway (Action.outcome_map refused) represents ?_
        intro moments
        simp only [Catalog.step, empty, valid, present, Bool.not_true, Bool.false_eq_true,
          ↓reduceIte]
        rfl
    | none =>
        have absent : catalog.shelves.contains name = false := by
          rw [SortedMap.contains, found]
          rfl
        have solid : name.isEmpty = false := Bool.eq_false_iff.mpr empty
        refine follows_at _ (Action.outcome_map (createIndex_outcome faultless description solid
          valid (represents.absent name found)))
          (Moments.read_at circumstances 5 3 0 0 0 rfl (by decide))
          (represents.put (.new valid (regular _) _ _)) ?_
        simp only [Catalog.step, empty, valid, absent, Bool.not_true, Bool.false_eq_true,
          ↓reduceIte]
        rfl
  · have refused : (createIndex target name description).outcome circumstances session =
        (.error nameInvalid, session) := by
      unfold createIndex
      simp only [empty, valid, Bool.not_false, Bool.false_eq_true, ↓reduceIte]
      rfl
    refine follows_anyway (Action.outcome_map refused) represents ?_
    intro moments
    simp only [Catalog.step, empty, valid, Bool.not_false, Bool.false_eq_true, ↓reduceIte]
    rfl

-- What begins with looking the index up ends with it where there is none.
theorem missing_follows {operation : Operation} {name : String}
    (missing : catalog.shelves.get? name = none)
    (ends : ∀ after, (requireIndex name).outcome circumstances session =
        (.error indexMissing, after) →
      (operation.action target).outcome circumstances session = (.error indexMissing, after))
    (step : ∀ moments, catalog.step moments operation = (.error indexMissing, catalog)) :
    Follows target circumstances catalog operation session := by
  obtain ⟨after, required, kept⟩ :=
    requireIndex_outcome_missing faultless (represents.index_missing missing)
  rw [← kept] at represents
  exact follows_anyway (ends after required) represents step

theorem get_follows (name : String) :
    Follows target circumstances catalog (.get name) session := by
  cases found : catalog.shelves.get? name with
  | none =>
      refine missing_follows faultless represents found
        (fun after required => Action.outcome_map required) ?_
      intro moments
      simp only [Catalog.step, Catalog.onShelf, found]
  | some shelf =>
      obtain ⟨bucket, held, kept⟩ := represents.kept name shelf found
      refine follows_anyway (Action.outcome_map (requireIndex_outcome faultless kept.valid
        (represents.index_found found))) represents ?_
      intro moments
      simp only [Catalog.step, Catalog.onShelf, found]
      rfl

theorem list_follows : Follows target circumstances catalog .list session := by
  obtain ⟨after, listed, kept⟩ := listIndices_outcome faultless session
  rw [ObjectStore.sorted_of_sublist represents.named (List.Sublist.refl _),
    represents.indices_same] at listed
  rw [← kept] at represents
  exact follows_anyway (Action.outcome_map listed) represents fun _ => rfl

theorem summarize_follows : Follows target circumstances catalog .summarize session := by
  obtain ⟨after, listed, kept⟩ := listIndices_outcome faultless session
  rw [ObjectStore.sorted_of_sublist represents.named (List.Sublist.refl _),
    represents.indices_same] at listed
  rw [← kept] at represents
  exact follows_anyway (Action.outcome_map (Action.outcome_map listed)) represents fun _ => rfl

theorem update_follows (name description : String) :
    Follows target circumstances catalog (.update name description) session := by
  cases found : catalog.shelves.get? name with
  | none =>
      refine missing_follows faultless represents found
        (fun after required => Action.outcome_map (Action.outcome_bind_error required)) ?_
      intro moments
      simp only [Catalog.step, Catalog.onShelf, found]
  | some shelf =>
      obtain ⟨bucket, held, kept⟩ := represents.kept name shelf found
      have updated := updateIndex_outcome faultless description kept.valid
        (represents.index_found found) held
      refine follows_anyway (Action.outcome_map updated)
        (represents.put (kept.describe description _)) ?_
      intro moments
      simp only [Catalog.step, Catalog.onShelf, found]
      rfl

theorem delete_follows (name : String) :
    Follows target circumstances catalog (.delete name) session := by
  cases found : catalog.shelves.get? name with
  | none =>
      obtain ⟨after, ends, same⟩ :=
        deleteIndex_outcome_missing faultless (represents.absent name found)
      refine follows_anyway (Action.outcome_bind_error ends) (same ▸ represents) ?_
      intro moments
      simp only [Catalog.step, Catalog.onShelf, found]
  | some shelf =>
      obtain ⟨bucket, held, kept⟩ := represents.kept name shelf found
      have deleted := deleteIndex_outcome faultless kept.valid held represents.statuses
      refine follows_anyway (Action.outcome_bind deleted) (represents.drop name) ?_
      intro moments
      simp only [Catalog.step, Catalog.onShelf, found]

end Indices

section Documents

variable {target : NotificationTarget} {circumstances : Circumstances} {catalog : Catalog}
  {session : Session} (faultless : circumstances.Faultless)
  (represents : Represents catalog session.stores)
include faultless represents

omit faultless represents in
theorem uploadContentType_eq (contentType : Option String) : uploadContentType contentType =
    (contentType.filter fun given => !given.isEmpty).getD "application/octet-stream" := by
  cases contentType with
  | none => rfl
  | some given => cases blank : given.isEmpty <;> simp [uploadContentType, Option.filter, blank, defaultContentType]

theorem upload_follows (name filename : String) (data : Bytes) (contentType : Option String) :
    Follows target circumstances catalog (.upload name filename data contentType) session := by
  cases admitted : Document.checkFilename filename with
  | error refusal =>
      have refused : (uploadDocument name filename data contentType).outcome circumstances session =
          (.error (.badRequest refusal.message), session) := by
        simp only [uploadDocument, admitted]
        rfl
      refine follows_anyway (Action.outcome_map refused) represents ?_
      intro moments
      simp only [Catalog.step, admitted]
      rfl
  | ok _ =>
      cases found : catalog.shelves.get? name with
      | none =>
          apply missing_follows faultless represents found
          · intro after required
            have refused : (uploadDocument name filename data contentType).outcome circumstances
                session = (.error indexMissing, after) := by
              simp only [uploadDocument, admitted]
              exact Action.outcome_bind_error required
            exact Action.outcome_map refused
          · intro moments
            simp only [Catalog.step, Catalog.onShelf, admitted, found]
      | some shelf =>
          obtain ⟨bucket, held, kept⟩ := represents.kept name shelf found
          have uploaded := uploadDocument_outcome faultless data contentType admitted kept.valid
            (represents.index_found found) held represents.statuses
          refine follows_at _ (Action.outcome_map uploaded)
            (Moments.read_at circumstances 5 0 2 3 4 rfl (by decide))
            ((represents.put (kept.upload _ admitted)).record _) ?_
          simp only [Catalog.step, Catalog.onShelf, admitted, found, ← uploadContentType_eq]
          rfl

theorem download_follows (name filename : String) :
    Follows target circumstances catalog (.download name filename) session := by
  cases reserved : Document.isReserved filename with
  | true =>
      have refused : (downloadDocument name filename).outcome circumstances session =
          (.error (.badRequest "Cannot download reserved file"), session) := by
        simp only [downloadDocument, reserved, ↓reduceIte]
        rfl
      refine follows_anyway (Action.outcome_map refused) represents ?_
      intro moments
      simp only [Catalog.step, reserved, ↓reduceIte]
      rfl
  | false =>
      cases found : catalog.shelves.get? name with
      | none =>
          apply missing_follows faultless represents found
          · intro after required
            have refused : (downloadDocument name filename).outcome circumstances session =
                (.error indexMissing, after) := by
              simp only [downloadDocument, reserved, Bool.false_eq_true, ↓reduceIte]
              exact Action.outcome_bind_error required
            exact Action.outcome_map refused
          · intro moments
            simp only [Catalog.step, Catalog.onShelf, reserved, found, Bool.false_eq_true,
              ↓reduceIte]
      | some shelf =>
          obtain ⟨bucket, held, kept⟩ := represents.kept name shelf found
          have downloaded := downloadDocument_outcome faultless reserved kept.valid
            (represents.index_found found) held
          rw [kept.document reserved] at downloaded
          refine follows_anyway (Action.outcome_map downloaded) represents ?_
          intro moments
          simp only [Catalog.step, Catalog.onShelf, reserved, found, Bool.false_eq_true, ↓reduceIte]
          cases shelf.documents.get? filename <;> rfl

theorem documents_follows (name : String) :
    Follows target circumstances catalog (.documents name) session := by
  cases found : catalog.shelves.get? name with
  | none =>
      refine missing_follows faultless represents found
        (fun after required => Action.outcome_map (Action.outcome_bind_error required)) ?_
      intro moments
      simp only [Catalog.step, Catalog.onShelf, found]
  | some shelf =>
      obtain ⟨bucket, held, kept⟩ := represents.kept name shelf found
      let rows := StatusStore.list ⟨catalog.statuses⟩ name
      have entries : ((ObjectStore.listing bucket).filter isDocument).map (entryOf rows) =
          shelf.documents.entries.map (catalog.entry name) := by
        rw [kept.listed, List.map_map]
        apply List.map_congr_left
        intro document _
        simp only [Function.comp, entryOf, rows, represents.find_status, Catalog.entry]
      have shown := listDocuments_outcome faultless kept.valid (represents.index_found found) held
        represents.statuses
      rw [entries] at shown
      refine follows_anyway (Action.outcome_map shown)
        (represents.with_statuses represents.keyed) ?_
      intro moments
      simp only [Catalog.step, Catalog.onShelf, found]
      rfl

theorem remove_follows (name filename : String) :
    Follows target circumstances catalog (.remove name filename) session := by
  cases reserved : Document.isReserved filename with
  | true =>
      have refused : (deleteDocument name filename).outcome circumstances session =
          (.error (.badRequest "Cannot delete reserved file"), session) := by
        simp only [deleteDocument, reserved, ↓reduceIte]
        rfl
      refine follows_anyway (Action.outcome_bind_error refused) represents ?_
      intro moments
      simp only [Catalog.step, reserved, ↓reduceIte]
  | false =>
      cases found : catalog.shelves.get? name with
      | none =>
          have refused := deleteDocument_outcome_missing faultless reserved
            (represents.absent name found)
          refine follows_anyway (Action.outcome_bind_error refused) represents ?_
          intro moments
          simp only [Catalog.step, reserved, found, Bool.false_eq_true, ↓reduceIte]
      | some shelf =>
          obtain ⟨bucket, held, kept⟩ := represents.kept name shelf found
          have removed := deleteDocument_outcome faultless reserved held represents.statuses
          refine follows_anyway (Action.outcome_bind removed)
            ((represents.put (kept.remove reserved)).forget name filename) ?_
          intro moments
          simp only [Catalog.step, reserved, found, Bool.false_eq_true, ↓reduceIte]

theorem report_follows (name filename progress : String) (errorMessage : Option String) :
    Follows target circumstances catalog (.report name filename progress errorMessage)
      session := by
  by_cases blank : (Text.trim progress).isEmpty
  · have refused : (updateStatus name filename progress errorMessage).outcome circumstances
        session = (.error (.badRequest "Status is required"), session) := by
      simp only [updateStatus, blank, ↓reduceIte]
      rfl
    refine follows_anyway (Action.outcome_map refused) represents ?_
    intro moments
    simp only [Catalog.step, blank, ↓reduceIte]
    rfl
  cases parsed : Progress.parse progress with
  | error why =>
      have refused : (updateStatus name filename progress errorMessage).outcome circumstances
          session = (.error (.badRequest why.message), session) := by
        simp only [updateStatus, blank, parsed, Bool.false_eq_true, ↓reduceIte]
        rfl
      refine follows_anyway (Action.outcome_map refused) represents ?_
      intro moments
      simp only [Catalog.step, blank, parsed, Bool.false_eq_true, ↓reduceIte]
      rfl
  | ok progressed =>
      have solid : (Text.trim progress).isEmpty = false := Bool.eq_false_iff.mpr blank
      have reported := updateStatus_outcome faultless name filename errorMessage solid parsed
        represents.statuses
      refine follows_at _ (Action.outcome_map reported)
        (Moments.read_at circumstances 1 0 0 0 0 rfl (by decide)) (represents.record _) ?_
      simp only [Catalog.step, blank, parsed, Bool.false_eq_true, ↓reduceIte]
      rfl

theorem forget_follows (name filename : String) :
    Follows target circumstances catalog (.forget name filename) session := by
  have ended := deleteStatus_outcome faultless name filename represents.statuses
  exact follows_anyway (Action.outcome_bind ended) (represents.forget name filename) fun _ => rfl

end Documents

section Runs

variable {target : NotificationTarget} {circumstances : Circumstances}

/-- Each request is answered by the catalogue that the stores keep, and is followed by it. -/
theorem step_follows (target : NotificationTarget) (faultless : circumstances.Faultless)
    (regular : ∀ number, (circumstances.clock number).Regular) {catalog : Catalog}
    {session : Session} (represents : Represents catalog session.stores) (operation : Operation) :
    Follows target circumstances catalog operation session := by
  cases operation with
  | create name description => exact create_follows faultless represents regular name description
  | get name => exact get_follows faultless represents name
  | list => exact list_follows faultless represents
  | summarize => exact summarize_follows faultless represents
  | update name description => exact update_follows faultless represents name description
  | delete name => exact delete_follows faultless represents name
  | upload name filename data contentType =>
      exact upload_follows faultless represents name filename data contentType
  | download name filename => exact download_follows faultless represents name filename
  | documents name => exact documents_follows faultless represents name
  | remove name filename => exact remove_follows faultless represents name filename
  | report name filename progress errorMessage =>
      exact report_follows faultless represents name filename progress errorMessage
  | forget name filename => exact forget_follows faultless represents name filename

def Timed (target : NotificationTarget) (circumstances : Circumstances) :
    List (Operation × Moments) → Session → Prop
  | [], _ => True
  | (operation, moments) :: rest, session =>
      let after := (operation.run target circumstances session).2
      moments.Read circumstances session after ∧ Timed target circumstances rest after

-- The induction carries the catalogue that the stores keep from one request to the next.
theorem run_follows (faultless : circumstances.Faultless)
    (regular : ∀ number, (circumstances.clock number).Regular) (operations : List Operation)
    {catalog : Catalog} {session : Session} (represents : Represents catalog session.stores) :
    ∃ requests : List (Operation × Moments), requests.map Prod.fst = operations ∧
      Timed target circumstances requests session ∧
      (play target circumstances operations session).1 = (Catalog.play requests catalog).1 ∧
      Represents (Catalog.play requests catalog).2
        (play target circumstances operations session).2.stores := by
  induction operations generalizing catalog session with
  | nil => exact ⟨[], rfl, trivial, rfl, represents⟩
  | cons operation rest ih =>
      obtain ⟨moments, read, answered, kept⟩ :=
        step_follows target faultless regular represents operation
      obtain ⟨requests, same, timed, answers, final⟩ := ih kept
      refine ⟨(operation, moments) :: requests, ?_, ⟨read, timed⟩, ?_, final⟩
      · rw [List.map_cons, same]
      · simp only [play, Catalog.play, answered, answers]

/-- From empty stores the service answers every run of requests as a catalogue does, and in the end
its stores keep that catalogue. -/
theorem service_refines_catalog (target : NotificationTarget) (circumstances : Circumstances)
    (faultless : circumstances.Faultless)
    (regular : ∀ number, (circumstances.clock number).Regular) (operations : List Operation) :
    ∃ requests : List (Operation × Moments), requests.map Prod.fst = operations ∧
      Timed target circumstances requests (.start ⟨.empty, .memory .empty⟩) ∧
      (play target circumstances operations (.start ⟨.empty, .memory .empty⟩)).1 =
        (Catalog.play requests .empty).1 ∧
      Represents (Catalog.play requests .empty).2
        (play target circumstances operations (.start ⟨.empty, .memory .empty⟩)).2.stores :=
  run_follows faultless regular operations represents_empty

def uploads : List Operation :=
  [.create "a" "first", .upload "a" "n.txt" [104, 105] none,
    .report "a" "n.txt" "failed" (some "no text"), .upload "a" "n.txt" [104] (some ""),
    .documents "a"]

/-- The second upload sets the row back, and the listing shows it. -/
theorem calm_refines_catalog :
    calm.Faultless ∧ (∀ number, (calm.clock number).Regular) ∧
      ∃ requests : List (Operation × Moments), requests.map Prod.fst = uploads ∧
        (play ⟨"q", "webhook", "", []⟩ calm uploads (.start ⟨.empty, .memory .empty⟩)).1 =
          (Catalog.play requests .empty).1 ∧
        (Catalog.play requests .empty).1.getLast?.bind Except.toOption = some (.entries
          [⟨"n.txt", 1, some "application/octet-stream", Time.Instant.epoch, some .pending, none⟩]) := by
  obtain ⟨requests, same, _, answers, _⟩ := service_refines_catalog ⟨"q", "webhook", "", []⟩ calm
    calm_faultless calm_regular uploads
  refine ⟨calm_faultless, calm_regular, requests, same, answers, ?_⟩
  rw [← answers]
  decide +kernel

end Runs
end Corpora.Service
