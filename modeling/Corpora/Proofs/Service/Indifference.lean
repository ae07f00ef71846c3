import Corpora.Proofs.Service.Operation

/-!
The status store cannot influence the documents. Two runs of one program over the same objects are
followed side by side: they make the same calls on the object store, whatever the status store
answers on either side. So two services that differ in their status records, and in which calls on
them fail, always hold the same objects, and their answers differ only in what they tell of
statuses.
-/

namespace Corpora

def Document.Entry.withoutStatus (entry : Document.Entry) : Document.Entry :=
  { entry with progress := none, errorMessage := none }

def Answered.Match {α β : Type} (related : α → β → Prop) : Answered α → Answered β → Prop
  | .ok left, .ok right => related left right
  | .error left, .error right => left = right
  | _, _ => False

theorem Answered.Match.eq {α : Type} {left right : Answered α}
    (same : Answered.Match Eq left right) : left = right := by
  cases left with
  | ok value =>
      cases right with
      | ok other => exact congrArg Except.ok same
      | error _ => exact same.elim
  | error error =>
      cases right with
      | ok _ => exact same.elim
      | error _ => exact congrArg Except.error same

namespace Service

/-- Two programs that make the same calls on the object store and read the clock at the same
points, whatever the status store answers either of them; their results are related. -/
inductive Program.InStep {α β : Type} (related : α → β → Prop) : Program α → Program β → Prop
  | done {left : α} {right : β} (same : related left right) :
      InStep related (.done left) (.done right)
  | object (call : ObjectCall) {left : Attempt call.Answer → Program α}
      {right : Attempt call.Answer → Program β}
      (rest : ∀ answer, InStep related (left answer) (right answer)) :
      InStep related (.call (.object call) left) (.call (.object call) right)
  | status (call other : StatusCall) {left : Attempt call.Answer → Program α}
      {right : Attempt other.Answer → Program β}
      (rest : ∀ answer different, InStep related (left answer) (right different)) :
      InStep related (.call (.status call) left) (.call (.status other) right)
  | clock {left : Time.Instant → Program α} {right : Time.Instant → Program β}
      (rest : ∀ now, InStep related (left now) (right now)) :
      InStep related (.call .clock left) (.call .clock right)
  | freshId {left : String → Program α} {right : String → Program β}
      (rest : ∀ id other, InStep related (left id) (right other)) :
      InStep related (.call .freshId left) (.call .freshId right)

namespace Program

variable {α β γ δ : Type} {related : α → β → Prop} {linked : γ → δ → Prop}

theorem InStep.imp {weaker : α → β → Prop} {left : Program α} {right : Program β}
    (inStep : InStep related left right) (implies : ∀ a b, related a b → weaker a b) :
    InStep weaker left right := by
  induction inStep with
  | done same => exact .done (implies _ _ same)
  | object call _ ih => exact .object call ih
  | status call other _ ih => exact .status call other ih
  | clock _ ih => exact .clock ih
  | freshId _ ih => exact .freshId ih

theorem InStep.bind {left : Program α} {right : Program β} {next : α → Program γ}
    {follow : β → Program δ} (first : InStep related left right)
    (rest : ∀ a b, related a b → InStep linked (next a) (follow b)) :
    InStep linked (left >>= next) (right >>= follow) := by
  induction first with
  | done same => exact rest _ _ same
  | object call _ ih => exact .object call ih
  | status call other _ ih => exact .status call other ih
  | clock _ ih => exact .clock ih
  | freshId _ ih => exact .freshId ih

/-- A program whose result does not depend on the status store either. -/
abbrev Steady (program : Program α) : Prop := InStep Eq program program

theorem steady_pure (value : α) : Steady (pure value : Program α) := .done rfl

theorem steady_object (call : ObjectCall) : Steady (Program.object call) :=
  .object call steady_pure

theorem steady_clock : Steady Program.clock := .clock steady_pure

theorem inStep_status (call other : StatusCall) :
    InStep (fun _ _ => True) (Program.status call) (Program.status other) :=
  .status call other fun _ _ => .done trivial

theorem Steady.bind {program : Program α} {next : α → Program γ} (first : Steady program)
    (rest : ∀ value, Steady (next value)) : Steady (program >>= next) := by
  apply InStep.bind first
  rintro value _ rfl
  exact rest value

end Program

namespace Action

variable {α β γ δ : Type} {related : α → β → Prop} {linked : γ → δ → Prop}

def InStep (related : α → β → Prop) (left : Action α) (right : Action β) : Prop :=
  Program.InStep (Answered.Match related) left.run right.run

abbrev Steady (action : Action α) : Prop := InStep Eq action action

theorem inStep_pure {left : α} {right : β} (same : related left right) :
    InStep related (pure left : Action α) (pure right) :=
  Program.InStep.done same

theorem InStep.bind {left : Action α} {right : Action β} {next : α → Action γ}
    {follow : β → Action δ} (first : InStep related left right)
    (rest : ∀ a b, related a b → InStep linked (next a) (follow b)) :
    InStep linked (left >>= next) (right >>= follow) := by
  apply Program.InStep.bind first
  intro answer other same
  cases answer with
  | ok value =>
      cases other with
      | ok different => exact rest value different same
      | error _ => exact same.elim
  | error error =>
      cases other with
      | ok _ => exact same.elim
      | error _ => exact .done same

theorem InStep.lift {left : Program α} {right : Program β}
    (first : Program.InStep related left right) :
    InStep related (liftM left : Action α) (liftM right) := by
  apply Program.InStep.bind first
  intro a b same
  exact .done same

theorem steady_throw (error : ServiceError) : Steady (throw error : Action α) :=
  Program.InStep.done rfl

theorem Steady.bind {action : Action α} {next : α → Action γ} (first : Steady action)
    (rest : ∀ value, Steady (next value)) : Steady (action >>= next) := by
  apply InStep.bind first
  rintro value _ rfl
  exact rest value

theorem steady_object (call : ObjectCall) (message : String) :
    Steady (Action.object call message) := by
  apply Program.InStep.bind (Program.steady_object call)
  rintro attempt _ rfl
  cases attempt with
  | ok value => exact .done rfl
  | error why => exact .done rfl

-- What two actions in step tell is compared after their values are turned into replies.
theorem inStep_map {told : Answered α → Answered β → Prop} {linked : Answered γ → Answered δ → Prop}
    {left : Action α} {right : Action β} {convert : α → γ} {follow : β → δ}
    (first : Program.InStep told left.run right.run)
    (tells : ∀ answer other, told answer other → linked (answer.map convert) (other.map follow)) :
    Program.InStep linked (do return convert (← left) : Action γ)
      (do return follow (← right) : Action δ) := by
  apply Program.InStep.bind first
  intro answer other same
  have both := tells answer other same
  cases answer <;> cases other <;> exact .done both

end Action

section Indices

open Service.Action (Steady)

theorem readMetadata_steady (bucket : String) : (readMetadata bucket).Steady := by
  apply Program.Steady.bind (Program.steady_object _)
  intro attempt
  rcases attempt with why | _ | content <;> exact Program.steady_pure _

theorem requireIndex_steady (name : String) : Steady (requireIndex name) := by
  unfold requireIndex
  by_cases valid : Index.isValidName name
  · simp only [valid, Bool.not_true, Bool.false_eq_true, ↓reduceIte]
    apply Steady.bind (Action.steady_object _ _)
    intro there
    cases there with
    | false => exact Action.steady_throw _
    | true =>
        apply Action.InStep.bind (.lift (readMetadata_steady name))
        rintro found _ rfl
        rcases found with why | _ | index
        · exact Action.steady_throw _
        · exact Action.steady_throw _
        · exact Action.inStep_pure rfl
  · simp only [valid, Bool.not_false, ↓reduceIte]
    exact Action.steady_throw _

theorem readIndices_steady (buckets : List String) : (readIndices buckets).Steady := by
  induction buckets with
  | nil => exact Program.steady_pure _
  | cons bucket rest ih =>
      apply Program.Steady.bind (readMetadata_steady bucket)
      intro found
      rcases found with why | _ | index
      · exact ih
      · exact ih
      · exact ih.bind fun _ => Program.steady_pure _

theorem listIndices_steady : Steady listIndices := by
  apply Steady.bind (Action.steady_object _ _)
  intro buckets
  apply Action.InStep.bind (.lift (readIndices_steady buckets))
  rintro found _ rfl
  exact Action.inStep_pure rfl

theorem rollBack_steady (bucket : String) : (rollBack bucket).Steady :=
  (Program.steady_object _).bind fun _ => Program.steady_pure _

theorem createIndex_steady (target : NotificationTarget) (name description : String) :
    Steady (createIndex target name description) := by
  have undone : ∀ error, Steady
      (do
        liftM (rollBack name)
        throw error : Action Index) := by
    intro error
    apply Action.InStep.bind (.lift (rollBack_steady name))
    intro _ _ _
    exact Action.steady_throw error
  unfold createIndex
  by_cases empty : name.isEmpty
  · simp only [empty, ↓reduceIte]
    exact Action.steady_throw _
  by_cases valid : Index.isValidName name
  · simp only [empty, valid, Bool.not_true, Bool.false_eq_true, ↓reduceIte]
    apply Steady.bind (Action.steady_object _ _)
    intro there
    cases there with
    | true => exact Action.steady_throw _
    | false =>
        apply Steady.bind (Action.steady_object _ _)
        intro made
        apply Action.InStep.bind (.lift (Program.steady_object _))
        rintro armed _ rfl
        cases armed with
        | error why => exact undone _
        | ok _ =>
            apply Action.InStep.bind (.lift Program.steady_clock)
            rintro now _ rfl
            apply Action.InStep.bind (.lift (Program.steady_object _))
            rintro stored _ rfl
            cases stored with
            | error why => exact undone _
            | ok _ => exact Action.inStep_pure rfl
  · simp only [empty, valid, Bool.not_false, Bool.false_eq_true, ↓reduceIte]
    exact Action.steady_throw _

theorem updateIndex_steady (name description : String) :
    Steady (updateIndex name description) := by
  apply Steady.bind (requireIndex_steady name)
  intro index
  apply Steady.bind (Action.steady_object _ _)
  intro stored
  exact Action.inStep_pure rfl

theorem deleteIndex_steady (name : String) : Steady (deleteIndex name) := by
  unfold deleteIndex
  by_cases valid : Index.isValidName name
  · simp only [valid, Bool.not_true, Bool.false_eq_true, ↓reduceIte]
    apply Steady.bind (Action.steady_object _ _)
    intro there
    cases there with
    | false => exact Action.steady_throw _
    | true =>
        apply Steady.bind (Action.steady_object _ _)
        intro dropped
        apply Action.InStep.bind (.lift (Program.inStep_status _ _))
        intro _ _ _
        exact Action.inStep_pure rfl
  · simp only [valid, Bool.not_false, ↓reduceIte]
    exact Action.steady_throw _

end Indices

section Documents

open Document (Entry Status)
open Service.Action (Steady)

theorem newStatus_inStep (index filename : String) (progress : Document.Progress)
    (errorMessage : Option String) :
    Program.InStep (fun _ _ => True) (newStatus index filename progress errorMessage)
      (newStatus index filename progress errorMessage) :=
  .clock fun _ => .freshId fun _ _ => .done trivial

theorem uploadDocument_steady (name filename : String) (data : Bytes)
    (contentType : Option String) : Steady (uploadDocument name filename data contentType) := by
  unfold uploadDocument
  cases Document.checkFilename filename with
  | error refusal => exact Action.steady_throw _
  | ok _ =>
      apply Steady.bind (requireIndex_steady name)
      intro index
      apply Steady.bind (Action.steady_object _ _)
      intro stored
      -- The two records differ in their ids, and so do the calls that store them.
      apply Action.InStep.bind (.lift (newStatus_inStep _ _ _ _))
      intro record other _
      apply Action.InStep.bind (.lift (Program.inStep_status _ _))
      intro _ _ _
      apply Action.InStep.bind (.lift Program.steady_clock)
      rintro now _ rfl
      exact Action.inStep_pure rfl

theorem downloadDocument_steady (name filename : String) :
    Steady (downloadDocument name filename) := by
  unfold downloadDocument
  by_cases reserved : Document.isReserved filename
  · simp only [reserved, ↓reduceIte]
    exact Action.steady_throw _
  · simp only [reserved, Bool.false_eq_true, ↓reduceIte]
    apply Steady.bind (requireIndex_steady name)
    intro index
    apply Steady.bind (Action.steady_object _ _)
    intro content
    cases content with
    | some content => exact Action.inStep_pure rfl
    | none => exact Action.steady_throw _

theorem deleteDocument_steady (name filename : String) :
    Steady (deleteDocument name filename) := by
  unfold deleteDocument
  by_cases reserved : Document.isReserved filename
  · simp only [reserved, ↓reduceIte]
    exact Action.steady_throw _
  · simp only [reserved, Bool.false_eq_true, ↓reduceIte]
    apply Steady.bind (Action.steady_object _ _)
    intro cleared
    apply Action.InStep.bind (.lift (Program.inStep_status _ _))
    intro _ _ _
    exact Action.inStep_pure rfl

theorem entryOf_withoutStatus (left right : List Status) (object : ObjectInfo) :
    (entryOf left object).withoutStatus = (entryOf right object).withoutStatus := rfl

def SameDocuments (left right : List Entry) : Prop :=
  left.map Entry.withoutStatus = right.map Entry.withoutStatus

theorem listDocuments_inStep (name : String) :
    Action.InStep SameDocuments (listDocuments name) (listDocuments name) := by
  apply Action.InStep.bind (requireIndex_steady name)
  rintro index _ rfl
  apply Action.InStep.bind (Action.steady_object _ _)
  rintro objects _ rfl
  apply Action.InStep.bind (.lift (Program.inStep_status _ _))
  intro rows others _
  apply Action.inStep_pure
  simp only [SameDocuments, List.map_map]
  exact List.map_congr_left fun object _ => entryOf_withoutStatus _ _ object

theorem updateStatus_inStep (name filename progress : String) (errorMessage : Option String) :
    Program.InStep (fun _ _ => True) (updateStatus name filename progress errorMessage).run
      (updateStatus name filename progress errorMessage).run := by
  unfold updateStatus
  by_cases blank : (Text.trim progress).isEmpty
  · simp only [blank, ↓reduceIte]
    exact .done trivial
  · simp only [blank, Bool.false_eq_true, ↓reduceIte]
    cases Document.Progress.parse progress with
    | error why => exact .done trivial
    | ok progress =>
        refine .clock fun now => .freshId fun id other => .status _ _ fun answer different => ?_
        cases answer <;> cases different <;> exact .done trivial

theorem deleteStatus_inStep (name filename : String) :
    Program.InStep (fun _ _ => True) (deleteStatus name filename).run
      (deleteStatus name filename).run := by
  refine .status _ _ fun answer different => ?_
  cases answer <;> cases different <;> exact .done trivial

end Documents

section Requests

open Document (Entry)

def Reply.withoutStatus : Reply → Reply
  | .entries listed => .entries (listed.map Entry.withoutStatus)
  | reply => reply

/-- What an answer tells of the objects: documents are listed without their status, and a request
that is about a status record alone tells nothing. -/
def Operation.objectView : Operation → Answered Reply → Option (Answered Reply)
  | .report .., _ | .forget .., _ => none
  | .documents _, answer => some (answer.map Reply.withoutStatus)
  | _, answer => some answer

theorem Operation.action_inStep (target : NotificationTarget) (operation : Operation) :
    Program.InStep (fun left right => operation.objectView left = operation.objectView right)
      (operation.action target) (operation.action target) := by
  have steady : ∀ {α : Type} {action : Action α} (reply : α → Reply), Action.Steady action →
      Program.InStep (fun left right => operation.objectView left = operation.objectView right)
        (do return reply (← action) : Action Reply)
        (do return reply (← action) : Action Reply) := by
    intro α action reply inStep
    apply Action.inStep_map inStep
    intro answer other same
    rw [same.eq]
  -- A request about a status record alone tells nothing, so its answers need not be related.
  have silent : ∀ {α : Type} {action : Action α} (reply : α → Reply),
      Program.InStep (fun _ _ => True) action.run action.run →
      (∀ left right, operation.objectView left = operation.objectView right) →
      Program.InStep (fun left right => operation.objectView left = operation.objectView right)
        (do return reply (← action) : Action Reply)
        (do return reply (← action) : Action Reply) := by
    intro α action reply inStep untold
    exact Action.inStep_map inStep fun answer other _ => untold _ _
  cases operation with
  | create name description => exact steady Reply.index (createIndex_steady target name description)
  | get name => exact steady Reply.index (requireIndex_steady name)
  | list => exact steady Reply.indices listIndices_steady
  | summarize =>
      exact steady Reply.summaries
        (listIndices_steady.bind fun _ => Action.inStep_pure rfl)
  | update name description => exact steady Reply.index (updateIndex_steady name description)
  | delete name => exact steady (fun _ => Reply.done) (deleteIndex_steady name)
  | upload name filename data contentType =>
      exact steady Reply.entry (uploadDocument_steady name filename data contentType)
  | download name filename => exact steady Reply.content (downloadDocument_steady name filename)
  | documents name =>
      apply Action.inStep_map (listDocuments_inStep name)
      intro answer other same
      cases answer with
      | ok entries =>
          cases other with
          | ok others => exact congrArg (fun listed => some (Except.ok (Reply.entries listed))) same
          | error _ => exact same.elim
      | error error =>
          cases other with
          | ok _ => exact same.elim
          | error _ => exact congrArg (fun error => some (Except.error error)) same
  | remove name filename => exact steady (fun _ => Reply.done) (deleteDocument_steady name filename)
  | report name filename progress errorMessage =>
      exact silent Reply.status (updateStatus_inStep name filename progress errorMessage)
        fun _ _ => rfl
  | forget name filename =>
      exact silent (fun _ => Reply.done) (deleteStatus_inStep name filename) fun _ _ => rfl

end Requests

section Runs

/-- The same circumstances with another status store: other calls on it fail, and other ids are
drawn for the records. -/
def Circumstances.withStatuses (circumstances : Circumstances)
    (statusFate : Nat → StatusCall → Fate) (ids : Nat → String) : Circumstances :=
  { circumstances with statusFate := statusFate, ids := ids }

structure Session.SameObjects (left right : Session) : Prop where
  objects : left.stores.objects = right.stores.objects
  calls : left.objectCalls = right.objectCalls
  readings : left.clockReads = right.clockReads

variable (circumstances : Circumstances) (statusFate : Nat → StatusCall → Fate)
  (ids : Nat → String)

theorem handle_object_same {left right : Session} (same : left.SameObjects right)
    (call : ObjectCall) :
    (left.handle circumstances (.object call)).1 =
        (right.handle (circumstances.withStatuses statusFate ids) (.object call)).1 ∧
      (left.handle circumstances (.object call)).2.SameObjects
        (right.handle (circumstances.withStatuses statusFate ids) (.object call)).2 := by
  obtain ⟨⟨objects, _⟩, calls, _, readings, _⟩ := left
  obtain ⟨⟨_, _⟩, _, _, _, _⟩ := right
  obtain ⟨rfl, rfl, rfl⟩ := same
  simp only [Session.handle, Circumstances.withStatuses]
  split
  · exact ⟨rfl, rfl, rfl, rfl⟩
  · exact ⟨rfl, rfl, rfl, rfl⟩
  · exact ⟨rfl, rfl, rfl, rfl⟩

theorem handle_status_same {left right : Session} (same : left.SameObjects right)
    (call other : StatusCall) :
    (left.handle circumstances (.status call)).2.SameObjects
      (right.handle (circumstances.withStatuses statusFate ids) (.status other)).2 := by
  have kept : ∀ (circumstances : Circumstances) (session : Session) (call : StatusCall),
      session.SameObjects (session.handle circumstances (.status call)).2 := by
    intro circumstances session call
    simp only [Session.handle]
    split <;> exact ⟨rfl, rfl, rfl⟩
  have first := kept circumstances left call
  have second := kept (circumstances.withStatuses statusFate ids) right other
  exact ⟨first.objects.symm.trans (same.objects.trans second.objects),
    first.calls.symm.trans (same.calls.trans second.calls),
    first.readings.symm.trans (same.readings.trans second.readings)⟩

theorem run_call {α : Type} (circumstances : Circumstances) (request : Call)
    (next : request.Answer → Program α) (session : Session) :
    (Program.call request next).run circumstances session =
      (next (session.handle circumstances request).1).run circumstances
        (session.handle circumstances request).2 := rfl

theorem Program.InStep.run {α β : Type} {related : α → β → Prop} {program : Program α}
    {other : Program β} (inStep : InStep related program other) {left right : Session}
    (same : left.SameObjects right) :
    related (program.run circumstances left).1
        (other.run (circumstances.withStatuses statusFate ids) right).1 ∧
      (program.run circumstances left).2.SameObjects
        (other.run (circumstances.withStatuses statusFate ids) right).2 := by
  induction inStep generalizing left right with
  | done related => exact ⟨related, same⟩
  | object call _ ih =>
      obtain ⟨answers, after⟩ := handle_object_same circumstances statusFate ids same call
      rw [run_call, run_call, ← answers]
      exact ih _ after
  | status call other _ ih =>
      rw [run_call, run_call]
      exact ih _ _ (handle_status_same circumstances statusFate ids same call other)
  | clock _ ih =>
      have told : (right.handle (circumstances.withStatuses statusFate ids) .clock).1 =
          (left.handle circumstances .clock).1 := congrArg circumstances.clock same.readings.symm
      rw [run_call, run_call, told]
      exact ih _ ⟨same.objects, same.calls, congrArg (· + 1) same.readings⟩
  | freshId _ ih =>
      rw [run_call, run_call]
      exact ih _ _ ⟨same.objects, same.calls, same.readings⟩

/-- After every run of requests the objects are the same whatever the status store holds and
whichever calls on it fail, and each answer on the way told the same of them. -/
theorem play_objectView (target : NotificationTarget) (operations : List Operation)
    {left right : Session} (same : left.SameObjects right) :
    let first := play target circumstances operations left
    let second := play target (circumstances.withStatuses statusFate ids) operations right
    first.2.SameObjects second.2 ∧
      List.zipWith Operation.objectView operations first.1 =
        List.zipWith Operation.objectView operations second.1 := by
  induction operations generalizing left right with
  | nil => exact ⟨same, rfl⟩
  | cons operation rest ih =>
      obtain ⟨told, after⟩ :=
        (operation.action_inStep target).run circumstances statusFate ids same
      obtain ⟨final, answers⟩ := ih after
      constructor
      · exact final
      · exact List.cons_eq_cons.mpr ⟨told, answers⟩

theorem length_play (target : NotificationTarget) (operations : List Operation)
    (session : Session) :
    (play target circumstances operations session).1.length = operations.length := by
  induction operations generalizing session with
  | nil => rfl
  | cons operation rest ih => exact congrArg (· + 1) (ih _)

/-- Two services start with the same objects, and serve the same requests while the same calls on
the object store fail and the clock shows the same. After any number of requests they hold the same
objects, and all their answers agree in what they tell of these, whatever either status store holds
and whichever calls on it fail. -/
theorem objects_ignore_statuses (target : NotificationTarget) (circumstances : Circumstances)
    (statusFate : Nat → StatusCall → Fate) (ids : Nat → String) (objects : ObjectStore)
    (statuses others : StatusBackend) (operations : List Operation) (made : Nat) :
    let requests := operations.take made
    let first := play target circumstances requests (.start ⟨objects, statuses⟩)
    let second := play target (circumstances.withStatuses statusFate ids) requests
      (.start ⟨objects, others⟩)
    first.2.stores.objects = second.2.stores.objects ∧
      first.1.length = requests.length ∧ second.1.length = requests.length ∧
      List.zipWith Operation.objectView requests first.1 =
        List.zipWith Operation.objectView requests second.1 := by
  intro requests first second
  have start : (Session.start ⟨objects, statuses⟩).SameObjects (.start ⟨objects, others⟩) :=
    ⟨rfl, rfl, rfl⟩
  obtain ⟨same, answers⟩ := play_objectView circumstances statusFate ids target requests start
  exact ⟨same.objects, length_play _ _ _ _, length_play _ _ _ _, answers⟩

end Runs

end Service
end Corpora
