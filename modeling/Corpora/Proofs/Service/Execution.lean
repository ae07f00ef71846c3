import Corpora.Service.Documents

/-!
How programs of store calls end. `Program.Ends` speaks of the result of a program, the session
after it and the faults that it met; there is one rule for each way to put programs together. A
call on the object store is performed, or fails without effect, or is wrongly denied.
-/

namespace Corpora.Service

structure Fault where
  call : Call
  why : Failure

def Call.faults : (request : Call) → request.Answer → List Fault
  | .object call, .error why => [⟨.object call, why⟩]
  | .status call, .error why => [⟨.status call, why⟩]
  | _, _ => []

namespace Program

variable {α β : Type} {circumstances : Circumstances} {session : Session}

def faults (circumstances : Circumstances) : Program α → Session → List Fault
  | done _, _ => []
  | call request next, session =>
      let (answer, after) := session.handle circumstances request
      request.faults answer ++ (next answer).faults circumstances after

/-- The program ends in a result, a session and faults of which `post` holds. -/
def Ends (circumstances : Circumstances) (program : Program α) (session : Session)
    (post : α → Session → List Fault → Prop) : Prop :=
  post (program.run circumstances session).1 (program.run circumstances session).2
    (program.faults circumstances session)

theorem Ends.imp {program : Program α} {weak strong : α → Session → List Fault → Prop}
    (ends : program.Ends circumstances session strong)
    (implies : ∀ result after faults, strong result after faults → weak result after faults) :
    program.Ends circumstances session weak :=
  implies _ _ _ ends

theorem interpret_bind {σ : Type} (handle : (request : Call) → σ → request.Answer × σ)
    (program : Program α) (next : α → Program β) (state : σ) :
    (program.bind next).interpret handle state =
      (next (program.interpret handle state).1).interpret handle
        (program.interpret handle state).2 := by
  induction program generalizing state with
  | done result => rfl
  | call request continuation ih => exact ih _ _

theorem run_bind (circumstances : Circumstances) (program : Program α) (next : α → Program β)
    (session : Session) :
    (program.bind next).run circumstances session =
      (next (program.run circumstances session).1).run circumstances
        (program.run circumstances session).2 :=
  interpret_bind _ program next session

theorem faults_bind (program : Program α) (next : α → Program β) (session : Session) :
    (program.bind next).faults circumstances session =
      program.faults circumstances session ++
        (next (program.run circumstances session).1).faults circumstances
          (program.run circumstances session).2 := by
  induction program generalizing session with
  | done result => rfl
  | call request continuation ih =>
      simp only [bind, faults, ih, List.append_assoc]
      rfl

theorem Ends.bind {program : Program α} {next : α → Program β}
    {middle : α → Session → List Fault → Prop} {post : β → Session → List Fault → Prop}
    (first : program.Ends circumstances session middle)
    (rest : ∀ result after faults, middle result after faults →
      (next result).Ends circumstances after fun last final more =>
        post last final (faults ++ more)) :
    (program >>= next).Ends circumstances session post := by
  have ends := rest _ _ _ first
  unfold Ends at ends ⊢
  change post ((program.bind next).run _ _).1 ((program.bind next).run _ _).2
    ((program.bind next).faults _ _)
  rw [run_bind, faults_bind]
  exact ends

theorem ends_pure {value : α} {post : α → Session → List Fault → Prop} :
    (pure value : Program α).Ends circumstances session post ↔ post value session [] := Iff.rfl

end Program

namespace Action

variable {α β : Type} {circumstances : Circumstances} {session : Session}

def Ends (circumstances : Circumstances) (action : Action α) (session : Session)
    (post : Answered α → Session → List Fault → Prop) : Prop :=
  Program.Ends circumstances action.run session post

theorem Ends.imp {action : Action α} {weak strong : Answered α → Session → List Fault → Prop}
    (ends : Ends circumstances action session strong)
    (implies : ∀ answer after faults, strong answer after faults → weak answer after faults) :
    Ends circumstances action session weak :=
  implies _ _ _ ends

theorem Ends.bind {action : Action α} {next : α → Action β}
    {middle : Answered α → Session → List Fault → Prop}
    {post : Answered β → Session → List Fault → Prop}
    (first : Ends circumstances action session middle)
    (stop : ∀ error after faults, middle (.error error) after faults →
      post (.error error) after faults)
    (rest : ∀ value after faults, middle (.ok value) after faults →
      Ends circumstances (next value) after fun last final more =>
        post last final (faults ++ more)) :
    Ends circumstances (action >>= next) session post := by
  have ran : Program.Ends circumstances action.run session middle := first
  apply Program.Ends.bind ran
  intro answer after faults known
  cases answer with
  | ok value => exact rest value after faults known
  | error error =>
      have stopped := stop error after faults known
      rw [← List.append_nil faults] at stopped
      exact stopped

theorem ends_pure {value : α} {post : Answered α → Session → List Fault → Prop} :
    Ends circumstances (pure value) session post ↔ post (.ok value) session [] := Iff.rfl

theorem ends_throw {error : ServiceError} {post : Answered α → Session → List Fault → Prop} :
    Ends circumstances (throw error) session post ↔ post (.error error) session [] := Iff.rfl

theorem ends_throw_bind {error : ServiceError} {next : α → Action β}
    {post : Answered β → Session → List Fault → Prop} :
    Ends circumstances (throw error >>= next) session post ↔ post (.error error) session [] :=
  Iff.rfl

theorem Ends.lift {program : Program α} {post : Answered α → Session → List Fault → Prop}
    (ends : program.Ends circumstances session fun result after faults =>
      post (.ok result) after faults) :
    Ends circumstances (liftM program) session post := by
  apply Program.Ends.bind ends
  intro result after faults known
  have same : post (.ok result) after (faults ++ []) := by rwa [List.append_nil]
  exact same

theorem Ends.lift_bind {program : Program α} {next : α → Action β}
    {middle : α → Session → List Fault → Prop} {post : Answered β → Session → List Fault → Prop}
    (ends : program.Ends circumstances session middle)
    (rest : ∀ result after faults, middle result after faults →
      Ends circumstances (next result) after fun last final more =>
        post last final (faults ++ more)) :
    Ends circumstances (liftM program >>= next) session post := by
  have lifted : Ends circumstances (liftM program) session fun answer after faults =>
      ∃ result, answer = .ok result ∧ middle result after faults :=
    Ends.lift (ends.imp fun result after faults known => ⟨result, rfl, known⟩)
  apply Ends.bind lifted
  · rintro error after faults ⟨result, told, _⟩
    cases told
  · rintro value after faults ⟨result, told, known⟩
    cases told
    exact rest value after faults known

theorem Ends.map {action : Action α} {convert : α → β}
    {post : Answered β → Session → List Fault → Prop}
    (ends : Ends circumstances action session fun answer after faults =>
      post (answer.map convert) after faults) :
    Ends circumstances (do return convert (← action)) session post := by
  apply Ends.bind ends
  · exact fun error after faults known => known
  · intro value after faults known
    rw [ends_pure, List.append_nil]
    exact known

end Action

def ObjectCall.Does (before : ObjectStore) :
    (call : ObjectCall) → call.Answer → ObjectStore → Prop
  | .bucketExists bucket, answer, after => answer = before.bucketExists bucket ∧ after = before
  | .createBucket bucket, _, after =>
      before.buckets.get? bucket = none ∧ after = before.replace bucket .empty
  | .deleteBucket bucket, _, after =>
      ∃ found, before.buckets.get? bucket = some found ∧ after = ⟨before.buckets.erase bucket⟩
  | .listBuckets, names, after => names = before.buckets.keys ∧ after = before
  | .putObject bucket key content, _, after =>
      ∃ found now, before.buckets.get? bucket = some found ∧
        after = before.replace bucket
          { found with objects := found.objects.insert key ⟨content, now⟩ }
  | .getObject bucket key, answer, after =>
      ∃ found, before.buckets.get? bucket = some found ∧
        answer = (found.objects.get? key).map StoredObject.content ∧ after = before
  | .deleteObject bucket key, _, after =>
      ∃ found, before.buckets.get? bucket = some found ∧
        after = before.replace bucket { found with objects := found.objects.erase key }
  | .listObjects bucket, answer, after =>
      ∃ found, before.buckets.get? bucket = some found ∧
        answer = ObjectStore.listing found ∧ after = before
  | .setNotification bucket notification, _, after =>
      ∃ found, before.buckets.get? bucket = some found ∧
        after = before.replace bucket { found with notification := some notification }

theorem find_cases (store : ObjectStore) (bucket : String) :
    (∃ found, store.buckets.get? bucket = some found ∧ store.find bucket = .ok found) ∨
      (store.buckets.get? bucket = none ∧
        store.find bucket = .error (ObjectStore.bucketMissing bucket)) := by
  unfold ObjectStore.find
  cases store.buckets.get? bucket with
  | some found => exact Or.inl ⟨found, rfl, rfl⟩
  | none => exact Or.inr ⟨rfl, rfl⟩

theorem ObjectCall.does_of_perform {call : ObjectCall} {now : Time.Instant}
    {before after : ObjectStore} {answer : call.Answer}
    (performed : call.perform now before = (.ok answer, after)) :
    call.Does before answer after := by
  cases call with
  | bucketExists bucket =>
      cases performed
      exact ⟨rfl, rfl⟩
  | listBuckets =>
      cases performed
      exact ⟨rfl, rfl⟩
  | createBucket bucket =>
      simp only [perform, ObjectStore.createBucket] at performed
      split at performed
      · cases performed
      · next absent =>
        cases performed
        refine ⟨?_, rfl⟩
        simpa [ObjectStore.bucketExists, SortedMap.contains] using absent
  | deleteBucket bucket =>
      rcases find_cases before bucket with ⟨found, held, seen⟩ | ⟨_, seen⟩ <;>
        simp only [perform, ObjectStore.deleteBucket, seen] at performed <;> cases performed
      exact ⟨found, held, rfl⟩
  | putObject bucket key content =>
      rcases find_cases before bucket with ⟨found, held, seen⟩ | ⟨_, seen⟩ <;>
        simp only [perform, ObjectStore.putObject, seen] at performed <;> cases performed
      exact ⟨found, now, held, rfl⟩
  | getObject bucket key =>
      rcases find_cases before bucket with ⟨found, held, seen⟩ | ⟨_, seen⟩ <;>
        simp only [perform, ObjectStore.getObject, seen] at performed <;> cases performed
      exact ⟨found, held, rfl, rfl⟩
  | deleteObject bucket key =>
      rcases find_cases before bucket with ⟨found, held, seen⟩ | ⟨_, seen⟩ <;>
        simp only [perform, ObjectStore.deleteObject, seen] at performed <;> cases performed
      exact ⟨found, held, rfl⟩
  | listObjects bucket =>
      rcases find_cases before bucket with ⟨found, held, seen⟩ | ⟨_, seen⟩ <;>
        simp only [perform, ObjectStore.listObjects, seen] at performed <;> cases performed
      exact ⟨found, held, rfl, rfl⟩
  | setNotification bucket notification =>
      rcases find_cases before bucket with ⟨found, held, seen⟩ | ⟨_, seen⟩ <;>
        simp only [perform, ObjectStore.setNotification, seen] at performed <;> cases performed
      exact ⟨found, held, rfl⟩

/-- A call on the object store is answered with a value: it was performed, or denied. -/
def ObjectCall.Answers (before : Stores) (call : ObjectCall) (value : call.Answer)
    (after : Stores) : Prop :=
  (∃ objects, call.Does before.objects value objects ∧ after = { before with objects := objects }) ∨
    (call.denial? = some value ∧ after = before)

-- Only a question for a bucket can be denied.
theorem ObjectCall.Answers.does {call : ObjectCall} {before after : Stores} {value : call.Answer}
    (answered : call.Answers before value after) (undeniable : call.denial? = none) :
    ∃ objects, call.Does before.objects value objects ∧
      after = { before with objects := objects } := by
  rcases answered with performed | ⟨denied, _⟩
  · exact performed
  · rw [undeniable] at denied
    cases denied

theorem ObjectCall.Answers.unchanged {bucket : String} {before after : Stores} {there : Bool}
    (answered : (ObjectCall.bucketExists bucket).Answers before there after) : after = before := by
  rcases answered with ⟨objects, ⟨_, rfl⟩, same⟩ | ⟨_, same⟩
  · exact same
  · exact same

def ObjectCall.Observed (before : Stores) (call : ObjectCall) (answer : Attempt call.Answer)
    (after : Stores) (faults : List Fault) : Prop :=
  match answer with
  | .error why => after = before ∧ faults = [⟨.object call, why⟩]
  | .ok value => faults = [] ∧ call.Answers before value after

def StatusCall.Observed (before : Stores) (call : StatusCall) (answer : Attempt call.Answer)
    (after : Stores) (faults : List Fault) : Prop :=
  match answer with
  | .error why => after = before ∧ faults = [⟨.status call, why⟩]
  | .ok value => faults = [] ∧ ∃ statuses,
      call.perform before.statuses = (.ok value, statuses) ∧
        after = { before with statuses := statuses }

-- A call on the status store leaves the objects alone.
theorem StatusCall.Observed.stores {call : StatusCall} {before after : Stores}
    {answer : Attempt call.Answer} {faults : List Fault}
    (observed : call.Observed before answer after faults) :
    ∃ statuses, after = { before with statuses := statuses } := by
  cases answer with
  | error why => exact ⟨before.statuses, observed.1⟩
  | ok value => exact ⟨_, observed.2.choose_spec.2⟩

theorem StatusCall.Observed.listed {index : String} {before after : Stores}
    {answer : Attempt (List Document.Status)} {faults : List Fault}
    (observed : (StatusCall.list index).Observed before answer after faults) :
    after = before := by
  cases answer with
  | error why => exact observed.1
  | ok value =>
      obtain ⟨_, statuses, performed, rfl⟩ := observed
      have same : before.statuses = statuses := congrArg Prod.snd performed
      rw [← same]

-- A store that refuses a call by itself is left as it was, like one whose call was failed.
theorem ObjectCall.perform_refused {call : ObjectCall} {now : Time.Instant}
    {store after : ObjectStore} {why : Failure}
    (refused : call.perform now store = (.error why, after)) : after = store := by
  have kept : ∀ attempt : Attempt ObjectStore,
      ObjectCall.perform.changed store attempt = (.error why, after) → after = store := by
    intro attempt same
    cases attempt with
    | ok _ => cases same
    | error _ =>
        cases same
        rfl
  cases call with
  | bucketExists bucket => cases refused
  | listBuckets => cases refused
  | getObject bucket key => exact (congrArg Prod.snd refused).symm
  | listObjects bucket => exact (congrArg Prod.snd refused).symm
  | createBucket bucket => exact kept _ refused
  | deleteBucket bucket => exact kept _ refused
  | putObject bucket key content => exact kept _ refused
  | deleteObject bucket key => exact kept _ refused
  | setNotification bucket notification => exact kept _ refused

theorem StatusCall.perform_refused {call : StatusCall} {backend after : StatusBackend}
    {why : Failure} (refused : call.perform backend = (.error why, after)) : after = backend := by
  have kept : ∀ {γ : Type} (attempt : Attempt (γ × StatusBackend)),
      StatusCall.perform.valued backend attempt = (.error why, after) → after = backend := by
    intro γ attempt same
    cases attempt with
    | ok _ => cases same
    | error _ =>
        cases same
        rfl
  cases call with
  | upsert status => exact kept _ refused
  | list index => exact (congrArg Prod.snd refused).symm
  | delete key => exact kept _ refused
  | deleteIndex index => exact kept _ refused

section Calls

variable {circumstances : Circumstances} {session : Session}

theorem performObject_observed (call : ObjectCall) :
    call.Observed session.stores (session.performObject circumstances call).1
      (session.performObject circumstances call).2.stores
      (Call.faults (.object call) (session.performObject circumstances call).1) := by
  unfold Session.performObject
  rcases done : call.perform (circumstances.clock session.clockReads) session.stores.objects with
    ⟨answer, objects⟩
  cases answer with
  | ok value => exact ⟨rfl, Or.inl ⟨objects, ObjectCall.does_of_perform done, rfl⟩⟩
  | error why =>
      obtain rfl := ObjectCall.perform_refused done
      exact ⟨rfl, rfl⟩

theorem handle_observed (circumstances : Circumstances) (session : Session) (call : ObjectCall) :
    call.Observed session.stores (session.handle circumstances (.object call)).1
      (session.handle circumstances (.object call)).2.stores
      (Call.faults (.object call) (session.handle circumstances (.object call)).1) := by
  cases fate : circumstances.objectFate session.objectCalls call with
  | performed =>
      simp only [Session.handle, fate]
      exact performObject_observed call
  | failed why =>
      simp only [Session.handle, fate]
      exact ⟨rfl, rfl⟩
  | denied =>
      cases call with
      | bucketExists bucket =>
          simp only [Session.handle, fate, ObjectCall.denial?]
          exact ⟨rfl, Or.inr ⟨rfl, rfl⟩⟩
      | _ =>
          simp only [Session.handle, fate, ObjectCall.denial?]
          exact performObject_observed _

theorem handle_status_observed (circumstances : Circumstances) (session : Session)
    (call : StatusCall) :
    call.Observed session.stores (session.handle circumstances (.status call)).1
      (session.handle circumstances (.status call)).2.stores
      (Call.faults (.status call) (session.handle circumstances (.status call)).1) := by
  have performed : call.Observed session.stores (call.perform session.stores.statuses).1
      { session.stores with statuses := (call.perform session.stores.statuses).2 }
      (Call.faults (.status call) (call.perform session.stores.statuses).1) := by
    rcases done : call.perform session.stores.statuses with ⟨answer, statuses⟩
    cases answer with
    | ok value => exact ⟨rfl, statuses, done, rfl⟩
    | error why =>
        obtain rfl := StatusCall.perform_refused done
        exact ⟨rfl, rfl⟩
  cases fate : circumstances.statusFate session.statusCalls call with
  | performed =>
      simp only [Session.handle, fate]
      exact performed
  | failed why =>
      simp only [Session.handle, fate]
      exact ⟨rfl, rfl⟩
  | denied =>
      simp only [Session.handle, fate]
      exact performed

theorem Program.ends_object (call : ObjectCall) :
    (Program.object call).Ends circumstances session fun answer after faults =>
      call.Observed session.stores answer after.stores faults := by
  have observed := handle_observed circumstances session call
  rw [← List.append_nil (Call.faults _ _)] at observed
  exact observed

theorem Program.ends_status (call : StatusCall) :
    (Program.status call).Ends circumstances session fun answer after faults =>
      call.Observed session.stores answer after.stores faults := by
  have observed := handle_status_observed circumstances session call
  rw [← List.append_nil (Call.faults _ _)] at observed
  exact observed

theorem Program.ends_clock :
    Program.clock.Ends circumstances session fun time after faults =>
      after.stores = session.stores ∧ faults = [] ∧ ∃ reading, time = circumstances.clock reading :=
  ⟨rfl, rfl, session.clockReads, rfl⟩

-- A failed attempt ends the request at once, under the message that it was given.
theorem Action.Ends.attempt {α γ : Type} {program : Program (Attempt γ)} {message : String}
    {seen : Attempt γ → Session → List Fault → Prop} {next : γ → Action α}
    {post : Answered α → Session → List Fault → Prop}
    (ends : program.Ends circumstances session seen)
    (stop : ∀ why after faults, seen (.error why) after faults →
      post (.error (.internal message why)) after faults)
    (rest : ∀ value after faults, seen (.ok value) after faults →
      Action.Ends circumstances (next value) after fun last final more =>
        post last final (faults ++ more)) :
    Action.Ends circumstances
      ((ExceptT.mk do return (← program).internal message : Action γ) >>= next) session post := by
  have called : Action.Ends circumstances
      (ExceptT.mk do return (← program).internal message : Action γ) session
      fun answer after faults => ∃ attempt, seen attempt after faults ∧
        answer = attempt.internal message := by
    apply Program.Ends.bind ends
    intro attempt after faults known
    rw [Program.ends_pure, List.append_nil]
    exact ⟨attempt, known, rfl⟩
  apply Action.Ends.bind called
  · rintro error after faults ⟨attempt, known, told⟩
    cases attempt with
    | ok value => cases told
    | error why =>
        cases told
        exact stop why after faults known
  · rintro value after faults ⟨attempt, known, told⟩
    cases attempt with
    | error why => cases told
    | ok found =>
        cases told
        exact rest value after faults known

theorem Action.Ends.object {α : Type} {call : ObjectCall} {message : String}
    {next : call.Answer → Action α} {post : Answered α → Session → List Fault → Prop}
    (stop : ∀ why after, after.stores = session.stores →
      post (.error (.internal message why)) after [⟨.object call, why⟩])
    (rest : ∀ value after, call.Answers session.stores value after.stores →
      Action.Ends circumstances (next value) after post) :
    Action.Ends circumstances (Action.object call message >>= next) session post := by
  apply Action.Ends.attempt (Program.ends_object call)
  · rintro why after _ ⟨kept, rfl⟩
    exact stop why after kept
  · rintro value after _ ⟨rfl, answered⟩
    exact rest value after answered

theorem Action.Ends.status {α : Type} {call : StatusCall} {message : String}
    {next : call.Answer → Action α} {post : Answered α → Session → List Fault → Prop}
    (stop : ∀ why after, after.stores = session.stores →
      post (.error (.internal message why)) after [⟨.status call, why⟩])
    (rest : ∀ value after statuses, after.stores = { session.stores with statuses := statuses } →
      Action.Ends circumstances (next value) after post) :
    Action.Ends circumstances (Action.status call message >>= next) session post := by
  apply Action.Ends.attempt (Program.ends_status call)
  · rintro why after _ ⟨kept, rfl⟩
    exact stop why after kept
  · rintro value after _ ⟨rfl, statuses, _, kept⟩
    exact rest value after statuses kept

end Calls
end Corpora.Service
