import Corpora.Proofs.Service.Execution
import Corpora.Proofs.Service.Operation

/-!
Which calls on the object store a program makes. A run is followed call by call, against whatever
answers; a rule for each way to put programs together tells which calls there can be at all. A
request about the content of a document looks its index up under a valid name, but a filename
becomes a key as it was given.
-/

namespace Corpora.Service

namespace Program

variable {σ α β : Type}

/-- Run from a state, the program makes a call on the object store; the call meets the last
state. -/
inductive Makes (handle : (request : Call) → σ → request.Answer × σ) :
    Program α → σ → ObjectCall → σ → Prop
  | here (made : ObjectCall) {next : Attempt made.Answer → Program α} (state : σ) :
      Makes handle (.call (.object made) next) state made state
  | later {request : Call} {next : request.Answer → Program α} {state met : σ} {made : ObjectCall}
      (rest : Makes handle (next (handle request state).1) (handle request state).2 made met) :
      Makes handle (.call request next) state made met

/-- Whatever it is answered, the program makes allowed calls only on the object store. -/
inductive MakesOnly (allowed : ObjectCall → Prop) : Program α → Prop
  | done (result : α) : MakesOnly allowed (.done result)
  | object {call : ObjectCall} {next : Attempt call.Answer → Program α} (known : allowed call)
      (rest : ∀ answer, MakesOnly allowed (next answer)) :
      MakesOnly allowed (.call (.object call) next)
  | status (call : StatusCall) {next : Attempt call.Answer → Program α}
      (rest : ∀ answer, MakesOnly allowed (next answer)) :
      MakesOnly allowed (.call (.status call) next)
  | clock {next : Time.Instant → Program α} (rest : ∀ now, MakesOnly allowed (next now)) :
      MakesOnly allowed (.call .clock next)
  | freshId {next : String → Program α} (rest : ∀ id, MakesOnly allowed (next id)) :
      MakesOnly allowed (.call .freshId next)

variable {handle : (request : Call) → σ → request.Answer × σ} {allowed : ObjectCall → Prop}

theorem Makes.holds {program : Program α} {start met : σ} {made : ObjectCall}
    (makes : Makes handle program start made met) (only : program.MakesOnly allowed) :
    allowed made := by
  induction makes with
  | here made state =>
      cases only with
      | object known _ => exact known
  | later _ ih =>
      apply ih
      cases only with
      | object _ rest => exact rest _
      | status _ rest => exact rest _
      | clock rest => exact rest _
      | freshId rest => exact rest _

theorem Makes.left {program : Program α} {next : α → Program β} {start met : σ}
    {made : ObjectCall} (makes : Makes handle program start made met) :
    Makes handle (program >>= next) start made met := by
  induction makes with
  | here made state => exact .here made state
  | later _ ih => exact .later ih

theorem Makes.bind {program : Program α} {next : α → Program β} {start after met : σ} {value : α}
    {made : ObjectCall} (first : program.interpret handle start = (value, after))
    (makes : Makes handle (next value) after made met) :
    Makes handle (program >>= next) start made met := by
  induction program generalizing start with
  | done result =>
      cases first
      exact makes
  | call request rest ih => exact .later (ih _ first)

theorem interpret_bind_of_eq {program : Program α} {next : α → Program β} {start after : σ}
    {value : α} (first : program.interpret handle start = (value, after)) :
    (program >>= next).interpret handle start = (next value).interpret handle after := by
  have whole := interpret_bind handle program next start
  rwa [first] at whole

theorem interpret_object {call : ObjectCall} {start after : σ} {answer : Attempt call.Answer}
    (answered : handle (.object call) start = (answer, after)) :
    (object call).interpret handle start = (answer, after) := by
  rw [object, interpret, answered]
  rfl

theorem MakesOnly.bind {program : Program α} {next : α → Program β}
    (first : program.MakesOnly allowed) (rest : ∀ value, (next value).MakesOnly allowed) :
    (program >>= next).MakesOnly allowed := by
  induction first with
  | done result => exact rest result
  | object known _ ih => exact .object known ih
  | status call _ ih => exact .status call ih
  | clock _ ih => exact .clock ih
  | freshId _ ih => exact .freshId ih

theorem MakesOnly.imp {weaker : ObjectCall → Prop} {program : Program α}
    (only : program.MakesOnly allowed) (implies : ∀ call, allowed call → weaker call) :
    program.MakesOnly weaker := by
  induction only with
  | done result => exact .done result
  | object known _ ih => exact .object (implies _ known) ih
  | status call _ ih => exact .status call ih
  | clock _ ih => exact .clock ih
  | freshId _ ih => exact .freshId ih

theorem makesOnly_object {call : ObjectCall} (known : allowed call) :
    (object call).MakesOnly allowed :=
  .object known .done

theorem makesOnly_status (call : StatusCall) : (status call).MakesOnly allowed :=
  .status call .done

theorem makesOnly_clock : clock.MakesOnly allowed := .clock .done

end Program

namespace Action

variable {α β : Type} {allowed : ObjectCall → Prop}

def MakesOnly (allowed : ObjectCall → Prop) (action : Action α) : Prop :=
  Program.MakesOnly allowed action.run

theorem makesOnly_pure (value : α) : MakesOnly allowed (pure value : Action α) := .done _

theorem makesOnly_throw (error : ServiceError) : MakesOnly allowed (throw error : Action α) :=
  .done _

theorem MakesOnly.bind {action : Action α} {next : α → Action β} (first : MakesOnly allowed action)
    (rest : ∀ value, MakesOnly allowed (next value)) : MakesOnly allowed (action >>= next) := by
  apply Program.MakesOnly.bind first
  intro answer
  cases answer with
  | ok value => exact rest value
  | error error => exact .done _

theorem MakesOnly.imp {weaker : ObjectCall → Prop} {action : Action α}
    (only : MakesOnly allowed action) (implies : ∀ call, allowed call → weaker call) :
    MakesOnly weaker action :=
  Program.MakesOnly.imp only implies

theorem makesOnly_object {call : ObjectCall} {message : String} (known : allowed call) :
    MakesOnly allowed (object call message) :=
  (Program.makesOnly_object known).bind fun _ => .done _

theorem MakesOnly.lift {program : Program α} (only : program.MakesOnly allowed) :
    MakesOnly allowed (liftM program : ExceptT ServiceError Program α) :=
  only.bind fun _ => .done _

variable {σ : Type} {handle : (request : Call) → σ → request.Answer × σ}

theorem makes_left {action : Action α} {next : α → Action β} {start met : σ} {made : ObjectCall}
    (makes : Program.Makes handle action.run start made met) :
    Program.Makes handle (action >>= next).run start made met :=
  Program.Makes.left makes

theorem makes_bind {action : Action α} {next : α → Action β} {start after met : σ} {value : α}
    {made : ObjectCall} (first : Program.interpret handle action.run start = (.ok value, after))
    (makes : Program.Makes handle (next value).run after made met) :
    Program.Makes handle (action >>= next).run start made met :=
  Program.Makes.bind first makes

theorem makes_object {call : ObjectCall} {message : String} (start : σ) :
    Program.Makes handle (object call message).run start call start :=
  .here call start

theorem interpret_bind {action : Action α} {next : α → Action β} {start after : σ} {value : α}
    (first : Program.interpret handle action.run start = (.ok value, after)) :
    Program.interpret handle (action >>= next).run start =
      Program.interpret handle (next value).run after :=
  Program.interpret_bind_of_eq first

theorem interpret_bind_error {action : Action α} {next : α → Action β} {start after : σ}
    {error : ServiceError}
    (first : Program.interpret handle action.run start = (.error error, after)) :
    Program.interpret handle (action >>= next).run start = (.error error, after) :=
  Program.interpret_bind_of_eq first

theorem interpret_object {call : ObjectCall} {message : String} {start after : σ}
    {answer : Attempt call.Answer} (answered : handle (.object call) start = (answer, after)) :
    Program.interpret handle (object call message).run start = (answer.internal message, after) :=
  Program.interpret_bind_of_eq (Program.interpret_object answered)

theorem interpret_lift {program : Program α} {start after : σ} {value : α}
    (first : program.interpret handle start = (value, after)) :
    Program.interpret handle (liftM program : ExceptT ServiceError Program α).run start =
      (.ok value, after) :=
  Program.interpret_bind_of_eq first

end Action

section Documents

def Operation.document? : Operation → Option (String × String)
  | .upload name filename _ _ | .download name filename | .remove name filename =>
      some (name, filename)
  | _ => none

/-- The calls of a request about the content of a document: those that look the index up, and the
one for the document. -/
inductive Operation.Passes (name filename : String) : Operation → ObjectCall → Prop
  | bucket {operation : Operation} (valid : Index.isValidName name = true) :
      Passes name filename operation (.bucketExists name)
  | metadata {operation : Operation} (valid : Index.isValidName name = true) :
      Passes name filename operation (.getObject name Document.metadataKey)
  | upload (data : Bytes) (contentType : Option String) (valid : Index.isValidName name = true)
      (admitted : Document.checkFilename filename = .ok ()) :
      Passes name filename (.upload name filename data contentType)
        (.putObject name filename ⟨data, uploadContentType contentType⟩)
  | download (valid : Index.isValidName name = true)
      (free : Document.isReserved filename = false) :
      Passes name filename (.download name filename) (.getObject name filename)
  | remove (free : Document.isReserved filename = false) :
      Passes name filename (.remove name filename) (.deleteObject name filename)

variable {name filename : String} {operation : Operation}

theorem requireIndex_invalid (invalid : Index.isValidName name = false) :
    requireIndex name = throw indexMissing := by
  unfold requireIndex
  simp only [invalid, Bool.not_false, ↓reduceIte]
  rfl

theorem requireIndex_makesOnly {allowed : ObjectCall → Prop}
    (valid : Index.isValidName name = true) (bucket : allowed (.bucketExists name))
    (metadata : allowed (.getObject name Document.metadataKey)) :
    Action.MakesOnly allowed (requireIndex name) := by
  have read : (readMetadata name).MakesOnly allowed := by
    apply Program.MakesOnly.bind (Program.makesOnly_object metadata)
    intro answer
    rcases answer with why | _ | content <;> exact .done _
  unfold requireIndex
  simp only [valid, Bool.not_true, Bool.false_eq_true, ↓reduceIte]
  apply Action.MakesOnly.bind (Action.makesOnly_object bucket)
  intro there
  cases there with
  | false => exact Action.makesOnly_throw _
  | true =>
      apply Action.MakesOnly.bind (.lift read)
      intro found
      rcases found with why | _ | index
      · exact Action.makesOnly_throw _
      · exact Action.makesOnly_throw _
      · exact Action.makesOnly_pure _

theorem newStatus_makesOnly {allowed : ObjectCall → Prop} (progress : Document.Progress)
    (errorMessage : Option String) :
    (newStatus name filename progress errorMessage).MakesOnly allowed :=
  .clock fun _ => .freshId fun _ => .done _

theorem uploadDocument_makesOnly (data : Bytes) (contentType : Option String) :
    Action.MakesOnly (Operation.Passes name filename (.upload name filename data contentType))
      (uploadDocument name filename data contentType) := by
  unfold uploadDocument
  cases admitted : Document.checkFilename filename with
  | error refusal => exact Action.makesOnly_throw _
  | ok _ =>
      cases valid : Index.isValidName name with
      | false =>
          simp only [requireIndex_invalid valid]
          exact Action.makesOnly_throw _
      | true =>
          apply Action.MakesOnly.bind
            (requireIndex_makesOnly valid (.bucket valid) (.metadata valid))
          intro index
          apply Action.MakesOnly.bind
            (Action.makesOnly_object (.upload data contentType valid admitted))
          intro stored
          apply Action.MakesOnly.bind (.lift (newStatus_makesOnly _ _))
          intro record
          apply Action.MakesOnly.bind (.lift (Program.makesOnly_status _))
          intro noted
          apply Action.MakesOnly.bind (.lift Program.makesOnly_clock)
          intro now
          exact Action.makesOnly_pure _

theorem downloadDocument_makesOnly :
    Action.MakesOnly (Operation.Passes name filename (.download name filename))
      (downloadDocument name filename) := by
  unfold downloadDocument
  cases free : Document.isReserved filename with
  | true => exact Action.makesOnly_throw _
  | false =>
      cases valid : Index.isValidName name with
      | false =>
          simp only [requireIndex_invalid valid]
          exact Action.makesOnly_throw _
      | true =>
          simp only [Bool.false_eq_true, ↓reduceIte]
          apply Action.MakesOnly.bind
            (requireIndex_makesOnly valid (.bucket valid) (.metadata valid))
          intro index
          apply Action.MakesOnly.bind (Action.makesOnly_object (.download valid free))
          intro content
          cases content with
          | some content => exact Action.makesOnly_pure _
          | none => exact Action.makesOnly_throw _

theorem deleteDocument_makesOnly :
    Action.MakesOnly (Operation.Passes name filename (.remove name filename))
      (deleteDocument name filename) := by
  unfold deleteDocument
  cases free : Document.isReserved filename with
  | true => exact Action.makesOnly_throw _
  | false =>
      simp only [Bool.false_eq_true, ↓reduceIte]
      apply Action.MakesOnly.bind (Action.makesOnly_object (.remove free))
      intro removed
      apply Action.MakesOnly.bind (.lift (Program.makesOnly_status _))
      intro forgotten
      exact Action.makesOnly_pure _

theorem action_makesOnly (target : NotificationTarget)
    (about : operation.document? = some (name, filename)) :
    Action.MakesOnly (operation.Passes name filename) (operation.action target) := by
  cases operation with
  | upload index file data contentType =>
      cases about
      exact (uploadDocument_makesOnly data contentType).bind fun _ => Action.makesOnly_pure _
  | download index file =>
      cases about
      exact downloadDocument_makesOnly.bind fun _ => Action.makesOnly_pure _
  | remove index file =>
      cases about
      exact deleteDocument_makesOnly.bind fun _ => Action.makesOnly_pure _
  | _ => cases about

end Documents

end Corpora.Service
