import Corpora.Service.Documents

/-!
The requests that the service understands, as data. A run is a list of them, made one after the
other in one session, and its outcome is the list of answers with the session after them.
-/

namespace Corpora.Service

open Document (Entry Status)

inductive Operation where
  | create (name description : String)
  | get (name : String)
  | list
  | summarize
  | update (name description : String)
  | delete (name : String)
  | upload (name filename : String) (data : Bytes) (contentType : Option String)
  | download (name filename : String)
  | documents (name : String)
  | remove (name filename : String)
  | report (name filename progress : String) (errorMessage : Option String)
  | forget (name filename : String)

inductive Reply where
  | index (index : Index)
  | indices (indices : List Index)
  | summaries (summaries : List IndexSummary)
  | entry (entry : Entry)
  | entries (entries : List Entry)
  | content (content : Content)
  | status (status : Status)
  | done
  deriving DecidableEq

namespace Operation

def action (target : NotificationTarget) : Operation → Action Reply
  | create name description => return .index (← createIndex target name description)
  | get name => return .index (← getIndex name)
  | list => return .indices (← listIndices)
  | summarize => return .summaries (← listSummaries)
  | update name description => return .index (← updateIndex name description)
  | delete name => do
      deleteIndex name
      return .done
  | upload name filename data contentType =>
      return .entry (← uploadDocument name filename data contentType)
  | download name filename => return .content (← downloadDocument name filename)
  | documents name => return .entries (← listDocuments name)
  | remove name filename => do
      deleteDocument name filename
      return .done
  | report name filename progress errorMessage =>
      return .status (← updateStatus name filename progress errorMessage)
  | forget name filename => do
      deleteStatus name filename
      return .done

def run (target : NotificationTarget) (circumstances : Circumstances) (operation : Operation)
    (session : Session) : Answered Reply × Session :=
  Program.run circumstances (operation.action target) session

/-- Whether a request deals with documents or their status, not with an index as a whole. -/
def onDocuments : Operation → Bool
  | upload .. | download .. | documents .. | remove .. | report .. | forget .. => true
  | _ => false

end Operation

def play (target : NotificationTarget) (circumstances : Circumstances) :
    List Operation → Session → List (Answered Reply) × Session
  | [], session => ([], session)
  | operation :: rest, session =>
      let (answer, session) := operation.run target circumstances session
      let (answers, session) := play target circumstances rest session
      (answer :: answers, session)

-- What holds at the start and is kept by every request holds after any run.
theorem play_invariant {target : NotificationTarget} {circumstances : Circumstances}
    (invariant : Stores → Prop)
    (step : ∀ operation session, invariant session.stores →
      invariant (Operation.run target circumstances operation session).2.stores)
    (operations : List Operation) (session : Session) (start : invariant session.stores) :
    invariant (play target circumstances operations session).2.stores := by
  induction operations generalizing session with
  | nil => exact start
  | cons operation rest ih => exact ih _ (step operation session start)

end Corpora.Service
