/-!
Failures: why something could not be done, as a chain of reasons from the outermost down. A
reason that another library gives is not worded here; a chain ends before it.
-/

namespace Corpora

/-- The reasons of a failure in the wording of this library, outermost first. There is none when
the outermost reason already comes from another library. -/
structure Failure where
  reasons : List String
  deriving Repr, DecidableEq

namespace Failure

def foreign : Failure := ⟨[]⟩

def because (reason : String) : Failure := ⟨[reason]⟩

def within (failure : Failure) (reason : String) : Failure := ⟨reason :: failure.reasons⟩

def message (failure : Failure) : String := failure.reasons.headD "(library error)"

def causes (failure : Failure) : List String := failure.reasons.tail

end Failure

abbrev Attempt (α : Type) := Except Failure α

namespace Attempt

def fail (reason : String) : Attempt α := .error (.because reason)

def within (attempt : Attempt α) (reason : String) : Attempt α :=
  attempt.mapError (·.within reason)

end Attempt
end Corpora
