import Corpora.Failure

/-!
Why a request is refused, and the status under which it is answered.
-/

namespace Corpora

inductive ServiceError where
  | badRequest (message : String)
  | notFound (message : String)
  | conflict (message : String)
  | internal (message : String) (source : Failure)
  deriving Repr, DecidableEq

namespace ServiceError

def message : ServiceError → String
  | badRequest message => message
  | notFound message => message
  | conflict message => message
  | internal message _ => message

def status : ServiceError → Nat
  | badRequest _ => 400
  | notFound _ => 404
  | conflict _ => 409
  | internal _ _ => 500

def toFailure : ServiceError → Failure
  | internal message source => source.within message
  | error => .because error.message

end ServiceError

abbrev Answered (α : Type) := Except ServiceError α

def Attempt.internal (attempt : Attempt α) (message : String) : Answered α :=
  attempt.mapError (ServiceError.internal message)

end Corpora
