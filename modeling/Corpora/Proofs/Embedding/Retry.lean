import Corpora.Embedding.Client

/-!
How often a body is posted. An answer is conclusive unless the provider is overloaded or has failed.
The attempts end with the first conclusive answer or with the last retry, and the outcome they end
with decides alone.
-/

namespace Corpora.Embedding

open Wire (Conversation Outcome Reply Sent)

/-- An answer by which the provider is neither overloaded nor has failed. -/
def Conclusive : Outcome → Prop
  | .answered reply => reply.status ≠ 429 ∧ ¬ (500 ≤ reply.status ∧ reply.status < 600)
  | .dropped => False

structure FirstConclusive (outcomes : Nat → Outcome) (place : Nat) : Prop where
  there : Conclusive (outcomes place)
  earlier : ∀ i < place, ¬ Conclusive (outcomes i)

namespace Target

variable {target : Target} {body : Json}

def describe (target : Target) : Outcome → Failure
  | .answered reply => target.statusFailure reply
  | .dropped => target.droppedFailure

def conclude (target : Target) (outcome : Outcome) : Attempt Json :=
  match target.judge outcome with
  | .inl decided => decided
  | .inr why => .error why

def copies (target : Target) (body : Json) (count : Nat) : List Sent :=
  match target.request? body with
  | some request => List.replicate count request
  | none => []

/-- What an attempt meets when all before it were made too: the outcome at its place in the script.
Behind the script, and where the request cannot be made, it is dropped. -/
def outcomeAt (target : Target) (body : Json) (script : List Outcome) (i : Nat) : Outcome :=
  match target.request? body with
  | some _ => script[i]?.getD .dropped
  | none => .dropped

def attempted (target : Target) (body : Json) (count : Nat) (before : Conversation) :
    Conversation :=
  ⟨before.script.drop (target.copies body count).length, before.sent ++ target.copies body count⟩

theorem conclusive_iff (reply : Reply) :
    Conclusive (.answered reply) ↔ isPassing reply.status = false := by
  simp [Conclusive, isPassing]

theorem judge_passing {outcome : Outcome} (passing : ¬ Conclusive outcome) :
    target.judge outcome = .inr (target.describe outcome) := by
  cases outcome with
  | dropped => rfl
  | answered reply =>
      rw [conclusive_iff, Bool.not_eq_false] at passing
      have unsuccessful : reply.isSuccess = false := by
        simp only [isPassing, Bool.or_eq_true, Bool.and_eq_true, decide_eq_true_eq] at passing
        simp only [Reply.isSuccess, Bool.and_eq_false_iff, decide_eq_false_iff_not]
        omega
      simp [judge, unsuccessful, passing, describe]

theorem judge_conclusive {outcome : Outcome} (conclusive : Conclusive outcome) :
    target.judge outcome = .inl (target.conclude outcome) := by
  cases outcome with
  | dropped => exact conclusive.elim
  | answered reply =>
      have calm := (conclusive_iff reply).mp conclusive
      rw [conclude, judge]
      cases reply.isSuccess with
      | true => cases Json.parse? reply.body <;> rfl
      | false => simp [calm]

theorem conclude_passing {outcome : Outcome} (passing : ¬ Conclusive outcome) :
    target.conclude outcome = .error (target.describe outcome) := by
  rw [conclude, judge_passing passing]

theorem sendIfPossible_eq (before : Conversation) :
    before.sendIfPossible (target.request? body) =
      (target.outcomeAt body before.script 0, target.attempted body 1 before) := by
  rw [outcomeAt, attempted, copies]
  cases target.request? body with
  | none => simp [Conversation.sendIfPossible]
  | some request =>
      rw [Conversation.sendIfPossible, Conversation.send]
      cases before.script <;> simp

theorem outcomeAt_attempted (before : Conversation) (i : Nat) :
    target.outcomeAt body (target.attempted body 1 before).script i =
      target.outcomeAt body before.script (i + 1) := by
  rw [outcomeAt, outcomeAt, attempted, copies]
  cases target.request? body with
  | none => rfl
  | some request => simp

theorem attempted_attempted (before : Conversation) (count : Nat) :
    target.attempted body count (target.attempted body 1 before) =
      target.attempted body (count + 1) before := by
  simp only [attempted, copies]
  cases target.request? body with
  | none => simp
  | some request => simp [List.replicate_succ]

theorem post_last (before : Conversation) :
    target.post body 0 before =
      (target.conclude (target.outcomeAt body before.script 0), target.attempted body 1 before) := by
  simp only [post, sendIfPossible_eq, conclude]
  cases target.judge (target.outcomeAt body before.script 0) <;> rfl

theorem post_conclusive {before : Conversation}
    (conclusive : Conclusive (target.outcomeAt body before.script 0)) (retries : Nat) :
    target.post body retries before =
      (target.conclude (target.outcomeAt body before.script 0), target.attempted body 1 before) := by
  cases retries with
  | zero => exact post_last before
  | succ retries => simp only [post, sendIfPossible_eq, judge_conclusive conclusive]

theorem post_passing {before : Conversation}
    (passing : ¬ Conclusive (target.outcomeAt body before.script 0)) (retries : Nat) :
    target.post body (retries + 1) before =
      target.post body retries (target.attempted body 1 before) := by
  simp only [post, sendIfPossible_eq, judge_passing passing]

-- The induction is on the retries; behind the first attempt the outcomes are those from the next on.
theorem post_eq {retries stop : Nat} {before : Conversation} {outcomes : Nat → Outcome}
    (meets : ∀ i ≤ retries, target.outcomeAt body before.script i = outcomes i)
    (within : stop ≤ retries) (passing : ∀ i < stop, ¬ Conclusive (outcomes i))
    (last : Conclusive (outcomes stop) ∨ stop = retries) :
    target.post body retries before =
      (target.conclude (outcomes stop), target.attempted body (stop + 1) before) := by
  have first := meets 0 (Nat.zero_le _)
  induction retries generalizing before outcomes stop with
  | zero =>
      obtain rfl := Nat.le_zero.mp within
      rw [post_last, first]
  | succ retries ih =>
      cases stop with
      | zero =>
          have conclusive := last.resolve_right (Nat.zero_ne_add_one retries)
          rw [post_conclusive (first ▸ conclusive), first]
      | succ stop =>
          have later : ∀ i ≤ retries, target.outcomeAt body
              (target.attempted body 1 before).script i = outcomes (i + 1) := fun i few => by
            rw [outcomeAt_attempted, meets (i + 1) (Nat.succ_le_succ few)]
          rw [post_passing (first ▸ passing 0 (Nat.zero_lt_succ _)),
            ih later (Nat.le_of_succ_le_succ within)
              (fun i few => passing (i + 1) (Nat.succ_lt_succ few))
              (last.imp_right Nat.succ.inj) (later 0 (Nat.zero_le _)), attempted_attempted]

/-- A request carries the body and the token of a target to its address. -/
structure Carries (target : Target) (body : Json) (request : Sent) : Prop where
  method : request.method = .post
  url : Wire.Url.parse? target.url = some request.url
  body : request.body = Text.Utf8.encode body.compactText
  bearer : Http.header? request.headers "authorization" = target.bearer.map fun token =>
    (Wire.received "authorization" ("Bearer " ++ token)).value

theorem request?_carries {request : Sent} (made : target.request? body = some request) :
    target.Carries body request := by
  rw [Target.request?, Wire.request?, Option.bind_eq_bind, Option.bind_eq_some_iff] at made
  obtain ⟨url, parsed, made⟩ := made
  obtain ⟨-, same⟩ := Option.ite_none_right_eq_some.mp made
  cases same
  refine ⟨rfl, parsed, rfl, ?_⟩
  cases target.bearer <;> rfl

theorem conclude_conclusive {outcome : Outcome} (conclusive : Conclusive outcome) :
    ∃ reply, outcome = .answered reply ∧ ∀ value, target.conclude outcome = .ok value ↔
      reply.isSuccess = true ∧ Json.parse? reply.body = some value := by
  cases outcome with
  | dropped => exact conclusive.elim
  | answered reply =>
      have calm := (conclusive_iff reply).mp conclusive
      refine ⟨reply, rfl, fun value => ?_⟩
      rw [conclude, judge]
      cases reply.isSuccess with
      | true => cases Json.parse? reply.body <;> simp
      | false => simp [calm]

def localTarget : Target := ⟨"Ollama", "http://localhost:11434/api/embed", some "key"⟩

def thirdTime : Nat → Outcome
  | 0 => .answered ⟨429, none, []⟩
  | 1 => .dropped
  | _ => .answered ⟨200, none, Text.Utf8.encode "[]"⟩

def thirdTimeStart : Conversation := .start ((List.range 6).map thirdTime)

end Target
end Corpora.Embedding
