/-!
The times of a periodic task, in milliseconds from its start. Ticks lie at the multiples of the
interval. A tick that is due while the task is busy is taken as soon as it is free; further ticks
that have passed meanwhile are left out, and the next one is again a multiple of the interval.
-/

namespace Corpora.Schedule

structure Timing where
  interval : Nat
  timeout : Nat

/-- A timing from whole seconds; neither part is less than one second. -/
def Timing.ofSeconds (interval timeout : Nat) : Timing :=
  ⟨1000 * max interval 1, 1000 * max timeout 1⟩

structure Poll where
  start : Nat
  finish : Nat
  answered : Bool
  deriving Repr, DecidableEq

def tolerance : Nat := 5

/-- When the tick after one that was due at `due` and taken at `taken` is due. -/
def nextDue (timing : Timing) (due taken : Nat) : Nat :=
  if taken > due + tolerance then taken + timing.interval - (taken - due) % timing.interval
  else due + timing.interval

def poll (timing : Timing) (start delay : Nat) : Poll :=
  if delay ≤ timing.timeout then ⟨start, start + delay, true⟩
  else ⟨start, start + timing.timeout, false⟩

def pollsFrom (timing : Timing) (delay : Nat → Nat) (stop : Nat) :
    (fuel : Nat) → (number due free : Nat) → List Poll
  | 0, _, _, _ => []
  | fuel + 1, number, due, free =>
      let taken := max due free
      if taken ≥ stop then []
      else
        let begun := poll timing taken (delay number)
        begun :: pollsFrom timing delay stop fuel (number + 1) (nextDue timing due taken)
          begun.finish

def polls (timing : Timing) (delay : Nat → Nat) (stop : Nat) : List Poll :=
  pollsFrom timing delay stop (stop / timing.interval + 1) 0 0 0

end Corpora.Schedule
