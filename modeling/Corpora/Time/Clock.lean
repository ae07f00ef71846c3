import Corpora.Time.Instant

/-!
What a clock shows each time it is read.
-/

namespace Corpora.Time

structure Clock where
  reading : Nat → Instant

namespace Clock

def still (now : Instant) : Clock := ⟨fun _ => now⟩

instance : Coe Instant Clock := ⟨still⟩

def later (clock : Clock) (count : Nat) : Clock := ⟨fun number => clock.reading (count + number)⟩

end Clock
end Corpora.Time
