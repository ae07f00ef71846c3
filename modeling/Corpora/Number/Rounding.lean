import Corpora.Number.Binary

/-!
Rounding a floating-point number to an integer, a half away from zero. Numbers without a
fractional part, infinities and NaN are kept, and so is the sign of a zero.
-/

namespace Corpora.Number

def roundedShift (significand places : Nat) : Nat :=
  (2 * significand + Nat.pow 2 places) / Nat.pow 2 (places + 1)

def roundHalfAwayBits (bits : Nat) : Nat :=
  match decode double bits with
  | .finite negative significand (.negSucc down) =>
      withSign double negative (nearest double (roundedShift significand (down + 1)) 1)
  | _ => bits

def roundHalfAway (x : Float) : Float :=
  Float.ofBits (UInt64.ofNat (roundHalfAwayBits x.toBits.toNat))

end Corpora.Number
