/-!
Binary floating-point numbers by their bits: decoding into sign, significand and exponent, and
rounding a fraction to the nearest number of a format, a tie to the even significand.
-/

namespace Corpora.Number

/-- A binary interchange format. A number of it is `m · 2 ^ q` with `m < 2 ^ precision` and
`q ≥ leastExponent`; `width` counts its bits. -/
structure Format where
  width : Nat
  precision : Nat
  leastExponent : Int

def single : Format := ⟨32, 24, -149⟩

def double : Format := ⟨64, 53, -1074⟩

namespace Format

def infinity (format : Format) : Nat := Nat.pow 2 (format.width - 1) - Nat.pow 2 (format.precision - 1)

def signBit (format : Format) : Nat := Nat.pow 2 (format.width - 1)

end Format

/-- What the bits of a number stand for; `finite` is `± significand · 2 ^ exponent`. -/
inductive Parts where
  | nan
  | infinite (negative : Bool)
  | finite (negative : Bool) (significand : Nat) (exponent : Int)
  deriving Repr, DecidableEq

def decode (format : Format) (bits : Nat) : Parts :=
  let negative := bits / format.signBit % 2 == 1
  let magnitude := bits % format.signBit
  let hidden := Nat.pow 2 (format.precision - 1)
  if magnitude > format.infinity then .nan
  else if magnitude = format.infinity then .infinite negative
  else if magnitude < hidden then .finite negative magnitude format.leastExponent
  else .finite negative (magnitude % hidden + hidden)
    (format.leastExponent + (magnitude / hidden - 1 : Nat))

def roundedQuotient (numerator denominator : Nat) : Nat :=
  let floor := numerator / denominator
  let twice := 2 * (numerator % denominator)
  if twice < denominator then floor
  else if denominator < twice then floor + 1
  else if floor % 2 = 0 then floor else floor + 1

/-- `numerator / denominator` over `2 ^ exponent`, as a fraction of natural numbers. -/
def scaled (numerator denominator : Nat) (exponent : Int) : Nat × Nat :=
  match exponent with
  | .ofNat up => (numerator, denominator * Nat.pow 2 up)
  | .negSucc down => (numerator * Nat.pow 2 (down + 1), denominator)

/-- The integer `e` with `2 ^ e ≤ numerator / denominator < 2 ^ (e + 1)`. -/
def binaryOrder (numerator denominator : Nat) : Int :=
  let guess : Int := (Nat.log2 numerator : Int) - (Nat.log2 denominator : Int)
  let (n, d) := scaled numerator denominator guess
  if n < d then guess - 1 else guess

/-- The bits of the positive number nearest to `numerator / denominator`; a fraction too large
for the format gives infinity. -/
def nearest (format : Format) (numerator denominator : Nat) : Nat :=
  if numerator = 0 then 0
  else
    let exponent := max format.leastExponent
      (binaryOrder numerator denominator - (format.precision - 1 : Nat))
    let (n, d) := scaled numerator denominator exponent
    let bits := (exponent - format.leastExponent).toNat * Nat.pow 2 (format.precision - 1) +
      roundedQuotient n d
    min bits format.infinity

def withSign (format : Format) (negative : Bool) (bits : Nat) : Nat :=
  if negative then format.signBit + bits else bits

/-- No finite number of either format has a decimal point this many digits away from its first
significant digit. -/
def decimalReach : Int := 400

def ofDecimal (format : Format) (negative : Bool) (digits : Nat) (exponent : Int) : Nat :=
  let place := exponent + (Nat.log2 digits / 3 : Nat)
  withSign format negative <|
    if digits = 0 then 0
    else if exponent > decimalReach then format.infinity
    else if place < -(2 * decimalReach) then 0
    else match exponent with
      | .ofNat up => nearest format (digits * Nat.pow 10 up) 1
      | .negSucc down => nearest format digits (Nat.pow 10 (down + 1))

def convert (source target : Format) (bits : Nat) : Nat :=
  match decode source bits with
  | .nan => target.infinity + Nat.pow 2 (target.precision - 2)
  | .infinite negative => withSign target negative target.infinity
  | .finite negative significand exponent =>
      withSign target negative <| match exponent with
        | .ofNat up => nearest target (significand * Nat.pow 2 up) 1
        | .negSucc down => nearest target significand (Nat.pow 2 (down + 1))

end Corpora.Number
