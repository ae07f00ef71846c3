import Corpora.Number.Binary
import Corpora.Number.Decimal

/-!
The shortest decimal of a binary number: the fewest digits that read back as the same number and,
of those, the nearest to it. A positive number is given by its significand and exponent; the
decimal comes as a whole number and a power of ten.
-/

namespace Corpora.Number

inductive Tie where
  | toEven
  | upward
  deriving Repr, DecidableEq

structure Decimal where
  coefficient : Nat
  exponent : Int
  deriving Repr, DecidableEq

/-- The positive number `significand · 2 ^ exponent` of a format, and how far the numbers go
that round to it, in quarters of its last binary place. -/
structure Neighbourhood where
  quarters : Nat
  below : Nat
  above : Nat
  closed : Bool
  exponent : Int

def Neighbourhood.of (format : Format) (significand : Nat) (exponent : Int) : Neighbourhood where
  quarters := 4 * significand
  below := if significand = Nat.pow 2 (format.precision - 1) ∧ exponent ≠ format.leastExponent
    then 1 else 2
  above := 2
  closed := significand % 2 = 0
  exponent := exponent - 2

def decimalOrder (n d : Nat) : Int :=
  let reaches (e : Int) : Bool := match e with
    | .ofNat up => decide (d * Nat.pow 10 up ≤ n)
    | .negSucc down => decide (d ≤ n * Nat.pow 10 (down + 1))
  let guess := (binaryOrder n d * 30103).fdiv 100000
  if reaches (guess + 1) then guess + 1 else if reaches guess then guess else guess - 1

def overPowerOfTen (n d : Nat) (exponent : Int) : Nat × Nat :=
  match exponent with
  | .ofNat up => (n, d * Nat.pow 10 up)
  | .negSucc down => (n * Nat.pow 10 (down + 1), d)

/-- The decimal of `places` digits nearest to the number, if one of the two next to it on the
grid of such decimals still rounds to the number. -/
def onGrid? (tie : Tie) (around : Neighbourhood) (order : Int) (places : Nat) :
    Option Decimal :=
  let exponent := order - (places - 1 : Nat)
  let unit : Nat × Nat := match around.exponent with
    | .ofNat up => overPowerOfTen (Nat.pow 2 up) 1 exponent
    | .negSucc down => overPowerOfTen 1 (Nat.pow 2 (down + 1)) exponent
  let whole := around.quarters * unit.1 / unit.2
  let least := (around.quarters - around.below) * unit.1
  let most := (around.quarters + around.above) * unit.1
  let inside (c : Nat) : Bool :=
    if around.closed then decide (least ≤ c * unit.2 ∧ c * unit.2 ≤ most)
    else decide (least < c * unit.2 ∧ c * unit.2 < most)
  let twice := 2 * (around.quarters * unit.1 % unit.2)
  let lower := Decimal.mk whole exponent
  let upper := Decimal.mk (whole + 1) exponent
  match inside whole, inside (whole + 1) with
  | true, true =>
      if twice < unit.2 then some lower
      else if unit.2 < twice then some upper
      else if tie = .toEven ∧ whole % 2 = 0 then some lower else some upper
  | true, false => some lower
  | false, true => some upper
  | false, false => none

def Decimal.normal (fuel : Nat) (d : Decimal) : Decimal :=
  match fuel with
  | 0 => d
  | fuel + 1 =>
      if d.coefficient % 10 = 0 ∧ d.coefficient ≠ 0 then
        Decimal.normal fuel ⟨d.coefficient / 10, d.exponent + 1⟩
      else d

def enoughDigits : List Nat := (List.range 17).map (· + 1)

def shortest (format : Format) (tie : Tie) (significand : Nat) (exponent : Int) : Decimal :=
  let around := Neighbourhood.of format significand exponent
  let order := match exponent with
    | .ofNat up => decimalOrder (significand * Nat.pow 2 up) 1
    | .negSucc down => decimalOrder significand (Nat.pow 2 (down + 1))
  match enoughDigits.findSome? (onGrid? tie around order) with
  | some found => found.normal 20
  | none => ⟨0, 0⟩

end Corpora.Number
