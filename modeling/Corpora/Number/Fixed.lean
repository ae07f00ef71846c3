import Corpora.Number.Binary
import Corpora.Number.Decimal

/-!
Numbers with a fixed number of decimal places, rounded from their exact value; a half goes to the
even neighbour.
-/

namespace Corpora.Number

def pointed (places units : Nat) : List Char :=
  let scale := Nat.pow 10 places
  digits (units / scale) ++ (if places = 0 then [] else '.' :: padded places (units % scale))

def fixedText (places : Nat) (bits : Nat) : String :=
  match decode double bits with
  | .nan => "NaN"
  | .infinite negative => if negative then "-inf" else "inf"
  | .finite negative significand exponent =>
      let units := if 0 ≤ exponent then significand * Nat.pow 2 exponent.toNat * Nat.pow 10 places
        else roundedQuotient (significand * Nat.pow 10 places) (Nat.pow 2 (-exponent).toNat)
      String.ofList ((if negative then ['-'] else []) ++ pointed places units)

end Corpora.Number
