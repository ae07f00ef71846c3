import Corpora.Text.Ascii

/-!
Whole numbers in decimal digits: writing them, and reading them within the bounds of a machine
integer.
-/

namespace Corpora.Number

open Text (isDigit)

def digitChar (n : Nat) : Char := Char.ofNat (48 + n)

def digitValue (c : Char) : Nat := c.toNat - 48

def digits (n : Nat) : List Char :=
  if n < 10 then [digitChar n] else digits (n / 10) ++ [digitChar (n % 10)]

def ofDigits (cs : List Char) : Nat := cs.foldl (fun value c => 10 * value + digitValue c) 0

def ofNat (n : Nat) : String := String.ofList (digits n)

def ofInt : Int → String
  | .ofNat n => ofNat n
  | .negSucc n => "-" ++ ofNat (n + 1)

def padded : (width n : Nat) → List Char
  | 0, _ => []
  | width + 1, n => padded width (n / 10) ++ [digitChar (n % 10)]

def nat? (cs : List Char) : Option Nat :=
  if cs.isEmpty || !cs.all isDigit then none else some (ofDigits cs)

def maxUnsigned64 : Nat := Nat.pow 2 64 - 1

def maxUnsigned32 : Nat := Nat.pow 2 32 - 1

def fitsSigned64 (n : Int) : Bool := -(Nat.pow 2 63) ≤ n && n < Nat.pow 2 63

def unsigned? (bound : Nat) (text : String) : Option Nat :=
  let cs := match text.toList with
    | '+' :: rest => rest
    | cs => cs
  (nat? cs).filter (· ≤ bound)

def signed64? (text : String) : Option Int :=
  let value : Option Int := match text.toList with
    | '+' :: rest => (nat? rest).map Int.ofNat
    | '-' :: rest => (nat? rest).map fun n => -Int.ofNat n
    | cs => (nat? cs).map Int.ofNat
  value.filter fitsSigned64

end Corpora.Number
