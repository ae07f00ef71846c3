import Corpora.Number.Shortest

/-!
Texts of floating-point numbers. `plainText` never uses an exponent; `jsonText` is the form of a
number inside JSON, positional for magnitudes from `1e-5` up to below `1e16` and scientific
outside, with no text at all for what is not finite.
-/

namespace Corpora.Number

def positional (ds : List Char) (point : Int) (wholeEnding : List Char) : List Char :=
  let count : Int := ds.length
  if point ≤ 0 then "0.".toList ++ List.replicate (-point).toNat '0' ++ ds
  else if point < count then ds.take point.toNat ++ '.' :: ds.drop point.toNat
  else ds ++ List.replicate (point - count).toNat '0' ++ wholeEnding

def signed (negative : Bool) (cs : List Char) : List Char :=
  if negative then '-' :: cs else cs

/-- The number with the fewest digits that read back, never with an exponent. Between two equally
near texts the larger magnitude is taken. -/
def plainText (format : Format) (bits : Nat) : String :=
  match decode format bits with
  | .nan => "NaN"
  | .infinite negative => String.ofList (signed negative "inf".toList)
  | .finite negative significand exponent =>
      String.ofList <| signed negative <|
        if significand = 0 then ['0']
        else
          let d := shortest format .upward significand exponent
          let ds := digits d.coefficient
          positional ds (ds.length + d.exponent) []

def scientific (ds : List Char) (point : Int) : List Char :=
  (match ds with
    | first :: second :: rest => first :: '.' :: second :: rest
    | ds => ds) ++ 'e' :: (ofInt (point - 1)).toList

def jsonText? (bits : Nat) : Option String :=
  match decode double bits with
  | .nan => none
  | .infinite _ => none
  | .finite negative significand exponent =>
      some <| String.ofList <| signed negative <|
        if significand = 0 then "0.0".toList
        else
          let d := shortest double .toEven significand exponent
          let ds := digits d.coefficient
          let point : Int := ds.length + d.exponent
          if -5 < point && point ≤ 16 then positional ds point ".0".toList
          else scientific ds point

end Corpora.Number
