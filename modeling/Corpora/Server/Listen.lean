import Corpora.Failure
import Corpora.Number.Decimal
import Corpora.Text.Search

/-!
Addresses to listen on: `ip:port`, where the address is one that every machine has of its own.
-/

namespace Corpora.Server

def octet? (cs : List Char) : Option Nat :=
  if 1 < cs.length && cs.head? == some '0' then none
  else (Number.nat? cs).filter (· ≤ 255)

def isOwnAddress (host : List Char) : Bool :=
  match (Text.splitAt '.' host).mapM octet? with
  | some [127, _, _, _] => true
  | some [0, 0, 0, 0] => true
  | _ => ["localhost", "[::1]", "[::]"].contains (String.ofList host)

def divide? (address : String) : Option (List Char × Nat) := do
  let cs := address.toList
  let digits := (cs.reverse.takeWhile (· != ':')).reverse
  if digits.length = cs.length then none
  else
    let port ← Number.unsigned? 65535 (String.ofList digits)
    return (cs.take (cs.length - digits.length - 1), port)

def canListen (address : String) : Bool :=
  match divide? address with
  | some (host, _) => isOwnAddress host
  | none => false

def listen (address : String) : Attempt Unit :=
  if canListen address then .ok ()
  else .error (Failure.foreign.within ("Failed to bind " ++ address))

end Corpora.Server
