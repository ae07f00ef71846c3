import Corpora.Number.Text
import Corpora.Vector.Basic

/-!
The text of a vector in brackets, such as `[0.1,-2,3.5]`.
-/

namespace Corpora.Vector32

def literal (vector : Vector32) : String :=
  "[" ++ ",".intercalate (vector.map fun element =>
    Number.plainText Number.single element.bits.toNat) ++ "]"

end Corpora.Vector32
