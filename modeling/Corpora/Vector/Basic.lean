import Corpora.Number.Binary

/-!
Embedding vectors and their cosine similarity. An element is kept by its bits, so that it is
never changed by being stored. All arithmetic is of single precision, summed from the left.
-/

namespace Corpora

structure Element where
  bits : UInt32
  deriving Repr, DecidableEq

abbrev Vector32 := List Element

namespace Element

def value (element : Element) : Float32 := Float32.ofBits element.bits

def ofFloat32 (x : Float32) : Element := ⟨x.toBits⟩

def nearest (x : Float) : Element :=
  ⟨UInt32.ofNat (Number.convert Number.double Number.single x.toBits.toNat)⟩

def widen (element : Element) : Float :=
  Float.ofBits (UInt64.ofNat (Number.convert Number.single Number.double element.bits.toNat))

end Element

namespace Vector32

/-- The sums that a similarity needs: the product of the vectors and the squares of each. -/
structure Sums where
  product : Float32
  left : Float32
  right : Float32

def Sums.zero : Sums := ⟨0, 0, 0⟩

def Sums.add (sums : Sums) (x y : Float32) : Sums :=
  ⟨sums.product + x * y, sums.left + x * x, sums.right + y * y⟩

def sums (a b : Vector32) : Sums :=
  (a.zip b).foldl (fun total (x, y) => total.add x.value y.value) Sums.zero

def leastLength : Float32 := Float32.ofBits 0x34000000

/-- The cosine of the angle between two vectors; zero for vectors of different lengths, of no
elements, or of no direction. -/
def cosine (a b : Vector32) : Element :=
  if a.length != b.length || a.isEmpty then .ofFloat32 0
  else
    let total := sums a b
    let length := total.left.sqrt * total.right.sqrt
    if length < leastLength then .ofFloat32 0 else .ofFloat32 (total.product / length)

end Vector32
end Corpora
