import Corpora.Text.Utf8
import Corpora.Vector.Basic

/-!
Vectors as bytes: four bytes for each element, the least significant first. Reading leaves out an
incomplete element at the end.
-/

namespace Corpora

def Element.toBytes (element : Element) : Bytes :=
  [element.bits.toUInt8, (element.bits >>> 8).toUInt8, (element.bits >>> 16).toUInt8,
    (element.bits >>> 24).toUInt8]

def Element.ofBytes (b₀ b₁ b₂ b₃ : UInt8) : Element :=
  ⟨b₀.toUInt32 ||| (b₁.toUInt32 <<< 8) ||| (b₂.toUInt32 <<< 16) ||| (b₃.toUInt32 <<< 24)⟩

namespace Vector32

def toBlob (vector : Vector32) : Bytes := vector.flatMap Element.toBytes

def ofBlob : Bytes → Vector32
  | b₀ :: b₁ :: b₂ :: b₃ :: rest => Element.ofBytes b₀ b₁ b₂ b₃ :: ofBlob rest
  | _ => []

end Vector32
end Corpora
