import Corpora.Vector.Blob
import Mathlib.Data.Nat.Digits.Defs
import Mathlib.Data.Set.Function

/-!
Vectors are read from their bytes as they were written, whatever the bits of their elements, and
bytes are written as they were read, but for an incomplete element at their end. The vectors are
thus the byte strings of whole elements.
-/

namespace Corpora

-- A bit of a word stands in one of the four bytes; the others have a zero in its place.
theorem word_of_bytes (word : BitVec 32) :
    (word.setWidth 8).setWidth 32 ||| ((word >>> 8).setWidth 8).setWidth 32 <<< 8 |||
      ((word >>> 16).setWidth 8).setWidth 32 <<< 16 |||
      ((word >>> 24).setWidth 8).setWidth 32 <<< 24 = word := by
  ext place inside
  simp only [BitVec.getElem_or, BitVec.getElem_shiftLeft, BitVec.getElem_setWidth,
    BitVec.getLsbD_setWidth, BitVec.getLsbD_ushiftRight]
  grind

-- Shifted down, a word has the byte that was shifted up to the place in its lowest eight bits.
theorem bytes_of_word (b₀ b₁ b₂ b₃ : BitVec 8) (word : BitVec 32)
    (joined : word = b₀.setWidth 32 ||| b₁.setWidth 32 <<< 8 ||| b₂.setWidth 32 <<< 16 |||
      b₃.setWidth 32 <<< 24) :
    word.setWidth 8 = b₀ ∧ (word >>> 8).setWidth 8 = b₁ ∧ (word >>> 16).setWidth 8 = b₂ ∧
      (word >>> 24).setWidth 8 = b₃ := by
  subst joined
  refine ⟨?_, ?_, ?_, ?_⟩ <;> ext place inside <;>
    simp only [BitVec.getLsbD_or, BitVec.getLsbD_shiftLeft, BitVec.getElem_setWidth,
      BitVec.getLsbD_setWidth, BitVec.getLsbD_ushiftRight] <;>
    grind

namespace Element

theorem ofBytes_toBytes (element : Element) :
    ofBytes element.bits.toUInt8 (element.bits >>> 8).toUInt8 (element.bits >>> 16).toUInt8
      (element.bits >>> 24).toUInt8 = element := by
  obtain ⟨bits⟩ := element
  rw [ofBytes, mk.injEq, ← UInt32.toBitVec_inj]
  simp only [UInt32.toBitVec_or, UInt32.toBitVec_shiftLeft, UInt8.toBitVec_toUInt32,
    UInt32.toBitVec_toUInt8, UInt32.toBitVec_shiftRight]
  exact word_of_bytes bits.toBitVec

theorem toBytes_ofBytes (b₀ b₁ b₂ b₃ : UInt8) :
    (ofBytes b₀ b₁ b₂ b₃).toBytes = [b₀, b₁, b₂, b₃] := by
  have bytes := bytes_of_word b₀.toBitVec b₁.toBitVec b₂.toBitVec b₃.toBitVec _ rfl
  simp only [toBytes, ofBytes, List.cons.injEq, ← UInt8.toBitVec_inj, and_true,
    UInt32.toBitVec_toUInt8, UInt32.toBitVec_shiftRight, UInt32.toBitVec_or,
    UInt32.toBitVec_shiftLeft, UInt8.toBitVec_toUInt32]
  exact bytes

theorem length_toBytes (element : Element) : element.toBytes.length = 4 := rfl

theorem ofDigits_toBytes (element : Element) :
    Nat.ofDigits 256 (element.toBytes.map UInt8.toNat) = element.bits.toNat := by
  have small := element.bits.toNat_lt
  simp only [toBytes, List.map_cons, List.map_nil, Nat.ofDigits_cons, Nat.ofDigits_nil,
    UInt32.toNat_toUInt8, UInt32.toNat_shiftRight, Nat.shiftRight_eq_div_pow]
  simp only [Nat.reducePow, UInt32.reduceToNat, Nat.reduceMod, mul_zero, add_zero]
  omega

end Element

namespace Vector32

theorem toBlob_cons (first : Element) (rest : Vector32) :
    toBlob (first :: rest) = first.toBytes ++ toBlob rest := List.flatMap_cons

theorem ofBlob_toBlob (vector : Vector32) : ofBlob vector.toBlob = vector := by
  induction vector with
  | nil => rfl
  | cons first rest ih =>
      rw [toBlob_cons, Element.toBytes, List.cons_append, List.cons_append, List.cons_append,
        List.cons_append, List.nil_append, ofBlob, ih, Element.ofBytes_toBytes]

theorem length_toBlob (vector : Vector32) : (toBlob vector).length = 4 * vector.length := by
  induction vector with
  | nil => rfl
  | cons first rest ih =>
      rw [toBlob_cons, List.length_append, ih, Element.length_toBytes, List.length_cons]
      omega

theorem toBlob_ofBlob (bytes : Bytes) :
    toBlob (ofBlob bytes) = bytes.take (4 * (bytes.length / 4)) := by
  induction bytes using ofBlob.induct with
  | case1 b₀ b₁ b₂ b₃ rest ih =>
      have count : 4 * ((b₀ :: b₁ :: b₂ :: b₃ :: rest).length / 4) = 4 * (rest.length / 4) + 4 := by
        simp only [List.length_cons]
        omega
      rw [ofBlob, toBlob_cons, Element.toBytes_ofBytes, ih, count]
      rfl
  | case2 bytes short =>
      have incomplete : bytes.length / 4 = 0 := by
        match bytes, short with
        | [], _ | [_], _ | [_, _], _ | [_, _, _], _ => exact Nat.div_eq_of_lt (by simp)
        | b₀ :: b₁ :: b₂ :: b₃ :: rest, short => exact absurd rfl (short b₀ b₁ b₂ b₃ rest)
      rw [ofBlob.eq_2 bytes short, incomplete]
      rfl

theorem toBlob_bijOn : Set.BijOn toBlob Set.univ {bytes | 4 ∣ bytes.length} := by
  refine ⟨fun vector _ => ?_, fun vector _ other _ same => ?_, fun bytes whole => ?_⟩
  · exact ⟨vector.length, length_toBlob vector⟩
  · have read := congrArg ofBlob same
    rwa [ofBlob_toBlob, ofBlob_toBlob] at read
  · refine ⟨ofBlob bytes, Set.mem_univ _, ?_⟩
    rw [toBlob_ofBlob, Nat.mul_div_cancel' whole, List.take_length]

theorem ofDigits_toBlob (vector : Vector32) :
    Nat.ofDigits 256 (vector.toBlob.map UInt8.toNat) =
      Nat.ofDigits (2 ^ 32) (vector.map fun element => element.bits.toNat) := by
  induction vector with
  | nil => rfl
  | cons first rest ih =>
      have width : (first.toBytes.map UInt8.toNat).length = 4 := rfl
      rw [toBlob_cons, List.map_append, Nat.ofDigits_append, Element.ofDigits_toBytes, width, ih,
        List.map_cons, Nat.ofDigits_cons]
      rfl

/-- A vector is read back bit by bit as it was written, and bytes are written back as they were read
but for an incomplete element at their end. So vectors are the byte strings of whole elements, and
such a string has the digits of its elements, the least significant first. -/
theorem blobs_are_vectors :
    (∀ vector : Vector32, ofBlob vector.toBlob = vector) ∧
    (∀ bytes : Bytes, (ofBlob bytes).toBlob = bytes.take (4 * (bytes.length / 4))) ∧
    Set.BijOn toBlob Set.univ {bytes | 4 ∣ bytes.length} ∧
    ∀ vector : Vector32, Nat.ofDigits 256 (vector.toBlob.map UInt8.toNat) =
      Nat.ofDigits (2 ^ 32) (vector.map fun element => element.bits.toNat) :=
  ⟨ofBlob_toBlob, toBlob_ofBlob, toBlob_bijOn, ofDigits_toBlob⟩

end Vector32
end Corpora
