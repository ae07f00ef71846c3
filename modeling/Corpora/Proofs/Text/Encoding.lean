import Corpora.Text.Utf8

/-!
The UTF-8 form of a text as the forms of its characters, one after the other. A character of
ASCII is one byte of its own code, and no byte of any other character lies in ASCII.
-/

namespace Corpora.Text.Utf8

theorem encode_ofList (cs : List Char) :
    encode (String.ofList cs) = cs.flatMap String.utf8EncodeChar := by
  simp [encode, String.ofList, List.utf8Encode]

theorem encode_eq_flatMap (text : String) :
    encode text = text.toList.flatMap String.utf8EncodeChar := by
  rw [← encode_ofList, String.ofList_toList]

theorem encode_inj {text other : String} : encode text = encode other ↔ text = other := by
  refine ⟨fun same => ?_, congrArg encode⟩
  have read := congrArg decode? same
  rwa [decode?_encode, decode?_encode, Option.some_inj] at read

theorem encodeChar_ascii (c : Char) (low : c.toNat < 0x80) :
    String.utf8EncodeChar c = [UInt8.ofNat c.toNat] := by
  have small : c.toNat ≤ 0x7f := by omega
  simp [String.utf8EncodeChar, small]

theorem flatMap_ascii {cs : List Char} (low : ∀ c ∈ cs, c.toNat < 0x80) :
    cs.flatMap String.utf8EncodeChar = cs.map fun c => UInt8.ofNat c.toNat := by
  induction cs with
  | nil => rfl
  | cons c cs ih =>
      have rest := ih fun other member => low other (List.mem_cons_of_mem c member)
      rw [List.flatMap_cons, encodeChar_ascii c (low c List.mem_cons_self), rest]
      rfl

theorem encodeChar_high (c : Char) (high : 0x80 ≤ c.toNat) :
    ∀ b ∈ String.utf8EncodeChar c, 0x80 ≤ b.toNat := by
  have large : ¬ c.val.toNat ≤ 0x7f := Nat.not_le.mpr high
  intro b member
  simp only [String.utf8EncodeChar, large, ↓reduceIte] at member
  split at member
  · simp only [List.mem_cons, List.not_mem_nil, or_false] at member
    rcases member with rfl | rfl <;> simp <;> omega
  · split at member
    · simp only [List.mem_cons, List.not_mem_nil, or_false] at member
      rcases member with rfl | rfl | rfl <;> simp <;> omega
    · simp only [List.mem_cons, List.not_mem_nil, or_false] at member
      rcases member with rfl | rfl | rfl | rfl <;> simp <;> omega

end Corpora.Text.Utf8
