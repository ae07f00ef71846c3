import Corpora.Text.Ascii
import Corpora.Text.Blank

/-!
Letter case, one character at a time. A change of case keeps every character that is no letter of
ASCII, makes no blank and takes none away, and is forgotten once all letters are made small.
-/

namespace Corpora.Text

variable {c mark : Char}

/-- What holds of the characters of ASCII and of all others holds of every character. -/
@[elab_as_elim]
theorem char_cases {property : Char → Prop} (ascii : ∀ n < 0x80, property (Char.ofNat n))
    (beyond : ∀ c : Char, 0x80 ≤ c.toNat → property c) (c : Char) : property c := by
  rcases Nat.lt_or_ge c.toNat 0x80 with low | high
  · rw [← Char.ofNat_toNat c]
    exact ascii c.toNat low
  · exact beyond c high

theorem isUpperLetter_bounds : isUpperLetter c = true ↔ 65 ≤ c.toNat ∧ c.toNat ≤ 90 := by
  simp [isUpperLetter, Char.le_def, UInt32.le_iff_toNat_le]

theorem isLowerLetter_bounds : isLowerLetter c = true ↔ 97 ≤ c.toNat ∧ c.toNat ≤ 122 := by
  simp [isLowerLetter, Char.le_def, UInt32.le_iff_toNat_le]

theorem lowerChar_beyond (high : 0x80 ≤ c.toNat) : lowerChar c = c := by
  have noCapital : ¬ isUpperLetter c = true := by
    rw [isUpperLetter_bounds]
    omega
  rw [lowerChar, if_neg noCapital]

theorem upperChar_beyond (high : 0x80 ≤ c.toNat) : upperChar c = c := by
  have noSmall : ¬ isLowerLetter c = true := by
    rw [isLowerLetter_bounds]
    omega
  rw [upperChar, if_neg noSmall]

theorem lowerChar_lowerChar (c : Char) : lowerChar (lowerChar c) = lowerChar c := by
  induction c using char_cases with
  | ascii n low =>
      revert n
      decide
  | beyond c high => rw [lowerChar_beyond high, lowerChar_beyond high]

theorem lowerChar_upperChar (c : Char) : lowerChar (upperChar c) = lowerChar c := by
  induction c using char_cases with
  | ascii n low =>
      revert n
      decide
  | beyond c high => rw [upperChar_beyond high]

theorem isBlank_lowerChar (c : Char) : isBlank (lowerChar c) = isBlank c := by
  induction c using char_cases with
  | ascii n low =>
      revert n
      decide
  | beyond c high => rw [lowerChar_beyond high]

theorem isBlank_upperChar (c : Char) : isBlank (upperChar c) = isBlank c := by
  induction c using char_cases with
  | ascii n low =>
      revert n
      decide
  | beyond c high => rw [upperChar_beyond high]

theorem isLowerLetter_lowerChar (capital : isUpperLetter c = true) :
    isLowerLetter (lowerChar c) = true := by
  induction c using char_cases with
  | ascii n low =>
      revert n
      decide
  | beyond c high =>
      rw [isUpperLetter_bounds] at capital
      omega

theorem lowerChar_eq_mark (uncased : isAlphanumeric mark = false) :
    lowerChar c = mark ↔ c = mark := by
  simp only [isAlphanumeric, Bool.or_eq_false_iff] at uncased
  constructor
  · rintro rfl
    by_cases capital : isUpperLetter c = true
    · exact absurd (isLowerLetter_lowerChar capital) (by simp [uncased.1.1])
    · rw [lowerChar, if_neg capital]
  · rintro rfl
    rw [lowerChar, uncased.1.2]
    rfl

theorem map_lowerChar_map (change : Char → Char)
    (forgotten : ∀ c, lowerChar (change c) = lowerChar c) (cs : List Char) :
    (cs.map change).map lowerChar = cs.map lowerChar := by
  rw [List.map_map]
  exact List.map_congr_left fun c _ => forgotten c

end Corpora.Text
