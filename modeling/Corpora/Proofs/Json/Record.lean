import Corpora.Json.Decoder
import Corpora.Proofs.Json.Quoted

/-!
Reading an object that was written without blanks, member by member. Each key is taken with the
comma before it, and what stands behind the last member is left for the caller.
-/

namespace Corpora.Json

open Text.Utf8 (encode encode_ofList encodeChar_ascii)

theorem skipBlanks_solid {b : UInt8} (rest : Bytes) (solid : isBlankByte b = false) :
    skipBlanks (b :: rest) = b :: rest := by
  simp [skipBlanks, solid]

theorem expectColon_colon (rest : Bytes) : expectColon (ascii ':' :: rest) = .ok rest := by
  rw [expectColon, skipBlanks_solid rest (by decide)]
  simp [expect]

theorem nextKey_first (key : String) (rest : Bytes) :
    nextKey true (ascii '"' :: (closing key ++ rest)) = .ok (some key, rest) := by
  rw [nextKey, skipBlanks_solid _ (by decide)]
  simp only [show (ascii '"' == ascii '}') = false by decide, Bool.false_eq_true, ↓reduceIte]
  rw [skipBlanks_solid _ (by decide)]
  simp [expect, bind, Except.bind, stringBody_closing, pure, Except.pure]

theorem nextKey_later (key : String) (rest : Bytes) :
    nextKey false (ascii ',' :: ascii '"' :: (closing key ++ rest)) = .ok (some key, rest) := by
  rw [nextKey, skipBlanks_solid _ (by decide)]
  simp only [show (ascii ',' == ascii '}') = false by decide, Bool.false_eq_true, ↓reduceIte,
    beq_self_eq_true]
  rw [skipBlanks_solid _ (by decide)]
  simp [expect, bind, Except.bind, stringBody_closing, pure, Except.pure]

theorem nextKey_end (first : Bool) (rest : Bytes) :
    nextKey first (ascii '}' :: rest) = .ok (none, rest) := by
  rw [nextKey, skipBlanks_solid _ (by decide)]
  simp

section Members

variable {σ : Type} (member : σ → String → Bytes → Except Fault (σ × Bytes))

theorem objectMembers_first (fuel : Nat) (state : σ) (key : String) (rest : Bytes) :
    objectMembers member (fuel + 1) true state (ascii '"' :: (closing key ++ rest)) =
      (member state key rest).bind fun read => objectMembers member fuel false read.1 read.2 := by
  rw [objectMembers, nextKey_first]
  rfl

theorem objectMembers_later (fuel : Nat) (state : σ) (key : String) (rest : Bytes) :
    objectMembers member (fuel + 1) false state (ascii ',' :: ascii '"' :: (closing key ++ rest)) =
      (member state key rest).bind fun read => objectMembers member fuel false read.1 read.2 := by
  rw [objectMembers, nextKey_later]
  rfl

theorem objectMembers_end (fuel : Nat) (first : Bool) (state : σ) (rest : Bytes) :
    objectMembers member (fuel + 1) first state (ascii '}' :: rest) = .ok (state, rest) := by
  rw [objectMembers, nextKey_end]
  rfl

end Members

namespace Decoder

theorem text_quoted (depth : Nat) (value : String) (rest : Bytes) :
    text depth (ascii '"' :: (closing value ++ rest)) = .ok (value, rest) := by
  rw [text, skipBlanks_solid _ (by decide)]
  simp [stringBody_closing]

theorem parsed_quoted {α : Type} (read : String → Option α) (depth : Nat) (value : String)
    (found : α) (rest : Bytes) (understood : read value = some found) :
    parsed read depth (ascii '"' :: (closing value ++ rest)) = .ok (found, rest) := by
  simp [parsed, bind, Except.bind, text_quoted, understood, pure, Except.pure]

theorem record_object {σ α : Type} (fields : List (RecordField σ)) (start : σ)
    (finish : σ → Option α) (depth : Nat) (bytes rest : Bytes) (state : σ) (found : α)
    (members : objectMembers (recordMember fields depth) (bytes.length + 1) true start bytes =
      .ok (state, rest)) (whole : finish state = some found) :
    record fields start finish (depth + 1) (ascii '{' :: bytes) = .ok (found, rest) := by
  rw [record, skipBlanks_solid _ (by decide)]
  simp [members, bind, Except.bind, whole]

theorem recordMember_read {σ : Type} {fields : List (RecordField σ)} {depth : Nat} {state after : σ}
    {key : String} {bytes rest : Bytes} (found : RecordField σ)
    (known : fields.find? (·.name == key) = some found) (unread : found.filled state = false)
    (read : found.read state depth bytes = .ok (after, rest)) :
    recordMember fields depth state key (ascii ':' :: bytes) = .ok (after, rest) := by
  simp [recordMember, known, unread, expectColon_colon, bind, Except.bind, read]

end Decoder
end Corpora.Json
