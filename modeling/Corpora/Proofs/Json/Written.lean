import Corpora.Proofs.Json.Record

/-!
Values as they are written without blanks, and the reading of an array of objects that was written
so. Each object is read with whatever follows it, so the reader takes the objects one after the other
with the comma before each of them.
-/

namespace Corpora.Json

open Text.Utf8 (encode encode_ofList encodeChar_ascii)

def written (value : Json) : Bytes := value.compact.flatMap String.utf8EncodeChar

theorem encode_compactText (value : Json) : encode value.compactText = written value := by
  rw [compactText, encode_ofList, written]

section Values

theorem written_string (text : String) : written (.string text) = ascii '"' :: closing text := by
  rw [written, compact, quote_bytes]

theorem written_false : written (.bool false) = encode "false" := by decide

def memberBytes (key : String) (value : Json) : Bytes :=
  ascii '"' :: (closing key ++ ascii ':' :: written value)

theorem compactMembers_cons (key : String) (value : Json) (rest : List (String × Json)) :
    compactMembers ((key, value) :: rest) = quote key ++ ':' :: compact value ++
      rest.flatMap fun other => ',' :: (quote other.1 ++ ':' :: compact other.2) := by
  induction rest generalizing key value with
  | nil => simp [compactMembers]
  | cons other rest ih =>
      rw [compactMembers, ih, List.flatMap_cons]
      · simp
      · exact fun impossible => List.cons_ne_nil _ _ impossible

theorem written_object (key : String) (value : Json) (rest : List (String × Json)) :
    written (.object ((key, value) :: rest)) =
      ascii '{' :: (memberBytes key value ++
        (rest.flatMap fun other => ascii ',' :: memberBytes other.1 other.2) ++ [ascii '}']) := by
  have colon : String.utf8EncodeChar ':' = [ascii ':'] := by decide
  have comma : String.utf8EncodeChar ',' = [ascii ','] := by decide
  have opening : String.utf8EncodeChar '{' = [ascii '{'] := by decide
  have ending : String.utf8EncodeChar '}' = [ascii '}'] := by decide
  simp [written, memberBytes, compact, compactMembers_cons, quote_bytes, opening, ending, colon,
    comma, List.flatMap_assoc]

end Values

theorem compactItems_cons (item : Json) (rest : List Json) :
    compactItems (item :: rest) = compact item ++ rest.flatMap fun other => ',' :: compact other := by
  induction rest generalizing item with
  | nil => simp [compactItems]
  | cons other rest ih =>
      rw [compactItems, ih, List.flatMap_cons, List.cons_append]
      exact fun impossible => List.cons_ne_nil _ _ impossible

section Steps

variable {α : Type} (item : Bytes → Except Fault (α × Bytes)) (fuel : Nat) (found : List α)
  (rest : Bytes)

theorem arrayItems_end (first : Bool) :
    arrayItems item (fuel + 1) first found (ascii ']' :: rest) = .ok (found.reverse, rest) := by
  rw [arrayItems, skipBlanks_solid _ (by decide)]
  simp

theorem arrayItems_first :
    arrayItems item (fuel + 1) true found (ascii '{' :: rest) =
      (item (ascii '{' :: rest)).bind fun read =>
        arrayItems item fuel false (read.1 :: found) read.2 := by
  have noEnd : (ascii '{' == ascii ']') = false := by decide
  rw [arrayItems, skipBlanks_solid _ (by decide)]
  simp only [noEnd, Bool.false_eq_true, ↓reduceIte]
  rfl

theorem arrayItems_later :
    arrayItems item (fuel + 1) false found (ascii ',' :: ascii '{' :: rest) =
      (item (ascii '{' :: rest)).bind fun read =>
        arrayItems item fuel false (read.1 :: found) read.2 := by
  have noEnd : (ascii ',' == ascii ']') = false := by decide
  have filled : (some (ascii '{') == some (ascii ']')) = false := by decide
  rw [arrayItems, skipBlanks_solid _ (by decide)]
  simp only [noEnd, Bool.false_eq_true, ↓reduceIte, beq_self_eq_true]
  rw [skipBlanks_solid _ (by decide)]
  simp only [List.head?_cons, filled, Bool.false_eq_true, ↓reduceIte]
  rfl

end Steps

section Objects

variable {α β : Type} {json : α → Json} {body : α → Bytes} {value : α → β}
  {item : Bytes → Except Fault (β × Bytes)}

def laterBytes (body : α → Bytes) (items : List α) : Bytes :=
  items.flatMap fun other => ascii ',' :: ascii '{' :: body other

theorem arrayItems_laterBytes
    (read : ∀ a rest, item (ascii '{' :: (body a ++ rest)) = .ok (value a, rest))
    (items : List α) (rest : Bytes) (found : List β) {fuel : Nat} (enough : items.length < fuel) :
    arrayItems item fuel false found (laterBytes body items ++ ascii ']' :: rest) =
      .ok (found.reverse ++ items.map value, rest) := by
  induction items generalizing found fuel with
  | nil =>
      obtain ⟨fuel, rfl⟩ := Nat.exists_eq_succ_of_ne_zero (Nat.ne_zero_of_lt enough)
      simpa [laterBytes] using arrayItems_end item fuel found rest false
  | cons a items ih =>
      obtain ⟨fuel, rfl⟩ := Nat.exists_eq_succ_of_ne_zero (Nat.ne_zero_of_lt enough)
      have step := arrayItems_later item fuel found
        (body a ++ (laterBytes body items ++ ascii ']' :: rest))
      rw [read, Except.bind, ih (value a :: found) (Nat.lt_of_succ_lt_succ enough)] at step
      simpa [laterBytes] using step

def itemBytes (body : α → Bytes) : List α → Bytes
  | [] => []
  | a :: items => ascii '{' :: (body a ++ laterBytes body items)

theorem length_le_separated (text : α → Bytes) (items : List α) :
    items.length ≤ (items.flatMap fun a => ascii ',' :: text a).length := by
  induction items with
  | nil => exact Nat.le_refl 0
  | cons a items ih =>
      simp only [List.flatMap_cons, List.length_append, List.length_cons]
      omega

theorem length_le_itemBytes (body : α → Bytes) (items : List α) :
    items.length ≤ (itemBytes body items).length := by
  cases items with
  | nil => exact Nat.le_refl 0
  | cons a items =>
      have later : items.length ≤ (laterBytes body items).length := length_le_separated _ items
      simp only [itemBytes, List.length_cons, List.length_append]
      omega

theorem arrayItems_itemBytes
    (read : ∀ a rest, item (ascii '{' :: (body a ++ rest)) = .ok (value a, rest))
    (items : List α) (rest : Bytes) {fuel : Nat} (enough : items.length < fuel) :
    arrayItems item fuel true [] (itemBytes body items ++ ascii ']' :: rest) =
      .ok (items.map value, rest) := by
  obtain ⟨fuel, rfl⟩ := Nat.exists_eq_succ_of_ne_zero (Nat.ne_zero_of_lt enough)
  cases items with
  | nil => exact arrayItems_end item fuel [] rest true
  | cons a items =>
      have step := arrayItems_first item fuel []
        (body a ++ (laterBytes body items ++ ascii ']' :: rest))
      rw [read, Except.bind, arrayItems_laterBytes read _ _ _ (Nat.lt_of_succ_lt_succ enough)] at step
      simpa [itemBytes] using step

theorem written_array (objects : ∀ a, written (json a) = ascii '{' :: body a) (items : List α) :
    written (.array (items.map json)) = ascii '[' :: (itemBytes body items ++ [ascii ']']) := by
  have opening : String.utf8EncodeChar '[' = [ascii '['] := by decide
  have ending : String.utf8EncodeChar ']' = [ascii ']'] := by decide
  have comma : String.utf8EncodeChar ',' = [ascii ','] := by decide
  unfold written at objects
  cases items with
  | nil => simp [written, compact, compactItems, itemBytes, opening, ending]
  | cons a items =>
      simp [written, compact, compactItems_cons, itemBytes, laterBytes, opening, ending, comma,
        List.flatMap_assoc, List.flatMap_map, objects]

end Objects

namespace Decoder

theorem list_objects {α β : Type} {body : α → Bytes} {value : α → β} {inner : Decoder β}
    {depth : Nat} (read : ∀ a rest, inner depth (ascii '{' :: (body a ++ rest)) = .ok (value a, rest))
    (items : List α) (rest : Bytes) :
    list inner (depth + 1) (ascii '[' :: (itemBytes body items ++ ascii ']' :: rest)) =
      .ok (items.map value, rest) := by
  have enough := length_le_itemBytes body items
  rw [list, skipBlanks_solid _ (by decide)]
  simp only [beq_self_eq_true, ↓reduceIte]
  apply arrayItems_itemBytes read
  simp only [List.length_append, List.length_cons]
  omega

theorem nullable_list {α : Type} {inner : Decoder α} {depth : Nat} {bytes rest : Bytes} {value : α}
    (read : inner depth (ascii '[' :: bytes) = .ok (value, rest)) :
    nullable inner depth (ascii '[' :: bytes) = .ok (some value, rest) := by
  have noNull : (ascii '[' == ascii 'n') = false := by decide
  rw [nullable, skipBlanks_solid _ (by decide)]
  simp [noNull, read, Except.map]

end Decoder
end Corpora.Json
