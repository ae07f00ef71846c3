import Corpora.Embedding.Response
import Corpora.Proofs.Order.SortByKey
import Corpora.Proofs.Order.StableSort
import Corpora.Proofs.Vector.Nearest

/-!
Vectors out of an answer whose items tell where they belong. Items of different indices are put into
the order of these, however they are listed, and items without an index keep the order of the list.
An item without a vector of numbers spoils the whole answer, and nothing else does.
-/

namespace Corpora

section Traversal

variable {α β : Type} {f : α → Option β}

theorem mapM_eq_some_iff {xs : List α} {ys : List β} :
    xs.mapM f = some ys ↔ xs.map f = ys.map some := by
  induction xs generalizing ys with
  | nil => cases ys <;> simp
  | cons x xs ih =>
      rw [List.mapM_cons]
      cases found : f x with
      | none => cases ys <;> simp [found]
      | some y => cases rest : xs.mapM f <;> cases ys <;> simp [found, ← ih, rest]

theorem mapM_eq_none_iff {xs : List α} : xs.mapM f = none ↔ ∃ x ∈ xs, f x = none := by
  induction xs with
  | nil => simp
  | cons x xs ih =>
      rw [List.mapM_cons]
      cases found : f x with
      | none => simp [found]
      | some y => cases rest : xs.mapM f <;> simp [found, ← ih, rest]

theorem told_of_mapM {xs : List α} {ys : List β} (all : xs.mapM f = some ys) {x : α}
    (member : x ∈ xs) : ∃ y, f x = some y := by
  cases told : f x with
  | none =>
      rw [mapM_eq_none_iff.mpr ⟨x, member, told⟩] at all
      cases all
  | some y => exact ⟨y, rfl⟩

theorem length_of_mapM {xs : List α} {ys : List β} (all : xs.mapM f = some ys) :
    ys.length = xs.length := by
  have same := congrArg List.length (mapM_eq_some_iff.mp all)
  rw [List.length_map, List.length_map] at same
  exact same.symm

end Traversal

def Numeral.double : Numeral → Float
  | .whole n => Float.ofInt n
  | .real x => x

namespace Embedding

/-- The elements of a vector are numbers rounded to nearest, in their order. -/
def Rounded (numbers : List Numeral) (vector : Vector32) : Prop :=
  numbers.Forall₂ (fun number element => element.IsNearest number.double) vector

def vectorOf (numbers : List Numeral) : Vector32 :=
  numbers.map fun number => Element.nearest number.double

theorem rounded_vectorOf (numbers : List Numeral) : Rounded numbers (vectorOf numbers) := by
  rw [Rounded, vectorOf, List.forall₂_map_right_iff, List.forall₂_same]
  exact fun number _ => Element.isNearest_nearest number.double

theorem Rounded.eq_vectorOf {numbers : List Numeral} {vector : Vector32}
    (rounded : Rounded numbers vector)
    (numeric : ∀ number ∈ numbers, number.double.isNaN = false) : vector = vectorOf numbers := by
  induction rounded with
  | nil => rfl
  | cons here _ ih =>
      rw [(Element.isNearest_iff (numeric _ List.mem_cons_self)).mp here,
        ih fun number member => numeric number (List.mem_cons_of_mem _ member)]
      rfl

theorem float?_number (number : Numeral) : (Json.number number).float? = some number.double := by
  cases number <;> rfl

theorem exists_number {value : Json} {x : Float} (read : value.float? = some x) :
    ∃ number, value = .number number := by
  cases value with
  | number number => exact ⟨number, rfl⟩
  | _ => cases read

theorem vector?_numbers (numbers : List Numeral) :
    vector? (.array (numbers.map .number)) = some (vectorOf numbers) := by
  have each : (numbers.map Json.number).mapM (fun item => item.float?.map Element.nearest) =
      some (vectorOf numbers) := by
    rw [mapM_eq_some_iff, vectorOf, List.map_map, List.map_map]
    apply List.map_congr_left
    intro number _
    rw [Function.comp_apply, Function.comp_apply, float?_number, Option.map_some]
  exact each

/-- A vector is read from an array of numbers, and from nothing else. -/
theorem vector?_eq_some_iff {value : Json} {vector : Vector32} :
    vector? value = some vector ↔
      ∃ numbers, value = .array (numbers.map .number) ∧ vector = vectorOf numbers := by
  constructor
  · intro read
    obtain ⟨items, listed, each⟩ := Option.bind_eq_some_iff.mp read
    have numeric : items ∈ Set.range (List.map Json.number) := by
      rw [Set.range_list_map]
      intro item member
      obtain ⟨element, told⟩ := told_of_mapM each member
      obtain ⟨x, number, -⟩ := Option.map_eq_some_iff.mp told
      exact (exists_number number).imp fun _ same => same.symm
    obtain ⟨numbers, rfl⟩ := numeric
    have same := Option.some.inj ((vector?_numbers numbers).symm.trans each)
    cases value with
    | array items => cases listed; exact ⟨numbers, rfl, same.symm⟩
    | _ => cases listed
  · rintro ⟨numbers, rfl, rfl⟩
    exact vector?_numbers numbers

def Embeds (item : Json) (numbers : List Numeral) : Prop :=
  item.get? "embedding" = some (.array (numbers.map .number))

def Indexed (item : Json) (index : Nat) : Prop := item.get? "index" = some (.nat index)

/-- An item holds no index, or something else than an index in its place. -/
def Unindexed (item : Json) : Prop := (item.get? "index").bind Json.unsigned? = none

def heldVector? (item : Json) : Option Vector32 := (item.get? "embedding").bind vector?

theorem heldVector?_of_embeds {item : Json} {numbers : List Numeral}
    (embeds : Embeds item numbers) : heldVector? item = some (vectorOf numbers) := by
  rw [heldVector?, embeds, Option.bind_some, vector?_numbers]

theorem heldVector?_eq_none_iff {item : Json} :
    heldVector? item = none ↔ ∀ numbers, ¬ Embeds item numbers := by
  constructor
  · intro none numbers embeds
    rw [heldVector?_of_embeds embeds] at none
    cases none
  · intro never
    cases held : heldVector? item with
    | none => rfl
    | some vector =>
        obtain ⟨value, found, read⟩ := Option.bind_eq_some_iff.mp held
        obtain ⟨numbers, rfl, -⟩ := vector?_eq_some_iff.mp read
        exact absurd found (never numbers)

def heldIndex? (item : Json) : Option Nat := (item.get? "index").bind Json.unsigned?

theorem heldIndex?_of_indexed {item : Json} {index : Nat} (indexed : Indexed item index) :
    heldIndex? item = some index := by
  rw [heldIndex?, indexed, Option.bind_some]
  rfl

theorem placedVector?_eq (item : Json) (position : Nat) :
    placedVector? item position =
      (heldVector? item).map fun vector => ((heldIndex? item).getD position, vector) := by
  rw [placedVector?, ← heldVector?, ← heldIndex?]
  cases heldVector? item <;> rfl

theorem placedVector?_of_embeds {item : Json} {numbers : List Numeral}
    (embeds : Embeds item numbers) (position : Nat) :
    placedVector? item position = some ((heldIndex? item).getD position, vectorOf numbers) := by
  rw [placedVector?_eq, heldVector?_of_embeds embeds, Option.map_some]

def placed? (items : List Json) (start : Nat) : Option (List (Nat × Vector32)) :=
  (items.zipIdx start).mapM fun here => placedVector? here.1 here.2

theorem placedVectors?_eq (items : List Json) :
    placedVectors? items = (placed? items 0).map fun placed =>
      (stableSort (fun a b => decide (a.1 < b.1)) placed).map Prod.snd := by
  have both : placedVectors? items = (placed? items 0).bind fun placed =>
      some ((stableSort (fun a b => decide (a.1 < b.1)) placed).map Prod.snd) := rfl
  rw [both, Option.map_eq_bind]
  rfl

theorem placed?_indexed {items : List Json} {told : List (Nat × List Numeral)}
    (each : items.Forall₂ (fun item held => Indexed item held.1 ∧ Embeds item held.2) told)
    (start : Nat) :
    placed? items start = some (told.map fun held => (held.1, vectorOf held.2)) := by
  rw [placed?, mapM_eq_some_iff]
  induction each generalizing start with
  | nil => rfl
  | cons here _ ih =>
      rw [List.zipIdx_cons, List.map_cons, ih, placedVector?_of_embeds here.2,
        heldIndex?_of_indexed here.1]
      rfl

theorem placed?_unindexed {items : List Json} {numbers : List (List Numeral)}
    (each : items.Forall₂ (fun item held => Unindexed item ∧ Embeds item held) numbers)
    (start : Nat) :
    placed? items start = some (((numbers.map vectorOf).zipIdx start).map Prod.swap) := by
  rw [placed?, mapM_eq_some_iff]
  induction each generalizing start with
  | nil => rfl
  | cons here _ ih =>
      have without : heldIndex? _ = none := here.1
      rw [List.zipIdx_cons, List.map_cons, ih, placedVector?_of_embeds here.2, without]
      rfl

theorem placed?_eq_none_iff {items : List Json} (start : Nat) :
    placed? items start = none ↔ ∃ item ∈ items, heldVector? item = none := by
  rw [placed?, mapM_eq_none_iff]
  constructor
  · rintro ⟨⟨item, position⟩, member, none⟩
    rw [placedVector?_eq, Option.map_eq_none_iff] at none
    exact ⟨item, List.fst_mem_of_mem_zipIdx member, none⟩
  · rintro ⟨item, member, none⟩
    obtain ⟨position, here⟩ := List.mem_iff_getElem?.mp member
    refine ⟨(item, start + position), List.mk_add_mem_zipIdx_iff_getElem?.mpr here, ?_⟩
    rw [placedVector?_eq, none, Option.map_none]

theorem placedVectors?_eq_none_iff {items : List Json} :
    placedVectors? items = none ↔ ∃ item ∈ items, ∀ numbers, ¬ Embeds item numbers := by
  simp only [placedVectors?_eq, Option.map_eq_none_iff, placed?_eq_none_iff,
    heldVector?_eq_none_iff]

theorem placedVectors?_indexed {items : List Json} {told ordered : List (Nat × List Numeral)}
    (each : items.Forall₂ (fun item held => Indexed item held.1 ∧ Embeds item held.2) told)
    (same : ordered.Perm told)
    (strict : ordered.Pairwise fun earlier later => earlier.1 < later.1) :
    placedVectors? items = some (ordered.map fun held => vectorOf held.2) := by
  have sorted : stableSort (fun a b => decide (a.1 < b.1))
      (told.map fun held => (held.1, vectorOf held.2)) =
        ordered.map fun held => (held.1, vectorOf held.2) :=
    stableSort_eq_of_strict (fun _ _ _ _ => decide_eq_true_iff) (fun _ _ => trivial)
      (same.map _) (List.pairwise_map.mpr strict)
  rw [placedVectors?_eq, placed?_indexed each, Option.map_some, sorted, List.map_map]
  rfl

theorem placedVectors?_unindexed {items : List Json} {numbers : List (List Numeral)}
    (each : items.Forall₂ (fun item held => Unindexed item ∧ Embeds item held) numbers) :
    placedVectors? items = some (numbers.map vectorOf) := by
  have ascending : (((numbers.map vectorOf).zipIdx).map Prod.swap).Pairwise
      fun left right => decide (right.1 < left.1) = false := by
    have places : (((numbers.map vectorOf).zipIdx).map Prod.snd).Pairwise (· < ·) := by
      rw [List.zipIdx_map_snd]
      exact List.pairwise_lt_range'
    rw [List.pairwise_map] at places ⊢
    exact places.imp fun before => decide_eq_false (Nat.not_lt_of_lt before)
  rw [placedVectors?_eq, placed?_unindexed each, Option.map_some,
    stableSort_of_ascending _ ascending, List.map_map]
  exact congrArg some (List.zipIdx_map_fst 0 _)

theorem ofOpenai_eq {answer : Json} {items : List Json}
    (data : answer.get? "data" = some (.array items)) :
    ofOpenai answer = match placedVectors? items with
      | some vectors => .ok vectors
      | none => Attempt.fail "Invalid OpenAI response: missing or non-numeric embedding" := by
  rw [ofOpenai, data]
  rfl

/-- Items of different indices give their vectors in the order of the indices, in whatever order an
answer lists them. Items without an index give them in the order of the list. Every number is
rounded to the nearest element. An answer is refused exactly if one of its items holds no vector. -/
theorem openai_order (items : List Json) :
    (∀ told : List (Nat × List Numeral),
      items.Forall₂ (fun item held => Indexed item held.1 ∧ Embeds item held.2) told →
      (told.map Prod.fst).Nodup →
      ∃ (ordered : List (Nat × List Numeral)) (vectors : List Vector32), ordered.Perm told ∧
        ordered.Pairwise (fun earlier later => earlier.1 < later.1) ∧
        ordered.Forall₂ (fun held vector => Rounded held.2 vector) vectors ∧
        ∀ order answer, items.Perm order → answer.get? "data" = some (.array order) →
          ofOpenai answer = .ok vectors) ∧
    (∀ (numbers : List (List Numeral)) (answer : Json),
      items.Forall₂ (fun item held => Unindexed item ∧ Embeds item held) numbers →
      answer.get? "data" = some (.array items) →
      ∃ vectors, numbers.Forall₂ Rounded vectors ∧ ofOpenai answer = .ok vectors) ∧
    ∀ answer : Json, answer.get? "data" = some (.array items) →
      (ofOpenai answer =
          Attempt.fail "Invalid OpenAI response: missing or non-numeric embedding" ↔
        ∃ item ∈ items, ∀ numbers, ¬ Embeds item numbers) := by
  refine ⟨fun told each own => ?_, fun numbers answer each data => ?_, fun answer data => ?_⟩
  · obtain ⟨ordered, sorted⟩ : ∃ ordered, stableSort (fun a b => decide (a.1 < b.1)) told = ordered :=
      ⟨_, rfl⟩
    have same : ordered.Perm told := sorted ▸ stableSort_perm _ told
    have strict : ordered.Pairwise fun earlier later => earlier.1 < later.1 :=
      sorted ▸ stableSort_strict (fun _ _ _ _ => decide_eq_true_iff) (fun _ _ => trivial) own
    refine ⟨ordered, ordered.map fun held => vectorOf held.2, same, strict, ?_,
      fun order answer permuted data => ?_⟩
    · exact List.forall₂_map_right_iff.mpr
        (List.forall₂_same.mpr fun held _ => rounded_vectorOf held.2)
    obtain ⟨told', each', moved⟩ := List.perm_comp_forall₂ permuted.symm each
    rw [ofOpenai_eq data, placedVectors?_indexed each' (same.trans moved.symm) strict]
  · refine ⟨numbers.map vectorOf, ?_, by rw [ofOpenai_eq data, placedVectors?_unindexed each]⟩
    exact List.forall₂_map_right_iff.mpr
      (List.forall₂_same.mpr fun held _ => rounded_vectorOf held)
  · rw [ofOpenai_eq data, ← placedVectors?_eq_none_iff]
    cases placedVectors? items <;> simp [Attempt.fail]

def indexedItem (index : Nat) (numbers : List Numeral) : Json :=
  .object [("embedding", .array (numbers.map .number)), ("index", .nat index)]

def unindexedItem (numbers : List Numeral) : Json :=
  .object [("embedding", .array (numbers.map .number))]

def openaiAnswer (items : List Json) : Json :=
  .object [("data", .array items), ("object", .string "list")]

def lastItem : Json := indexedItem (2 ^ 64 - 1) [.whole 1, .real 0.1]

def firstItem : Json := indexedItem 0 [.whole 16777217]

theorem Rounded.eq_of_vectorOf {numbers : List Numeral} {vector : Vector32}
    (rounded : Rounded numbers vector) (found : Vector32)
    (evaluated : (numbers.all fun number => !number.double.isNaN) = true ∧
      vectorOf numbers = found) : vector = found := by
  refine (rounded.eq_vectorOf fun number member => ?_).trans evaluated.2
  simpa using List.all_eq_true.mp evaluated.1 number member

/-- The largest index comes last, wherever it is listed. -/
theorem largest_index_last :
    ofOpenai (openaiAnswer [lastItem, firstItem]) =
      .ok [[⟨0x4B800000⟩], [⟨0x3F800000⟩, ⟨0x3DCCCCCD⟩]] ∧
    ofOpenai (openaiAnswer [firstItem, lastItem]) =
      .ok [[⟨0x4B800000⟩], [⟨0x3F800000⟩, ⟨0x3DCCCCCD⟩]] ∧
    ofOpenai (openaiAnswer [unindexedItem [.whole 1], unindexedItem []]) =
      .ok [[⟨0x3F800000⟩], []] ∧
    ofOpenai (openaiAnswer [unindexedItem [.whole 1], .null]) =
      Attempt.fail "Invalid OpenAI response: missing or non-numeric embedding" := by
  obtain ⟨indexed, -, -⟩ := openai_order [lastItem, firstItem]
  obtain ⟨-, unindexed, -⟩ := openai_order [unindexedItem [.whole 1], unindexedItem []]
  obtain ⟨-, -, refused⟩ := openai_order [unindexedItem [.whole 1], .null]
  obtain ⟨ordered, vectors, same, strict, rounded, restored⟩ :=
    indexed [(2 ^ 64 - 1, [.whole 1, .real 0.1]), (0, [.whole 16777217])]
      (.cons ⟨rfl, rfl⟩ (.cons ⟨rfl, rfl⟩ .nil)) (by decide)
  have last : ordered = [(0, [.whole 16777217]), (2 ^ 64 - 1, [.whole 1, .real 0.1])] :=
    List.Perm.eq_of_pairwise
      (fun _ _ _ _ lower higher => absurd higher (Nat.lt_asymm lower)) strict
      (by decide) (same.trans (List.Perm.swap ..))
  have elements : vectors = [[⟨0x4B800000⟩], [⟨0x3F800000⟩, ⟨0x3DCCCCCD⟩]] := by
    rw [last] at rounded
    cases rounded with
    | cons first rest =>
      cases rest with
      | cons second none =>
        cases none
        rw [first.eq_of_vectorOf [⟨0x4B800000⟩] (by decide +kernel),
          second.eq_of_vectorOf [⟨0x3F800000⟩, ⟨0x3DCCCCCD⟩] (by decide +kernel)]
  rw [elements] at restored
  obtain ⟨vectors, plain, answered⟩ :=
    unindexed [[.whole 1], []] (openaiAnswer [unindexedItem [.whole 1], unindexedItem []])
      (.cons ⟨rfl, rfl⟩ (.cons ⟨rfl, rfl⟩ .nil)) rfl
  have single : vectors = [[⟨0x3F800000⟩], []] := by
    cases plain with
    | cons first rest =>
      cases rest with
      | cons second none =>
        cases none
        rw [first.eq_of_vectorOf [⟨0x3F800000⟩] (by decide +kernel),
          second.eq_of_vectorOf [] (by decide +kernel)]
  refine ⟨restored _ _ (List.Perm.refl _) rfl, restored _ _ (List.Perm.swap ..) rfl,
    single ▸ answered, ?_⟩
  refine (refused _ rfl).mpr ⟨.null, by simp, fun numbers embeds => ?_⟩
  cases embeds

end Embedding
end Corpora
