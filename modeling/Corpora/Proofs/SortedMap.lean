import Corpora.Order.SortedMap

/-!
The look-up of a sorted map decides everything about it. An entry is found exactly when it is
listed, each operation has one equation for the look-up after it, and two maps with the same
look-ups are the same map.
-/

namespace Corpora.SortedMap

variable {κ β : Type} [Ord κ] [Std.TransOrd κ]

section Order

theorem ne_of_compare_lt {left right : κ} (order : compare left right = .lt) : left ≠ right := by
  intro same
  subst same
  exact Ordering.noConfusion (order.symm.trans Std.ReflCmp.compare_self)

theorem ne_of_compare_gt {left right : κ} (order : compare left right = .gt) : left ≠ right := by
  intro same
  subst same
  exact Ordering.noConfusion (order.symm.trans Std.ReflCmp.compare_self)

theorem keys_nodup (map : SortedMap κ β) : map.keys.Nodup := by
  apply List.pairwise_map.mpr
  apply map.ascending.imp
  intro left right order
  exact ne_of_compare_lt order

theorem keys_ascend (map : SortedMap String β) : map.keys.Pairwise (· < ·) :=
  List.pairwise_map.mpr (map.ascending.imp compareOfLessAndEq_eq_lt.mp)

-- The entries behind a key that is not less than another one have greater keys than that one.
theorem fresh_of_below {key other : κ} {held : β} {rest : List (κ × β)}
    (ascending : ((other, held) :: rest).Pairwise fun left right => compare left.1 right.1 = .lt)
    (order : compare key other = .lt) : ∀ entry ∈ (other, held) :: rest, entry.1 ≠ key := by
  intro entry member
  rcases List.mem_cons.mp member with rfl | later
  · exact (ne_of_compare_lt order).symm
  · have below := (List.pairwise_cons.mp ascending).1 entry later
    exact (ne_of_compare_lt (Std.TransCmp.lt_trans order below)).symm

theorem apart_of_head {key : κ} {held : β} {rest : List (κ × β)}
    (ascending : ((key, held) :: rest).Pairwise fun left right => compare left.1 right.1 = .lt) :
    ∀ entry ∈ rest, entry.1 ≠ key := by
  intro entry later
  exact (ne_of_compare_lt ((List.pairwise_cons.mp ascending).1 entry later)).symm

-- A strictly ascending list has no choice but its elements.
theorem ascending_unique {γ : Type} (key : γ → κ) {left right : List γ}
    (leftOrder : left.Pairwise fun a b => compare (key a) (key b) = .lt)
    (rightOrder : right.Pairwise fun a b => compare (key a) (key b) = .lt)
    (members : ∀ element, element ∈ left ↔ element ∈ right) : left = right := by
  have nodup : ∀ list : List γ, (list.Pairwise fun a b => compare (key a) (key b) = .lt) →
      list.Nodup := fun list order =>
    order.imp fun below same => ne_of_compare_lt below (congrArg key same)
  refine ((List.perm_ext_iff_of_nodup (nodup left leftOrder) (nodup right rightOrder)).mpr
    members).eq_of_pairwise ?_ leftOrder rightOrder
  intro a b _ _ first second
  exact absurd rfl (ne_of_compare_lt (Std.TransCmp.lt_trans first second))

end Order

variable [Std.LawfulEqOrd κ]

section Entries

theorem findEntry_iff {entries : List (κ × β)} (key : κ) (value : β)
    (ascending : entries.Pairwise fun left right => compare left.1 right.1 = .lt) :
    findEntry key entries = some value ↔ (key, value) ∈ entries := by
  induction entries with
  | nil => simp [findEntry]
  | cons first rest ih =>
      rcases first with ⟨other, held⟩
      have search := ih (List.pairwise_cons.mp ascending).2
      cases order : compare key other with
      | lt =>
          simp only [findEntry, order, reduceCtorEq, false_iff]
          intro member
          exact fresh_of_below ascending order _ member rfl
      | eq =>
          have keys : key = other := Std.LawfulEqOrd.eq_of_compare order
          subst keys
          simp only [findEntry, order, Option.some.injEq, List.mem_cons, Prod.mk.injEq, true_and]
          constructor
          · intro same
            exact Or.inl same.symm
          · rintro (same | later)
            · exact same.symm
            · exact absurd rfl (apart_of_head ascending _ later)
      | gt => simp [findEntry, order, search, ne_of_compare_gt order]

theorem mem_insertEntry_iff {key : κ} {value : β} {entries : List (κ × β)} {entry : κ × β}
    (ascending : entries.Pairwise fun left right => compare left.1 right.1 = .lt) :
    entry ∈ insertEntry key value entries ↔
      entry = (key, value) ∨ (entry.1 ≠ key ∧ entry ∈ entries) := by
  induction entries with
  | nil => simp [insertEntry]
  | cons first rest ih =>
      rcases first with ⟨other, held⟩
      have tail := ih (List.pairwise_cons.mp ascending).2
      cases order : compare key other with
      | lt =>
          simp only [insertEntry, order]
          rw [List.mem_cons]
          have fresh := fresh_of_below ascending order
          exact or_congr_right ⟨fun member => ⟨fresh entry member, member⟩, And.right⟩
      | eq =>
          have keys : key = other := Std.LawfulEqOrd.eq_of_compare order
          subst keys
          simp only [insertEntry, order, List.mem_cons]
          constructor
          · rintro (same | later)
            · exact Or.inl same
            · exact Or.inr ⟨apart_of_head ascending entry later, Or.inr later⟩
          · rintro (same | ⟨different, same | later⟩)
            · exact Or.inl same
            · subst same
              exact absurd rfl different
            · exact Or.inr later
      | gt =>
          simp only [insertEntry, order, List.mem_cons, tail]
          constructor
          · rintro (same | same | ⟨apart, later⟩)
            · subst same
              exact Or.inr ⟨(ne_of_compare_gt order).symm, Or.inl rfl⟩
            · exact Or.inl same
            · exact Or.inr ⟨apart, Or.inr later⟩
          · rintro (same | ⟨apart, same | later⟩)
            · exact Or.inr (Or.inl same)
            · exact Or.inl same
            · exact Or.inr (Or.inr ⟨apart, later⟩)

theorem mem_eraseEntry_iff {key : κ} {entries : List (κ × β)} {entry : κ × β}
    (ascending : entries.Pairwise fun left right => compare left.1 right.1 = .lt) :
    entry ∈ eraseEntry key entries ↔ entry.1 ≠ key ∧ entry ∈ entries := by
  induction entries with
  | nil => simp [eraseEntry]
  | cons first rest ih =>
      rcases first with ⟨other, held⟩
      have tail := ih (List.pairwise_cons.mp ascending).2
      cases order : compare key other with
      | lt =>
          simp only [eraseEntry, order]
          exact ⟨fun member => ⟨fresh_of_below ascending order entry member, member⟩, And.right⟩
      | eq =>
          have keys : key = other := Std.LawfulEqOrd.eq_of_compare order
          subst keys
          simp only [eraseEntry, order, List.mem_cons]
          constructor
          · intro later
            exact ⟨apart_of_head ascending entry later, Or.inr later⟩
          · rintro ⟨different, same | later⟩
            · subst same
              exact absurd rfl different
            · exact later
      | gt =>
          simp only [eraseEntry, order, List.mem_cons, tail]
          constructor
          · rintro (same | ⟨apart, later⟩)
            · subst same
              exact ⟨(ne_of_compare_gt order).symm, Or.inl rfl⟩
            · exact ⟨apart, Or.inr later⟩
          · rintro ⟨apart, same | later⟩
            · exact Or.inl same
            · exact Or.inr ⟨apart, later⟩

end Entries

theorem get?_iff (map : SortedMap κ β) (key : κ) (value : β) :
    map.get? key = some value ↔ (key, value) ∈ map.entries :=
  findEntry_iff key value map.ascending

omit [Std.TransOrd κ] [Std.LawfulEqOrd κ] in
@[simp]
theorem get?_empty (key : κ) : (∅ : SortedMap κ β).get? key = none := rfl

theorem get?_insert [DecidableEq κ] (map : SortedMap κ β) (key other : κ) (value : β) :
    (map.insert key value).get? other = if other = key then some value else map.get? other := by
  ext held
  rw [get?_iff]
  simp only [insert, mem_insertEntry_iff map.ascending, Prod.mk.injEq]
  by_cases same : other = key
  · simp [same, eq_comm]
  · simp [same, get?_iff]

@[simp]
theorem get?_insert_self (map : SortedMap κ β) (key : κ) (value : β) :
    (map.insert key value).get? key = some value := by
  rw [get?_iff]
  exact (mem_insertEntry_iff map.ascending).mpr (Or.inl rfl)

theorem get?_insert_of_ne (map : SortedMap κ β) {key other : κ} (value : β)
    (different : other ≠ key) : (map.insert key value).get? other = map.get? other := by
  ext held
  rw [get?_iff, get?_iff]
  simp [insert, mem_insertEntry_iff map.ascending, different]

theorem get?_erase [DecidableEq κ] (map : SortedMap κ β) (key other : κ) :
    (map.erase key).get? other = if other = key then none else map.get? other := by
  ext held
  rw [get?_iff]
  simp only [erase, mem_eraseEntry_iff map.ascending]
  by_cases same : other = key
  · simp [same]
  · simp [same, get?_iff]

theorem get?_filterKeys (map : SortedMap κ β) (keep : κ → Bool) (key : κ) :
    (map.filterKeys keep).get? key = if keep key then map.get? key else none := by
  ext held
  rw [get?_iff]
  by_cases kept : keep key <;> simp [filterKeys, kept, get?_iff]

theorem ext_get? {left right : SortedMap κ β} (same : ∀ key, left.get? key = right.get? key) :
    left = right := by
  have members : ∀ entry, entry ∈ left.entries ↔ entry ∈ right.entries := by
    intro entry
    rw [← get?_iff left entry.1 entry.2, ← get?_iff right entry.1 entry.2, same]
  have listed : left.entries = right.entries :=
    ascending_unique Prod.fst left.ascending right.ascending members
  cases left
  cases right
  cases listed
  rfl

theorem erase_insert_of_absent (map : SortedMap κ β) {key : κ} (value : β)
    (absent : map.get? key = none) : (map.insert key value).erase key = map := by
  classical
  apply ext_get?
  intro other
  rw [get?_erase]
  by_cases same : other = key
  · simp [same, absent]
  · simp [same, get?_insert_of_ne map value same]

@[simp]
theorem insert_insert (map : SortedMap κ β) (key : κ) (first second : β) :
    (map.insert key first).insert key second = map.insert key second := by
  classical
  apply ext_get?
  intro other
  by_cases same : other = key <;> simp [get?_insert, same]

omit [Std.TransOrd κ] in
-- A key that yields nothing may come or go without a trace.
theorem filterMap_insertEntry {γ : Type} {key : κ} {choose : κ → Option γ} (value : β)
    (entries : List (κ × β)) (silent : choose key = none) :
    ((insertEntry key value entries).map (·.1)).filterMap choose =
      (entries.map (·.1)).filterMap choose := by
  induction entries with
  | nil => simp [insertEntry, silent]
  | cons first rest ih =>
      rcases first with ⟨other, held⟩
      cases order : compare key other with
      | lt => simp [insertEntry, order, silent]
      | eq =>
          have keys : key = other := Std.LawfulEqOrd.eq_of_compare order
          subst keys
          simp [insertEntry]
      | gt =>
          simp only [insertEntry, order, List.map_cons, List.filterMap_cons]
          rw [ih]

theorem filterMap_keys_insert {γ : Type} (map : SortedMap κ β) {key : κ}
    {choose : κ → Option γ} (value : β) (silent : choose key = none) :
    (map.insert key value).keys.filterMap choose = map.keys.filterMap choose :=
  filterMap_insertEntry value map.entries silent

theorem mem_keys (map : SortedMap κ β) (key : κ) : key ∈ map.keys ↔ map.contains key := by
  simp only [keys, List.mem_map, contains, Option.isSome_iff_exists, get?_iff]
  constructor
  · rintro ⟨entry, member, rfl⟩
    exact ⟨entry.2, member⟩
  · rintro ⟨value, member⟩
    exact ⟨(key, value), member, rfl⟩

theorem keys_ext {γ : Type} {left : SortedMap κ β} {right : SortedMap κ γ}
    (same : ∀ key, left.contains key = right.contains key) : left.keys = right.keys := by
  refine ascending_unique id (List.pairwise_map.mpr left.ascending)
    (List.pairwise_map.mpr right.ascending) ?_
  intro key
  rw [mem_keys, mem_keys, same]

theorem mem_values (map : SortedMap κ β) (value : β) :
    value ∈ map.values ↔ ∃ key, map.get? key = some value := by
  simp only [values, List.mem_map, get?_iff]
  constructor
  · rintro ⟨entry, member, rfl⟩
    exact ⟨entry.1, member⟩
  · rintro ⟨key, member⟩
    exact ⟨(key, value), member, rfl⟩

theorem entry_of_foldl_insert {entries : List (κ × β)} {map : SortedMap κ β} {key : κ} {value : β}
    (found : (entries.foldl (fun map (key, value) => map.insert key value) map).get? key =
      some value) : (key, value) ∈ entries ∨ map.get? key = some value := by
  classical
  induction entries generalizing map with
  | nil => exact Or.inr found
  | cons first rest ih =>
      rcases ih found with later | there
      · exact Or.inl (List.mem_cons_of_mem _ later)
      · rw [get?_insert] at there
        split at there
        · next same =>
          subst same
          cases there
          exact Or.inl List.mem_cons_self
        · exact Or.inr there

theorem foldl_insert_ne_none {entries : List (κ × β)} {map : SortedMap κ β} {key : κ}
    (there : key ∈ entries.map (·.1) ∨ map.get? key ≠ none) :
    (entries.foldl (fun map (key, value) => map.insert key value) map).get? key ≠ none := by
  classical
  induction entries generalizing map with
  | nil => exact there.resolve_left List.not_mem_nil
  | cons first rest ih =>
      apply ih
      rw [get?_insert]
      by_cases same : key = first.1
      · right
        simp [same]
      · simpa [same] using there

theorem get?_ofList {entries : List (κ × β)}
    (functional : ∀ key left right, (key, left) ∈ entries → (key, right) ∈ entries → left = right)
    (key : κ) (value : β) :
    (ofList entries).get? key = some value ↔ (key, value) ∈ entries := by
  have listed : ∀ held, (ofList entries).get? key = some held → (key, held) ∈ entries := by
    intro held found
    rcases entry_of_foldl_insert found with member | absent
    · exact member
    · cases absent
  constructor
  · exact listed value
  · intro member
    have there : key ∈ entries.map (·.1) := List.mem_map_of_mem member
    rcases Option.ne_none_iff_exists'.mp (foldl_insert_ne_none (Or.inl there)) with ⟨held, found⟩
    rw [functional key value held member (listed held found)]
    exact found

theorem insert_comm (map : SortedMap κ β) {key other : κ} (value held : β)
    (different : key ≠ other) :
    (map.insert key value).insert other held = (map.insert other held).insert key value := by
  classical
  apply ext_get?
  intro target
  by_cases here : target = key
  · subst here
    simp [get?_insert, different]
  · simp [get?_insert, here]

theorem erase_insert_comm (map : SortedMap κ β) {key other : κ} (held : β)
    (different : key ≠ other) :
    (map.insert other held).erase key = (map.erase key).insert other held := by
  classical
  apply ext_get?
  intro target
  by_cases here : target = key
  · subst here
    simp [get?_insert, get?_erase, different]
  · simp [get?_insert, get?_erase, here]

theorem get?_eq_find? [DecidableEq κ] (map : SortedMap κ β) (key : κ) :
    map.get? key = (map.entries.find? fun entry => decide (entry.1 = key)).map (·.2) := by
  cases found : map.entries.find? fun entry => decide (entry.1 = key) with
  | some entry =>
      have named : entry.1 = key := by simpa using List.find?_some found
      rw [Option.map_some, get?_iff, ← named]
      exact List.mem_of_find?_eq_some found
  | none =>
      rw [Option.map_none, Option.eq_none_iff_forall_not_mem]
      intro value held
      have member := (get?_iff map key value).mp held
      have missed := List.find?_eq_none.mp found _ member
      simp at missed

end Corpora.SortedMap
