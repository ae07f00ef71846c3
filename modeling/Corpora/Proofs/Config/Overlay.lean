import Corpora.Config.Overlay
import Corpora.Proofs.Config.Key
import Corpora.Proofs.Order.Overwriting

/-!
What the variables leave in the settings, told key by key. Both rounds are folds whose steps put
what they offer to a key in the place of what was there: the last offer of a named variable stands
before the offer of the plain one, and that before the value at the start.
-/

namespace Corpora

def SettingsKey.text (key : SettingsKey) : String := key.path.1.name ++ "_" ++ key.path.2

namespace Overlay

-- The sections are tried in turn, but no two of them can start one name: none is the start of another
-- with the underscore behind it.
theorem target?_eq_some {rest : String} {section_ : SettingsSection} {field : String} :
    target? rest = some (section_, field) ↔ rest = section_.name ++ "_" ++ field := by
  have read : ∀ section_ field, target? rest = some (section_, field) →
      rest.toList = section_.name.toList ++ ['_'] ++ field.toList := by
    intro section_ field found
    obtain ⟨other, -, starts⟩ := List.exists_of_findSome?_eq_some found
    obtain ⟨behind, stripped, same⟩ := Option.map_eq_some_iff.mp starts
    cases same
    rw [String.toList_ofList, Text.stripStart?_eq_some.mp stripped]
  have chars : rest = section_.name ++ "_" ++ field ↔
      rest.toList = section_.name.toList ++ ['_'] ++ field.toList := by
    rw [← String.toList_inj, String.toList_append, String.toList_append]
    rfl
  rw [chars]
  refine ⟨read section_ field, fun whole => ?_⟩
  have stripped := Text.stripStart?_eq_some.mpr whole
  cases found : target? rest with
  | none =>
      have missing := List.findSome?_eq_none_iff.mp found section_ section_.mem_all
      rw [stripped] at missing
      cases missing
  | some target =>
      have other := read target.1 target.2 found
      have sections : target.1 = section_ := by
        have first : target.1.name.toList ++ ['_'] <+: rest.toList := ⟨_, other.symm⟩
        have second : section_.name.toList ++ ['_'] <+: rest.toList := ⟨_, whole.symm⟩
        rcases List.prefix_or_prefix_of_prefix first second with shorter | longer
        · exact SettingsSection.eq_of_prefix shorter
        · exact (SettingsSection.eq_of_prefix longer).symm
      have fields : target.2 = field := by
        rw [whole, sections] at other
        exact (String.toList_inj.mp (List.append_cancel_left other)).symm
      rw [← sections, ← fields]

def keyOf? (rest : String) : Option SettingsKey :=
  (target? rest).bind fun (section_, field) => SettingsKey.find? section_ field

theorem keyOf?_eq_some {rest : String} {key : SettingsKey} :
    keyOf? rest = some key ↔ rest = key.text := by
  rw [keyOf?, Option.bind_eq_some_iff]
  constructor
  · rintro ⟨⟨section_, field⟩, target, found⟩
    rw [target?_eq_some.mp target, SettingsKey.text, SettingsKey.find?_eq_some.mp found]
  · rintro rfl
    exact ⟨key.path, target?_eq_some.mpr rfl, SettingsKey.find?_eq_some.mpr rfl⟩

theorem assignNamed_toOption (settings : Settings) (rest text : String) :
    (assignNamed settings rest text).toOption =
      (keyOf? rest).bind fun key => (assign settings key text).toOption := by
  rw [assignNamed, keyOf?]
  cases target? rest with
  | none => rfl
  | some target =>
      dsimp only [Option.bind_some]
      cases SettingsKey.find? target.1 target.2 <;> rfl

theorem get?_assign (settings : Settings) (named key : SettingsKey) (text : String) :
    key.get? ((assign settings named text).toOption.getD settings) =
      (if named = key then key.kind.parse? text else none).or (key.get? settings) := by
  rw [assign]
  cases parsed : named.kind.parse? text with
  | none =>
      by_cases same : named = key
      · subst same
        rw [if_pos rfl, parsed]
        rfl
      · rw [if_neg same]
        rfl
  | some value =>
      by_cases same : named = key
      · subst same
        rw [if_pos rfl, parsed]
        exact SettingsKey.get?_set_self (SettingKind.takes_parsed parsed) settings
      · rw [if_neg same]
        exact SettingsKey.get?_set_other (Ne.symm same) settings value

theorem Progress.settings_after (progress : Progress) (variableName : String)
    (outcome : Except String Settings) :
    (progress.after variableName outcome).settings = outcome.toOption.getD progress.settings := by
  cases outcome <;> rfl

namespace Variable

/-- A variable names a key: behind the start of its name stands the text of the key, in letters of
either case. -/
def Names (variable_ : Variable) (key : SettingsKey) : Prop :=
  ∃ rest, variable_.name = nameStart ++ rest ∧ Text.lower rest = key.text

theorem names_iff {variable_ : Variable} {key : SettingsKey} :
    variable_.Names key ↔ ((Text.stripStart? nameStart.toList variable_.name.toList).bind
      fun rest => keyOf? (Text.lower (String.ofList rest))) = some key := by
  rw [Option.bind_eq_some_iff]
  constructor
  · rintro ⟨rest, whole, lowered⟩
    refine ⟨rest.toList, Text.stripStart?_eq_some.mpr ?_, ?_⟩
    · rw [whole, String.toList_append]
    · rw [String.ofList_toList, lowered, keyOf?_eq_some]
  · rintro ⟨rest, stripped, found⟩
    refine ⟨String.ofList rest, ?_, keyOf?_eq_some.mp found⟩
    rw [← String.toList_inj, String.toList_append, String.toList_ofList]
    exact Text.stripStart?_eq_some.mp stripped

instance (variable_ : Variable) (key : SettingsKey) : Decidable (variable_.Names key) :=
  decidable_of_iff _ names_iff.symm

def offer? (key : SettingsKey) (variable_ : Variable) : Option SettingValue :=
  if variable_.Names key then key.kind.parse? variable_.value else none

theorem names_of_offer? {key : SettingsKey} {variable_ : Variable} {value : SettingValue}
    (offered : variable_.offer? key = some value) : variable_.Names key := by
  by_contra unnamed
  rw [offer?, if_neg unnamed] at offered
  cases offered

end Variable

theorem get?_applyNamed (key : SettingsKey) (progress : Progress) (variable_ : Variable) :
    key.get? (applyNamed progress variable_).settings =
      (variable_.offer? key).or (key.get? progress.settings) := by
  rw [applyNamed, Variable.offer?]
  have names := @Variable.names_iff variable_ key
  cases stripped : Text.stripStart? nameStart.toList variable_.name.toList with
  | none =>
      rw [stripped] at names
      rw [if_neg (by rw [names]; exact nofun)]
      rfl
  | some rest =>
      rw [stripped, Option.bind_some] at names
      rw [Progress.settings_after, assignNamed_toOption]
      cases found : keyOf? (Text.lower (String.ofList rest)) with
      | none =>
          rw [found] at names
          rw [if_neg (by rw [names]; exact nofun)]
          rfl
      | some named =>
          rw [found, Option.some.injEq] at names
          rw [Option.bind_some, get?_assign]
          congr 1
          exact if_congr names.symm rfl rfl

/-- What the first occurrence of a plain variable offers to its key. -/
def plainOffer? (environment : List Variable) (key : SettingsKey) (name : String) :
    Option SettingValue :=
  (environment.find? fun variable_ => variable_.name == name).bind fun first =>
    key.kind.parse? first.value

def plainValue? (environment : List Variable) (key : SettingsKey) : Option SettingValue :=
  (plainVariables.find? fun plain => plain.2 == key).bind fun plain =>
    plainOffer? environment key plain.1

theorem get?_applyPlain (environment : List Variable) (key : SettingsKey) (progress : Progress)
    (plain : String × SettingsKey) :
    key.get? (applyPlain environment progress plain).settings =
      (if plain.2 = key then plainOffer? environment key plain.1 else none).or
        (key.get? progress.settings) := by
  rw [applyPlain, plainOffer?]
  cases environment.find? fun variable_ => variable_.name == plain.1 with
  | none =>
      rw [Option.bind_none, ite_self]
      rfl
  | some first =>
      dsimp only [Option.bind_some]
      rw [Progress.settings_after, get?_assign]

/-- A key has the value of the last variable that names it and is well formed, or else that of its
plain variable, or else the value that it started with. -/
theorem get?_apply (settings : Settings) (environment : List Variable) (key : SettingsKey) :
    key.get? (apply settings environment).1 =
      (environment.filterMap (Variable.offer? key)).getLast?.or
        ((plainValue? environment key).or (key.get? settings)) := by
  have distinct : (plainVariables.map Prod.snd).Nodup := by decide
  have plain := held_foldl_last (fun progress : Progress => key.get? progress.settings)
    (get?_applyPlain environment key) plainVariables ⟨settings, []⟩
  have named := held_foldl_last (fun progress : Progress => key.get? progress.settings)
    (get?_applyNamed key) environment (plainVariables.foldl (applyPlain environment) ⟨settings, []⟩)
  rw [getLast?_of_distinct distinct] at plain
  rw [plain] at named
  exact named

/-- A variable that no key takes a value from: it is unknown, or it is malformed for its key. -/
structure Variable.Idle (variable_ : Variable) : Prop where
  named : ∀ key, variable_.offer? key = none
  plain : ∀ key, (variable_.name, key) ∈ plainVariables → key.kind.parse? variable_.value = none

-- A plain variable counts where it stands first, so leaving one out shows the next of its name.
theorem plainOffer?_without {variable_ : Variable} {before behind : List Variable} {name : String}
    {key : SettingsKey} (idle : variable_.name = name → key.kind.parse? variable_.value = none)
    (alone : variable_.name = name → ∀ other ∈ behind, other.name ≠ name) :
    plainOffer? (before ++ variable_ :: behind) key name =
      plainOffer? (before ++ behind) key name := by
  rw [plainOffer?, plainOffer?, List.find?_append, List.find?_append]
  cases before.find? fun variable_ => variable_.name == name with
  | some first => rfl
  | none =>
      by_cases same : variable_.name = name
      · have none : behind.find? (fun variable_ => variable_.name == name) = none := by
          refine List.find?_eq_none.mpr fun other member => ?_
          simpa using alone same other member
        rw [List.find?_cons_of_pos (by simpa using same), none]
        exact idle same
      · rw [List.find?_cons_of_neg (by simpa using same)]

theorem mem_plainVariables {key : SettingsKey} {plain : String × SettingsKey}
    (found : (plainVariables.find? fun plain => plain.2 == key) = some plain) :
    (plain.1, key) ∈ plainVariables := by
  have named : plain.2 = key := by simpa using List.find?_some found
  exact named ▸ List.mem_of_find?_eq_some found

theorem apply_without {variable_ : Variable} (idle : variable_.Idle)
    {before behind : List Variable}
    (alone : ∀ key, (variable_.name, key) ∈ plainVariables →
      ∀ other ∈ behind, other.name ≠ variable_.name) (settings : Settings) :
    (apply settings (before ++ variable_ :: behind)).1 = (apply settings (before ++ behind)).1 := by
  refine SettingsKey.ext_get? fun key => ?_
  have plain : plainValue? (before ++ variable_ :: behind) key =
      plainValue? (before ++ behind) key := by
    rw [plainValue?, plainValue?]
    cases found : plainVariables.find? fun plain => plain.2 == key with
    | none => rfl
    | some entry =>
        have member := mem_plainVariables found
        refine plainOffer?_without (fun same => idle.plain key (same ▸ member)) fun same => ?_
        rw [← same] at member ⊢
        exact alone key member
  rw [get?_apply, get?_apply, plain, List.filterMap_append, List.filterMap_append,
    List.filterMap_cons_none (idle.named key)]

/-- A variable targets a key: it names the key, or it is the plain variable for it. -/
def Variable.Targets (variable_ : Variable) (key : SettingsKey) : Prop :=
  variable_.Names key ∨ (variable_.name, key) ∈ plainVariables

instance (variable_ : Variable) (key : SettingsKey) : Decidable (variable_.Targets key) :=
  inferInstanceAs (Decidable (_ ∨ _))

def Apart (environment : List Variable) : Prop :=
  environment.Pairwise fun one other => ∀ key, one.Targets key → ¬other.Targets key

theorem eq_of_perm_of_single {α : Type} {one other : List α} (same : one.Perm other)
    (single : one.Pairwise fun _ _ => False) : one = other := by
  cases one with
  | nil => exact same.nil_eq
  | cons first rest =>
      cases rest with
      | nil => exact (List.perm_singleton.mp same.symm).symm
      | cons second rest => exact ((List.pairwise_cons.mp single).1 second List.mem_cons_self).elim

theorem filterMap_offer?_of_perm {environment order : List Variable}
    (same : environment.Perm order) (apart : Apart environment) (key : SettingsKey) :
    environment.filterMap (Variable.offer? key) = order.filterMap (Variable.offer? key) := by
  refine eq_of_perm_of_single (same.filterMap _) (List.pairwise_filterMap.mpr ?_)
  exact apart.imp fun separate _ one _ other =>
    separate key (Or.inl (Variable.names_of_offer? one)) (Or.inl (Variable.names_of_offer? other))

theorem plainValue?_of_perm {environment order : List Variable} (same : environment.Perm order)
    (apart : Apart environment) (key : SettingsKey) :
    plainValue? environment key = plainValue? order key := by
  rw [plainValue?, plainValue?]
  cases found : plainVariables.find? fun plain => plain.2 == key with
  | none => rfl
  | some entry =>
      have targets : ∀ {variable_ : Variable}, (variable_.name == entry.1) = true →
          variable_.Targets key := by
        intro variable_ called
        exact Or.inr (beq_iff_eq.mp called ▸ mem_plainVariables found)
      have filtered : environment.filter (fun variable_ => variable_.name == entry.1) =
          order.filter fun variable_ => variable_.name == entry.1 := by
        refine eq_of_perm_of_single (same.filter _) (List.pairwise_filter.mpr ?_)
        exact apart.imp fun separate one other => separate key (targets one) (targets other)
      rw [Option.bind_some, Option.bind_some, plainOffer?, plainOffer?, ← List.head?_filter,
        filtered, List.head?_filter]

theorem apply_of_perm {environment order : List Variable} (same : environment.Perm order)
    (apart : Apart environment) (settings : Settings) :
    (apply settings environment).1 = (apply settings order).1 := by
  refine SettingsKey.ext_get? fun key => ?_
  rw [get?_apply, get?_apply, filterMap_offer?_of_perm same apart, plainValue?_of_perm same apart]

end Overlay
end Corpora
