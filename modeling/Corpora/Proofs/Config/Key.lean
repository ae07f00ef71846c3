import Corpora.Config.Key
import Mathlib.Data.List.Nodup
import Mathlib.Data.Option.Basic

/-!
Keys of settings. A key reads what was written under it and nothing that was written under another
one, settings are what their keys show, and every key has a text of its own.
-/

namespace Corpora

def SettingKind.Takes : SettingKind → SettingValue → Prop
  | .text, .text _ => True
  | .number bound, .number value => value ≤ bound
  | .texts, .texts _ => True
  | _, _ => False

theorem SettingKind.takes_parsed {kind : SettingKind} {text : String} {value : SettingValue}
    (parsed : kind.parse? text = some value) : kind.Takes value := by
  cases kind with
  | text =>
      cases parsed
      trivial
  | number bound =>
      obtain ⟨n, read, rfl⟩ := Option.map_eq_some_iff.mp parsed
      have within : n ≤ bound := of_decide_eq_true (Option.filter_eq_some_iff.mp read).2
      exact within
  | texts =>
      cases parsed
      trivial

namespace SettingsKey

theorem get?_set_self {key : SettingsKey} {value : SettingValue} (takes : key.kind.Takes value)
    (settings : Settings) : key.get? (key.set settings value) = some value := by
  cases key <;> cases value <;> first | rfl | exact takes.elim

theorem get?_set_other {key other : SettingsKey} (apart : other ≠ key) (settings : Settings)
    (value : SettingValue) : other.get? (key.set settings value) = other.get? settings := by
  cases key <;> cases value <;> cases other <;> first | rfl | exact absurd rfl apart

theorem mem_all (key : SettingsKey) : key ∈ all := by cases key <;> decide

theorem ext_get? {one other : Settings}
    (same : ∀ key : SettingsKey, key.get? one = key.get? other) : one = other := by
  have texts : Function.Injective (Option.map SettingValue.text) :=
    Option.map_injective fun _ _ => SettingValue.text.inj
  have numbers : Function.Injective (Option.map SettingValue.number) :=
    Option.map_injective fun _ _ => SettingValue.number.inj
  have each : ∀ key ∈ all, key.get? one = key.get? other := fun key _ => same key
  simp only [all, List.forall_mem_cons, List.not_mem_nil, false_implies, implies_true, and_true,
    get?, Option.some.injEq, SettingValue.text.injEq, SettingValue.number.injEq,
    SettingValue.texts.injEq, texts.eq_iff, numbers.eq_iff] at each
  obtain ⟨⟨_, _, _⟩, ⟨_, _, _⟩, ⟨_, _, _, _⟩, ⟨_, _, _⟩, ⟨_, _, _, _, _, _, _⟩, ⟨_, _, _, _⟩,
    ⟨_⟩⟩ := one
  obtain ⟨⟨_, _, _⟩, ⟨_, _, _⟩, ⟨_, _, _, _⟩, ⟨_, _, _⟩, ⟨_, _, _, _, _, _, _⟩, ⟨_, _, _, _⟩,
    ⟨_⟩⟩ := other
  simp_all only

theorem path_injective {key other : SettingsKey} (same : key.path = other.path) : key = other := by
  have nodup : (all.map path).Nodup := by decide +kernel
  exact List.inj_on_of_nodup_map nodup (mem_all key) (mem_all other) same

theorem find?_eq_some {section_ : SettingsSection} {field : String} {key : SettingsKey} :
    find? section_ field = some key ↔ key.path = (section_, field) := by
  have named : ∀ other, find? section_ field = some other → other.path = (section_, field) := by
    intro other found
    have tested := @List.find?_some _ (fun other : SettingsKey => other.path == (section_, field))
      other all found
    exact beq_iff_eq.mp tested
  refine ⟨named key, fun path => ?_⟩
  cases found : find? section_ field with
  | none =>
      have untested := List.find?_eq_none.mp found key (mem_all key)
      exact absurd (beq_iff_eq.mpr path) untested
  | some other => rw [path_injective ((named other found).trans path.symm)]

end SettingsKey

theorem SettingsSection.mem_all (section_ : SettingsSection) : section_ ∈ all := by
  cases section_ <;> decide

/-- What the name of a section starts with, no other one does. -/
theorem SettingsSection.eq_of_prefix {one other : SettingsSection}
    (starts : one.name.toList ++ ['_'] <+: other.name.toList ++ ['_']) : one = other := by
  revert starts
  cases one <;> cases other <;> decide

end Corpora
