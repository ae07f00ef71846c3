import Corpora.Config.Key

/-!
Settings from environment variables. A variable `RAGX_<SECTION>_<FIELD>` sets one field; the last
one that is well formed counts. Five plain variables are applied before them, the first occurrence
of each. What is malformed or unknown changes nothing and is told as a warning.
-/

namespace Corpora.Overlay

structure Variable where
  name : String
  value : String
  deriving Repr, DecidableEq

structure Warning where
  variableName : String
  reason : String
  deriving Repr, DecidableEq

def nameStart : String := "RAGX_"

/-- The plain variables and the keys that they set, in the order in which they are applied. -/
def plainVariables : List (String × SettingsKey) :=
  [("POSTGRES_URL", .databaseUrl), ("KAGENT_API_URL", .indexApiUrl), ("EMBEDDING_MODEL", .model),
    ("REFRESH_INTERVAL", .intervalSecs), ("DEFAULT_TOP_K", .defaultTopK)]

def malformed (field value : String) : String :=
  "invalid number for " ++ field ++ ": '" ++ value ++ "'"

def assign (settings : Settings) (key : SettingsKey) (text : String) : Except String Settings :=
  match key.kind.parse? text with
  | some value => .ok (key.set settings value)
  | none => .error (malformed key.path.2 text)

/-- The section and the field that the rest of a name speaks of, in small letters: the first
section that the rest starts with. -/
def target? (rest : String) : Option (SettingsSection × String) :=
  SettingsSection.all.findSome? fun section_ =>
    (Text.stripStart? (section_.name.toList ++ ['_']) rest.toList).map
      fun field => (section_, String.ofList field)

def assignNamed (settings : Settings) (rest text : String) : Except String Settings :=
  match target? rest with
  | none => .error ("expected format " ++ nameStart ++ "<SECTION>_<FIELD>")
  | some (section_, field) =>
      match SettingsKey.find? section_ field with
      | some key => assign settings key text
      | none => .error ("unknown key " ++ section_.name ++ "." ++ field)

/-- Settings on the way through the variables, with the warnings so far in reverse order. -/
structure Progress where
  settings : Settings
  warnings : List Warning

def Progress.after (progress : Progress) (variableName : String) :
    Except String Settings → Progress
  | .ok settings => { progress with settings := settings }
  | .error reason => { progress with warnings := ⟨variableName, reason⟩ :: progress.warnings }

def applyPlain (environment : List Variable) (progress : Progress) (plain : String × SettingsKey) :
    Progress :=
  match environment.find? fun variable_ => variable_.name == plain.1 with
  | some found => progress.after plain.1 (assign progress.settings plain.2 found.value)
  | none => progress

def applyNamed (progress : Progress) (variable_ : Variable) : Progress :=
  match Text.stripStart? nameStart.toList variable_.name.toList with
  | some rest =>
      progress.after variable_.name
        (assignNamed progress.settings (Text.lower (String.ofList rest)) variable_.value)
  | none => progress

def apply (settings : Settings) (environment : List Variable) : Settings × List Warning :=
  let plain := plainVariables.foldl (applyPlain environment) ⟨settings, []⟩
  let all := environment.foldl applyNamed plain
  (all.settings, all.warnings.reverse)

end Corpora.Overlay
