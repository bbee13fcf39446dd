import FindSelect.Toml.Document
import FindSelect.Translator

/-!
# Settings

The settings of a translator name its two dialects. They can be read from a TOML text, in which a
setting that is not given keeps its default and a key that is no setting is ignored.

`Settings` models `TranslatorConfig`, and `ofToml` models `from_toml_str`. Which texts are refused
is part of the model, but not the wording: the messages of `ofToml` are those of this library and
not those of a TOML parser.
-/

namespace FindSelect

/-- The names of the dialects to translate between. -/
structure Settings where
  /-- The dialect that is read. -/
  source : String := "mongo"
  /-- The dialect that is written. -/
  target : String := "sql"
deriving DecidableEq, Repr

namespace Settings

/-- The string that a table has at a key, or the default if it does not have the key. -/
def string (t : Toml.Table) (key default : String) : Except Error String :=
  match Entries.get? key t with
  | none => .ok default
  | some (.value (.string s)) => .ok s
  | some _ => .error (.settings s!"{key} is not a string")

/-- The settings that a TOML text writes. -/
def ofToml (text : String) : Except Error Settings :=
  match Toml.read text with
  | none => .error (.settings "not a TOML document")
  | some t => do
    let defaults : Settings := {}
    return ⟨← string t "source" defaults.source, ← string t "target" defaults.target⟩

/-- The translator between the dialects of a registry that the settings name. -/
def translator (r : Registry) (s : Settings) : Except Error Translator :=
  Translator.between r s.source s.target

end Settings

end FindSelect
