import FindSelect.Registry

/-!
# Translators

A translator reads a query in one dialect and writes it in another.

`Translator` models `QueryTranslator`. `between` models its `from_config`, given the two names, and
`describe` is how it is shown.
-/

namespace FindSelect

/-- A pair of dialects to translate between. -/
structure Translator where
  /-- The dialect that is read. -/
  source : Dialect
  /-- The dialect that is written. -/
  target : Dialect

namespace Translator

/-- The translator from the MongoDB shell to SQL. -/
def mongoToSql : Translator :=
  ⟨.mongo, .sql⟩

/-- The translator between two dialects of a registry, the source being looked up first. -/
def between (r : Registry) (source target : String) : Except Error Translator :=
  return ⟨← r.find source, ← r.find target⟩

/-- Reads a text in the source dialect. -/
def parse (t : Translator) (text : String) : Except Error Query :=
  t.source.parse text

/-- Translates a text of the source dialect into one of the target dialect. -/
def translate (t : Translator) (text : String) : Except Error String := do
  t.target.render (← t.parse text)

/-- A line that names the two dialects. -/
def describe (t : Translator) : String :=
  "QueryTranslator \x7b source: \"" ++ t.source.name ++ "\", target: \"" ++ t.target.name ++
    "\" \x7d"

end Translator

end FindSelect
