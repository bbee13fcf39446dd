import FindSelect.Dialect
import FindSelect.Text.Trim

/-!
# Registries of dialects

A registry holds dialects in the order of their registration. A dialect that is registered under the
name of another one takes its place away and comes last. `find` looks a name up without regard to
blanks around it and to letter case; the first dialect that fits is the answer.

`Registry` models `DialectRegistry`, whose `get` and `dialect_names` are `find` and `names`, and
`Builder` models `DialectRegistryBuilder`.
-/

namespace FindSelect

/-- The known dialects, in the order of their registration. -/
structure Registry where
  /-- The dialects. -/
  dialects : List Dialect

namespace Registry

/-- The registry without dialects. -/
def empty : Registry :=
  ⟨[]⟩

/-- Adds a dialect, instead of those with its name. -/
def register (r : Registry) (d : Dialect) : Registry :=
  ⟨r.dialects.filter (fun other => other.name != d.name) ++ [d]⟩

/-- The registry after registering each dialect in turn. -/
def ofList (dialects : List Dialect) : Registry :=
  dialects.foldl register empty

/-- Dialects that are collected before a registry is made of them. -/
structure Builder where
  /-- The dialects, in the order in which they were added. -/
  dialects : List Dialect

namespace Builder

/-- The builder without dialects. -/
def empty : Builder :=
  ⟨[]⟩

/-- Adds a dialect. One with the same name stays until the registry is made. -/
def withDialect (b : Builder) (d : Dialect) : Builder :=
  ⟨b.dialects ++ [d]⟩

/-- The registry after registering the collected dialects in turn. -/
def build (b : Builder) : Registry :=
  ofList b.dialects

end Builder

/-- The registry of the dialects of this library. -/
def builtin : Registry :=
  ((Builder.empty.withDialect .mongo).withDialect .sql).build

/-- The names of the dialects, in order. -/
def names (r : Registry) : List String :=
  r.dialects.map Dialect.name

/-- The first dialect with a name, up to blanks around it and letter case. -/
def find? (r : Registry) (name : String) : Option Dialect :=
  let wanted := String.ofList (Text.trim name.toList)
  r.dialects.find? fun d => Text.sameIgnoringCase d.name wanted

/-- The first dialect with a name, or an error that lists the known names. -/
def find (r : Registry) (name : String) : Except Error Dialect :=
  match r.find? name with
  | some d => .ok d
  | none => .error (.unknownDialect name r.names)

/-- A registered dialect comes last, and no other one has its name. -/
theorem names_register (r : Registry) (d : Dialect) :
    (r.register d).names = r.names.filter (· != d.name) ++ [d.name] := by
  simp [register, names, List.filter_map, Function.comp_def]

end Registry

end FindSelect
