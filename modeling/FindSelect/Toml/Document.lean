import FindSelect.Toml.Value

/-!
# TOML documents

A document is a sequence of sections. The first has no header and fills the table of the whole
document; every other one has the header of a table, or of an element of an array of tables.
-/

namespace FindSelect.Toml

open Scanner

/-- A line of a document that says something. -/
inductive Statement where
  /-- A header `[path.key]`. -/
  | table (path : List String) (key : String)
  /-- A header `[[path.key]]`. -/
  | element (path : List String) (key : String)
  /-- A value for a key. -/
  | assign (assignment : Assignment)

/-- Takes the key of a header up to the closing brackets. -/
def headerRest (closing : List Char) : Scanner (List String × String) := do
  skipSpaces
  let k ← key
  skipSpaces
  expect closing
  return k

/-- Takes the next statement, if the text has not ended. -/
def statement? : Scanner (Option Statement) := do
  skipLines
  if (← get).isEmpty then return none
  let s ← if ← accept ['[', '['] then
      let (path, k) ← headerRest [']', ']']
      pure (Statement.element path k)
    else if ← accept ['['] then
      let (path, k) ← headerRest [']']
      pure (Statement.table path k)
    else Statement.assign <$> assignment skipSpaces (value maxDepth)
  lineEnd
  return some s

/-- The statements of a text. A byte order mark may stand before them. -/
def statements (text : List Char) : Option (List Statement) :=
  let all : Scanner (List Statement) := do
    let _ ← accept ['\ufeff']
    untilNone statement?
  all.run' text

/-- The assignments before the first header, and the statements from that header on. -/
def takeAssignments : List Statement → List Assignment × List Statement
  | .assign a :: rest =>
    let (assignments, others) := takeAssignments rest
    (a :: assignments, others)
  | others => ([], others)

/-- The effect of all sections from the first header on. A header is handled together with the
assignments that follow it, so that these have no effect of their own. -/
def build : List Statement → Table → Option Table
  | [], t => some t
  | .assign _ :: rest, t => build rest t
  | .table path k :: rest, t => do
    build rest (← Table.openTable path k (takeAssignments rest).1 t)
  | .element path k :: rest, t => do
    build rest (← Table.openElement path k (takeAssignments rest).1 t)

/-- The table that a text writes. -/
def read (text : String) : Option Table := do
  let all ← statements text.toList
  let (assignments, sections) := takeAssignments all
  build sections (← Table.assignAll [] assignments)

end FindSelect.Toml
