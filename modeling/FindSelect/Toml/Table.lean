import FindSelect.Entries

/-!
# Tables in TOML

A table is built up by the lines of a text. Each key is given once: a value cannot be given again or
extended, a table has one header, and a table that dotted keys have made can only be extended by
dotted keys. `Table.assign` is the effect of a line `a.b = value`; `Table.openTable` and
`Table.openElement` are those of a header with the lines below it.
-/

namespace FindSelect.Toml

/-- A value. Only strings are kept; of any other value it is enough that it is well formed. -/
inductive Value where
  /-- A string. -/
  | string (text : String)
  /-- A number, a truth value, a date or time, an array or an inline table. -/
  | other
deriving DecidableEq, Repr

/-- How a table has come about. -/
inductive Origin where
  /-- By a header of its own. -/
  | header
  /-- As a table around another one in that one's header. -/
  | implied
  /-- As a table around a value in a dotted key. -/
  | dotted
deriving DecidableEq, Repr

/-- What a key has. -/
inductive Item where
  /-- A value. -/
  | value (v : Value)
  /-- A table. -/
  | table (origin : Origin) (entries : List (String × Item))
  /-- An array of tables, the last one first. -/
  | tables (elements : List (List (String × Item)))

/-- A table: its keys and what they have. -/
abbrev Table := List (String × Item)

namespace Table

/-- Gives a value to a dotted key, whose last part is `key`. The tables on the way are made if they
are not there. They must not have headers, and the last one must be made by dotted keys. -/
def assign (key : String) (v : Value) : List String → Table → Option Table
  | [], t =>
    match Entries.get? key t with
    | none => some (Entries.put key (.value v) t)
    | some _ => none
  | k :: path, t =>
    match Entries.get? k t with
    | none => do
      let inner ← assign key v path []
      return Entries.put k (.table .dotted inner) t
    | some (.table .dotted entries) => do
      let inner ← assign key v path entries
      return Entries.put k (.table .dotted inner) t
    | some (.table .implied entries) => do
      guard !path.isEmpty
      let inner ← assign key v path entries
      return Entries.put k (.table .implied inner) t
    | some (.tables (last :: earlier)) => do
      guard !path.isEmpty
      let inner ← assign key v path last
      return Entries.put k (.tables (inner :: earlier)) t
    | some _ => none

/-- Gives values to dotted keys, one after another. -/
def assignAll (t : Table) (lines : List (List String × String × Value)) : Option Table :=
  lines.foldlM (fun t (path, key, v) => assign key v path t) t

/-- Changes the table at the end of a path. In an array of tables the path goes on in the last
one. -/
def within (change : Table → Option Table) : List String → Table → Option Table
  | [], t => change t
  | k :: path, t =>
    match Entries.get? k t with
    | none => do
      let inner ← within change path []
      return Entries.put k (.table .implied inner) t
    | some (.table origin entries) => do
      let inner ← within change path entries
      return Entries.put k (.table origin inner) t
    | some (.tables (last :: earlier)) => do
      let inner ← within change path last
      return Entries.put k (.tables (inner :: earlier)) t
    | some _ => none

/-- The effect of a header `[path.key]` with the lines below it. The table must be new, or so far
only implied by other headers. -/
def openTable (path : List String) (key : String) (lines : List (List String × String × Value)) :
    Table → Option Table :=
  within (fun t => do
    let start ← match Entries.get? key t with
      | none => some []
      | some (.table .implied entries) => some entries
      | some _ => none
    return Entries.put key (.table .header (← assignAll start lines)) t) path

/-- The effect of a header `[[path.key]]` with the lines below it: one more table in the array. -/
def openElement (path : List String) (key : String)
    (lines : List (List String × String × Value)) : Table → Option Table :=
  within (fun t => do
    let earlier ← match Entries.get? key t with
      | none => some []
      | some (.tables elements) => some elements
      | some _ => none
    return Entries.put key (.tables ((← assignAll [] lines) :: earlier)) t) path

end Table

end FindSelect.Toml
