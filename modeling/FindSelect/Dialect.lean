import FindSelect.Shell.Parse
import FindSelect.Sql.Select

/-!
# Dialects

A dialect reads queries from texts, or writes them as texts, or both. What it cannot do fails with
an error that names it.

`Dialect` models `QueryDialect`, with the defaults of its functions, and `mongo` and `sql` model
`MongoDialect` and `SqlDialect`.
-/

namespace FindSelect

/-- A dialect of queries. -/
structure Dialect where
  /-- The name by which the dialect is asked for. -/
  name : String
  /-- The name of the dialect in messages. -/
  displayName : String := name
  /-- Reads a query from a text. -/
  parse : String → Except Error Query := fun _ => .error (.unimplemented displayName .parse)
  /-- Writes a query as a text. -/
  render : Query → Except Error String := fun _ => .error (.unimplemented displayName .render)

namespace Dialect

/-- A dialect that has a name and can do nothing. -/
def named (name : String) : Dialect where
  name := name

/-- The dialect of the MongoDB shell, which can be read. -/
def mongo : Dialect where
  name := "mongo"
  displayName := Shell.displayName
  parse := Shell.parse

/-- SQL, which can be written. -/
def sql : Dialect where
  name := "sql"
  displayName := Sql.displayName
  render := Sql.render

end Dialect

end FindSelect
