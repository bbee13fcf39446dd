import FindSelect.Query.Basic
import FindSelect.Sql.Predicate

/-!
# Queries as SQL statements

A query that finds documents becomes a `SELECT` statement. The other methods are not supported.

`render` models `render` of `SqlDialect`, and `columns` models `build_select_clause`.
-/

namespace FindSelect.Sql

/-- The columns of a statement: the wanted fields, or `*` for all. -/
def columns : Option (List String) → Except Error String
  | none | some [] => return "*"
  | some names => do
    names.forM checkName
    return ", ".intercalate names

/-- The statement for a query. -/
def render (q : Query) : Except Error String := do
  if q.method ≠ .find then
    .error (.unsupportedMethod displayName q.method.name)
  checkName q.collection
  let columns ← columns q.projection
  let condition ← predicate q.filter
  if condition = "" then
    return "SELECT " ++ columns ++ " FROM " ++ q.collection ++ ";"
  else
    return "SELECT " ++ columns ++ " FROM " ++ q.collection ++ " WHERE " ++ condition ++ ";"

end FindSelect.Sql
