import FindSelect.Query.Filter

/-!
# Queries

A query is what all dialects share: a collection, what to do with it, which of its documents are
meant, and which of their fields are wanted.

`Query` models `ParsedQuery`, and a list of wanted fields models `Projection`.
-/

namespace FindSelect

/-- What a query does with the documents that it selects. -/
inductive Method where
  /-- Return them. -/
  | find
  /-- Change them. -/
  | update
  /-- Add to them. -/
  | insert
  /-- Remove them. -/
  | delete
deriving DecidableEq, Repr

/-- The name of a method that belongs to no dialect. -/
def Method.name : Method → String
  | find => "FIND"
  | update => "UPDATE"
  | insert => "INSERT"
  | delete => "DELETE"

/-- A query in the form that all dialects share. -/
structure Query where
  /-- The collection of documents. -/
  collection : String
  /-- What the query does. -/
  method : Method
  /-- The documents that it is about. -/
  filter : Filter
  /-- The fields that are wanted, or none if all are. -/
  projection : Option (List String)
deriving DecidableEq

end FindSelect
