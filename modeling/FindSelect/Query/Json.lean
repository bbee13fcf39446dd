import FindSelect.Query.Basic
import FindSelect.Value

/-!
# Queries as JSON

The JSON form of a query and of its parts. Fields with conditions become an array of objects, a
group becomes an object with the keys `AND` and `OR`, and a part that is not given has no key. The
text is `Value.json` of that form.

`Query.toValue` models how a `ParsedQuery` is serialized.
-/

namespace FindSelect

/-- The JSON form of a scalar. -/
def Scalar.toValue : Scalar → Value
  | null => .null
  | bool b => .bool b
  | number n => .number n
  | string s => .string s

/-- The JSON form of an operand: a scalar, or an array of scalars. -/
def Operand.toValue : Operand → Value
  | one s => s.toValue
  | many ss => .array (ss.map Scalar.toValue)

/-- The JSON form of a condition: an array with an object for each comparison. -/
def Condition.toValue (c : Condition) : Value :=
  .array (c.comparisons.map fun (op, operand) =>
    .object [("op", .string op.name), ("value", operand.toValue)])

/-- The JSON form of a field with its condition. -/
def FieldFilter.toValue (f : FieldFilter) : Value :=
  .object [("field", .string f.field), ("condition", f.condition.toValue)]

mutual
/-- The JSON form of a filter. -/
def Filter.toValue : Filter → Value
  | .fields entries => .array (entries.map FieldFilter.toValue)
  | .group conj disj =>
    .object (Filter.memberValue "AND" conj ++ Filter.memberValue "OR" disj)

/-- The member of a group's object for one of its lists, if the list is given. -/
def Filter.memberValue (key : String) : Option (List Filter) → List (String × Value)
  | none => []
  | some filters => [(key, .array (Filter.listValues filters))]

/-- The JSON forms of the filters of a list. -/
def Filter.listValues : List Filter → List Value
  | [] => []
  | f :: rest => Filter.toValue f :: Filter.listValues rest
end

/-- The JSON form of a query. -/
def Query.toValue (q : Query) : Value :=
  .object ([("collection", .string q.collection), ("method", .string q.method.name),
    ("filter", q.filter.toValue)] ++
    match q.projection with
    | none => []
    | some names => [("projection", .array (names.map .string))])

end FindSelect
