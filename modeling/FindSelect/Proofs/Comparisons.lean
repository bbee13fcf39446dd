import FindSelect.Query.Filter

/-!
# The comparisons of a filter

`Filter.comparisons` lists every comparison of a filter with the field that it is about, in the
order in which the filter is gone through: fields in order, the operators of a field in order, and
the conjunction of a group before its disjunction.
-/

namespace FindSelect

/-- A comparison of a field, as it stands in a filter. -/
structure Comparison where
  /-- The field. -/
  field : String
  /-- The operator. -/
  op : Operator
  /-- What the field is compared with. -/
  operand : Operand
deriving DecidableEq, Repr

/-- The comparisons of a field, in order. -/
def FieldFilter.comparisons (f : FieldFilter) : List Comparison :=
  f.condition.comparisons.map fun (op, operand) => ⟨f.field, op, operand⟩

namespace Filter

mutual
/-- The comparisons of a filter, in order. -/
def comparisons : Filter → List Comparison
  | fields entries => entries.flatMap FieldFilter.comparisons
  | group conj disj => groupComparisons conj ++ groupComparisons disj

/-- The comparisons of one list of a group. -/
def groupComparisons : Option (List Filter) → List Comparison
  | none => []
  | some filters => listComparisons filters

/-- The comparisons of the filters of a list. -/
def listComparisons : List Filter → List Comparison
  | [] => []
  | f :: rest => comparisons f ++ listComparisons rest
end

end Filter

end FindSelect
