import FindSelect.Error
import FindSelect.FieldPath
import FindSelect.Query.Filter
import FindSelect.Sql.Token

/-!
# Filters as SQL predicates

The predicate of a filter is the text after `WHERE`. A filter without conditions has the empty
predicate, and an empty predicate is left out wherever it would be part of another one. A group and
a condition of two parts or more stand in parentheses. The conditions of a list of fields do not
need them: they are joined by `AND`, which binds tighter than the `OR` that may stand around them.

`predicate` models `build_where` with `render_combinator` and `render_fields`. `groupPredicate`,
`fieldPredicate` and `comparison` model `render_group`, `render_condition` and `render_comparison`,
and `checkName`, `scalar` and `scalarList` model `check_name`, `format_scalar` and `format_list`.
-/

namespace FindSelect.Sql

/-- A string in SQL, in single quotes; a quote inside is written twice. -/
def quoted (s : String) : String :=
  let double (c : Char) : List Char := if c = '\'' then ['\'', '\''] else [c]
  String.ofList ('\'' :: s.toList.flatMap double ++ ['\''])

/-- A scalar in SQL. -/
def scalar : Scalar → String
  | .null => "NULL"
  | .bool true => "TRUE"
  | .bool false => "FALSE"
  | .number n => n.toText
  | .string s => quoted s

/-- A list of scalars in SQL. -/
def scalarList (values : List Scalar) : String :=
  "(" ++ ", ".intercalate (values.map scalar) ++ ")"

/-- Accepts a name that is a field path. -/
def checkName (name : String) : Except Error Unit :=
  if isFieldPath name then .ok () else .error (.invalidCondition name .notAFieldPath)

/-- A comparison in SQL. Null is compared by `IS` and `IS NOT`, and a single value after `IN` is a
list of one. -/
def comparison (field : String) (op : Operator) (operand : Operand) : Except Error String := do
  checkName field
  if op.isLogical then
    .error (.invalidCondition field (.logicalOperator op))
  else
    match op, operand with
    | .member, .many values => return field ++ " IN " ++ scalarList values
    | .member, .one value => return field ++ " IN " ++ scalarList [value]
    | op, .many _ => .error (.invalidCondition field (.listOperand op))
    | .eq, .one .null => return field ++ " IS NULL"
    | .ne, .one .null => return field ++ " IS NOT NULL"
    | op, .one value => return field ++ " " ++ token op ++ " " ++ scalar value

/-- Joins the predicates that are not empty. Two or more stand in parentheses. -/
def joined (op : Operator) (predicates : List String) : String :=
  match predicates.filter (· != "") with
  | [] => ""
  | [only] => only
  | several => "(" ++ (" " ++ token op ++ " ").intercalate several ++ ")"

/-- The predicate of a field with its condition. -/
def fieldPredicate (f : FieldFilter) : Except Error String := do
  let comparisons ← f.condition.comparisons.mapM fun (op, operand) => comparison f.field op operand
  return joined .and comparisons

/-- The conjunction of the predicates that are not empty, without parentheses. -/
def conjunction (predicates : List String) : String :=
  " AND ".intercalate (predicates.filter (· != ""))

mutual
/-- The predicate of a filter. -/
def predicate : Filter → Except Error String
  | .fields entries => return conjunction (← entries.mapM fieldPredicate)
  | .group conj disj => do
    let all ← groupPredicate .and conj
    let any ← groupPredicate .or disj
    return conjunction [all, any]

/-- The predicate of one list of a group. -/
def groupPredicate (op : Operator) : Option (List Filter) → Except Error String
  | none => return ""
  | some filters => return joined op (← predicates filters)

/-- The predicates of the filters of a list. -/
def predicates : List Filter → Except Error (List String)
  | [] => return []
  | f :: rest => return (← predicate f) :: (← predicates rest)
end

end FindSelect.Sql
