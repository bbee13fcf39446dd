import FindSelect.Query.Condition
import FindSelect.Text.LetterCase

/-!
# Operators in SQL

How SQL writes the operators of a filter. SQL does not distinguish upper and lower case.

`token` and `operator?` model `operator_token` and `operator_from_token` of `SqlDialect`.
-/

namespace FindSelect.Sql

/-- The name of SQL in messages. -/
def displayName : String := "SQL"

/-- How SQL writes an operator. -/
def token : Operator → String
  | .eq => "="
  | .ne => "!="
  | .gt => ">"
  | .gte => ">="
  | .lt => "<"
  | .lte => "<="
  | .member => "IN"
  | .and => "AND"
  | .or => "OR"

/-- The operator that SQL writes in this way, in upper or lower case. -/
def operator? (text : String) : Option Operator :=
  Operator.all.find? fun op => Text.sameIgnoringCase (token op) text

/-- Every operator is read from how it is written. -/
theorem operator?_token (op : Operator) : operator? (token op) = some op := by
  cases op <;> decide

end FindSelect.Sql
