import FindSelect.Error
import FindSelect.Query.Basic
import FindSelect.Text.LetterCase

/-!
# Operators and methods in the shell

How the MongoDB shell writes the operators of a filter, and which methods it knows. Equality is
written by writing the value alone, so its operator is the empty text.

`token`, `operator?` and `method` model `operator_token`, `operator_from_token` and `map_method` of
`MongoDialect`.
-/

namespace FindSelect.Shell

/-- The name of the shell's dialect in messages. -/
def displayName : String := "MongoDB"

/-- How the shell writes an operator. -/
def token : Operator → String
  | .eq => ""
  | .ne => "$ne"
  | .gt => "$gt"
  | .gte => "$gte"
  | .lt => "$lt"
  | .lte => "$lte"
  | .member => "$in"
  | .and => "$and"
  | .or => "$or"

/-- The operator that the shell writes in this way. -/
def operator? (text : String) : Option Operator :=
  Operator.all.find? fun op => token op == text

/-- The method that a word stands for, in upper or lower case. -/
def method (word : String) : Except Error Method :=
  if Text.sameIgnoringCase word "find" then .ok .find
  else .error (.unsupportedMethod displayName word)

/-- Every operator is read from how it is written. -/
theorem operator?_token (op : Operator) : operator? (token op) = some op := by
  cases op <;> decide

/-- Only what an operator writes is read as that operator. -/
theorem token_of_operator? {text : String} {op : Operator} (h : operator? text = some op) :
    token op = text := by
  simpa using List.find?_some h

end FindSelect.Shell
