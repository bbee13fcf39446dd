import FindSelect.Literal.Diagnosis
import FindSelect.Literal.Depth
import FindSelect.Query.Condition
import FindSelect.Value

/-!
# Errors

Every way in which translating a query can fail, as a cause. `Error.message` is the wording of all
of them.

`Error` models `QueryError`, and `Direction` models `AdapterDirection`. Where a `QueryError` has a
text that is put together where the error is found, `FormatFault` and `ConditionFault` have the
cause, and the text is worded here.
-/

namespace FindSelect

/-- Why a text is not a query of its dialect. -/
inductive FormatFault where
  /-- The text is not a call of a method on a collection. -/
  | notACall
  /-- The call has more than two arguments. -/
  | tooManyArguments (count : Nat)
  /-- The argument at this position, counted from one, is empty. -/
  | emptyArgument (position : Nat)
  /-- An argument has more containers inside one another than are allowed. -/
  | tooDeep
  /-- An argument is not a literal. -/
  | notALiteral (diagnosis : Literal.Diagnosis)
  /-- The filter is not an object. -/
  | filterKind (found : Value.Kind)
  /-- A logical operator has something other than an array. -/
  | groupKind (token : String) (found : Value.Kind)
  /-- The array of a logical operator holds something other than objects. -/
  | groupItemKind (token : String) (found : Value.Kind)
  /-- A key of the filter is not a field path. -/
  | fieldName (name : String)
  /-- The projection is not an object. -/
  | projectionKind
  /-- A key of the projection is not a field path. -/
  | projectionField (name : String)
  /-- Any other cause, in the words of the dialect that found it. -/
  | other (message : String)
deriving DecidableEq, Repr

/-- Why a condition on a field is not possible. -/
inductive ConditionFault where
  /-- An operator that joins filters is written where a field is compared. -/
  | logicalToken (token : String)
  /-- A field is compared with a value of a kind that is no scalar. -/
  | valueKind (found : Value.Kind)
  /-- The name is not a field path. -/
  | notAFieldPath
  /-- A comparison has an operator that joins filters. -/
  | logicalOperator (op : Operator)
  /-- A comparison with a single value has a list. -/
  | listOperand (op : Operator)
  /-- Any other cause, in the words of the dialect that found it. -/
  | other (reason : String)
deriving DecidableEq, Repr

/-- What a dialect can do with a query. -/
inductive Direction where
  /-- Read it from a text. -/
  | parse
  /-- Write it as a text. -/
  | render
deriving DecidableEq, Repr

/-- Why a query cannot be translated. -/
inductive Error where
  /-- A text is not a query of its dialect. -/
  | format (fault : FormatFault)
  /-- A dialect does not know a method. -/
  | unsupportedMethod (dialect method : String)
  /-- A dialect cannot be read, or cannot be written. -/
  | unimplemented (dialect : String) (direction : Direction)
  /-- A condition on a field is not possible. -/
  | invalidCondition (field : String) (fault : ConditionFault)
  /-- A name is not that of a known dialect. -/
  | unknownDialect (name : String) (available : List String)
  /-- The settings cannot be read. -/
  | settings (message : String)
deriving DecidableEq, Repr

/-- The wording of a format fault. -/
def FormatFault.message : FormatFault → String
  | notACall => "expected <namespace>.<collection>.<method>(<filter>[, <projection>])"
  | tooManyArguments count => s!"expected at most 2 arguments, found {count}"
  | emptyArgument position => s!"argument {position} is empty"
  | tooDeep => s!"literal nested deeper than {Literal.maxDepth} levels"
  | notALiteral diagnosis => diagnosis.message
  | filterKind found => s!"filter must be an object literal, found {found.name}"
  | groupKind token found => s!"{token} expects an array of filter objects, found {found.name}"
  | groupItemKind token found => s!"{token} entries must be filter objects, found {found.name}"
  | fieldName name => s!"invalid field name '{name}'"
  | projectionKind => "projection must be an object literal"
  | projectionField name => s!"invalid projection field '{name}'"
  | other message => message

/-- The wording of a condition fault. -/
def ConditionFault.message : ConditionFault → String
  | logicalToken token => s!"logical operator {token} cannot compare a field"
  | valueKind found => s!"{found.name} values are not supported"
  | notAFieldPath => "not a valid field name"
  | logicalOperator op => s!"{op.name} is not a comparison operator"
  | listOperand op => s!"{op.name} does not accept a list of values"
  | other reason => reason

/-- The wording of what a dialect cannot do. -/
def Direction.message : Direction → String
  | parse => "parsing into the IR"
  | render => "rendering from the IR"

/-- The wording of an error. -/
def Error.message : Error → String
  | format fault => s!"Invalid query format: {fault.message}"
  | unsupportedMethod dialect method => s!"Unsupported {dialect} method: {method}"
  | unimplemented dialect direction =>
    s!"{dialect} adapter does not support {direction.message}"
  | invalidCondition field fault => s!"Invalid condition on '{field}': {fault.message}"
  | unknownDialect name available =>
    let names := ", ".intercalate available
    s!"Unknown dialect '{name}' (available: {names})"
  | settings message => s!"Configuration error: {message}"

end FindSelect
