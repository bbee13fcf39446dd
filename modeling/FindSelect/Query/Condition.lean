import FindSelect.Entries
import FindSelect.Number

/-!
# Conditions on a field

A condition compares one field with values: each comparison is an operator and its operand. A
condition that is made by `insert` alone holds every operator at most once, in the order in which
the operators first came.

`Condition` models the type of that name, and `Operand` models `ConditionValue`.
-/

namespace FindSelect

/-- The operators of a filter: seven compare a field with a value, and two join filters. -/
inductive Operator where
  /-- The field equals the value. -/
  | eq
  /-- The field differs from the value. -/
  | ne
  /-- The field is greater than the value. -/
  | gt
  /-- The field is at least the value. -/
  | gte
  /-- The field is less than the value. -/
  | lt
  /-- The field is at most the value. -/
  | lte
  /-- The field is one of the listed values. -/
  | member
  /-- All the joined filters hold. -/
  | and
  /-- One of the joined filters holds. -/
  | or
deriving DecidableEq, Repr

namespace Operator

/-- All operators. -/
def all : List Operator :=
  [eq, ne, gt, gte, lt, lte, member, and, or]

/-- Every operator is one of them. -/
theorem mem_all (op : Operator) : op ∈ all := by
  cases op <;> decide

/-- The name of an operator that belongs to no dialect. -/
def name : Operator → String
  | eq => "EQ"
  | ne => "NE"
  | gt => "GT"
  | gte => "GTE"
  | lt => "LT"
  | lte => "LTE"
  | member => "IN"
  | and => "AND"
  | or => "OR"

/-- Whether an operator joins filters, and so cannot compare a field. -/
def isLogical : Operator → Bool
  | and | or => true
  | _ => false

end Operator

/-- A value that a field can be compared with. -/
inductive Scalar where
  /-- The null value. -/
  | null
  /-- A truth value. -/
  | bool (value : Bool)
  /-- A number. -/
  | number (value : Number)
  /-- A string. -/
  | string (value : String)
deriving DecidableEq, Repr

/-- What stands beside an operator in a comparison. -/
inductive Operand where
  /-- A single value. -/
  | one (value : Scalar)
  /-- A list of values. -/
  | many (values : List Scalar)
deriving DecidableEq, Repr

/-- A condition on a field: its comparisons, in order. `empty` and `insert` only make conditions
with each operator once, but the type has others too: a list that is put together by hand may repeat
an operator. What is said of all conditions is said of those as well. -/
structure Condition where
  /-- The operators with their operands. -/
  comparisons : List (Operator × Operand)
deriving DecidableEq, Repr

namespace Condition

/-- The condition without comparisons, which every value meets. -/
def empty : Condition :=
  ⟨[]⟩

/-- Adds a comparison. The operand of an operator that is already there is replaced in place. -/
def insert (c : Condition) (op : Operator) (operand : Operand) : Condition :=
  ⟨Entries.put op operand c.comparisons⟩

/-- The condition that the field equals a value. -/
def equals (operand : Operand) : Condition :=
  empty.insert .eq operand

/-- The operand of an operator, if the condition has it. -/
def get? (c : Condition) (op : Operator) : Option Operand :=
  Entries.get? op c.comparisons

/-- The operators of a condition, in order. -/
def operators (c : Condition) : List Operator :=
  c.comparisons.map Prod.fst

/-- The number of comparisons. -/
def size (c : Condition) : Nat :=
  c.comparisons.length

/-- Whether a condition has no comparisons. -/
def isEmpty (c : Condition) : Bool :=
  c.comparisons.isEmpty

/-- An operator that is already there keeps its place, and a new one comes last. -/
theorem operators_insert (c : Condition) (op : Operator) (operand : Operand) :
    (c.insert op operand).operators =
      if op ∈ c.operators then c.operators else c.operators ++ [op] :=
  Entries.keys_put op operand c.comparisons

/-- An operator that has been added has its new operand, and the others keep theirs. -/
theorem get?_insert (c : Condition) (op op' : Operator) (operand : Operand) :
    (c.insert op operand).get? op' = if op' = op then some operand else c.get? op' :=
  Entries.get?_put op op' operand c.comparisons

end Condition

end FindSelect
