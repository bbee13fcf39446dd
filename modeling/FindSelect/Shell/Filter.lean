import FindSelect.Error
import FindSelect.FieldPath
import FindSelect.Query.Filter
import FindSelect.Shell.Token

/-!
# Filter documents

A filter document is an object. A key `$and` or `$or` has an array of filter documents; every other
key is a field, with the value that it must equal or with an object of operators and values. Fields
that stand beside a logical operator are one more member of the conjunction, its first.

`filter` models `canonicalize_filter`. The loop of `canonicalize_object` is `parts`, and what it
makes of its result is `Parts.toFilter`. `groupFilters` models `canonicalize_list`, `fieldFilter`
models `canonicalize_field`, and `operand` and `scalar` model `condition_value` and `scalar`.
-/

namespace FindSelect.Shell

/-- The scalar for a value that a field is compared with. -/
def scalar (field : String) : Value → Except Error Scalar
  | .null => .ok .null
  | .bool b => .ok (.bool b)
  | .number n => .ok (.number n)
  | .string s => .ok (.string s)
  | .array _ => .error (.invalidCondition field (.valueKind .array))
  | .object _ => .error (.invalidCondition field (.valueKind .object))

/-- The operand for a value that a field is compared with. -/
def operand (field : String) : Value → Except Error Operand
  | .array items => return .many (← items.mapM (scalar field))
  | value => return .one (← scalar field value)

/-- The operator for a key beside which a field is compared with a value. A key that is no operator
means equality. -/
def comparisonOperator (field token : String) : Except Error Operator :=
  match operator? token with
  | none => .ok .eq
  | some op =>
    if op.isLogical then .error (.invalidCondition field (.logicalToken token)) else .ok op

/-- The condition that an object of operators and values adds to another one. -/
def addComparisons (field : String) :
    Condition → List (String × Value) → Except Error Condition
  | condition, [] => .ok condition
  | condition, (token, value) :: rest => do
    let op ← comparisonOperator field token
    let operand ← operand field value
    addComparisons field (condition.insert op operand) rest

/-- The condition that a document sets for a field. -/
def condition (field : String) : Value → Except Error Condition
  | .object members => addComparisons field .empty members
  | value => return .equals (← operand field value)

/-- The field that a member of a document is about, with its condition. -/
def fieldFilter (field : String) (value : Value) : Except Error FieldFilter :=
  if isFieldPath field then return ⟨field, ← condition field value⟩
  else .error (.format (.fieldName field))

/-- The parts of a filter document: its fields, and the members of its logical operators. -/
structure Parts where
  /-- The fields with their conditions. -/
  fields : List FieldFilter
  /-- The members of `$and`, if it is there. -/
  conj : Option (List Filter)
  /-- The members of `$or`, if it is there. -/
  disj : Option (List Filter)

/-- The filter that the parts of a document make up. -/
def Parts.toFilter (parts : Parts) : Filter :=
  match parts with
  | ⟨fields, none, none⟩ => .fields fields
  | ⟨[], conj, disj⟩ => .group conj disj
  | ⟨fields, conj, disj⟩ => .group (some (.fields fields :: conj.getD [])) disj

mutual
/-- The parts of a document with the given members. -/
def parts : List (String × Value) → Except Error Parts
  | [] => return ⟨[], none, none⟩
  | (key, value) :: rest =>
    match operator? key with
    | some .and => do
      let filters ← groupFilters key value
      let others ← parts rest
      return { others with conj := others.conj <|> some filters }
    | some .or => do
      let filters ← groupFilters key value
      let others ← parts rest
      return { others with disj := others.disj <|> some filters }
    | _ => do
      let filter ← fieldFilter key value
      let others ← parts rest
      return { others with fields := filter :: others.fields }

/-- The filters under a logical operator. -/
def groupFilters (key : String) : Value → Except Error (List Filter)
  | .array items => itemFilters key items
  | value => .error (.format (.groupKind key value.kind))

/-- The filters of the documents in an array. -/
def itemFilters (key : String) : List Value → Except Error (List Filter)
  | [] => return []
  | .object members :: rest => do
    let parts ← parts members
    return parts.toFilter :: (← itemFilters key rest)
  | value :: _ => .error (.format (.groupItemKind key value.kind))
end

/-- The filter that a document writes. -/
def filter : Value → Except Error Filter
  | .object members => return (← parts members).toFilter
  | value => .error (.format (.filterKind value.kind))

end FindSelect.Shell
