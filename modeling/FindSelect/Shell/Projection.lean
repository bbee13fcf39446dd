import FindSelect.Error
import FindSelect.FieldPath

/-!
# Projection documents

A projection document is an object whose keys are fields. A field is wanted unless its value is
null, `false`, zero or the empty string. A projection that wants no field wants them all.

`projection` models `projection_from`, and `isWanted` models `is_included`.
-/

namespace FindSelect.Shell

/-- Whether a field with this value in a projection document is wanted. -/
def isWanted : Value → Bool
  | .null => false
  | .bool b => b
  | .number n => !n.isZero
  | .string s => s != ""
  | .array _ => true
  | .object _ => true

/-- The wanted fields among the members of a projection document. -/
def wantedFields : List (String × Value) → Except Error (List String)
  | [] => return []
  | (field, value) :: rest =>
    if isFieldPath field then do
      let others ← wantedFields rest
      return if isWanted value then field :: others else others
    else .error (.format (.projectionField field))

/-- The projection that a document writes. -/
def projection : Value → Except Error (Option (List String))
  | .object members => do
    let fields ← wantedFields members
    return if fields.isEmpty then none else some fields
  | _ => .error (.format .projectionKind)

end FindSelect.Shell
