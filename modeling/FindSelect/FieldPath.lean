import FindSelect.Text.CharClass

/-!
# Field paths

A field path names a field, possibly inside another one: segments separated by dots, each a run of
letters, numbers and underscores.

`isFieldPath` models `is_field_path`.
-/

namespace FindSelect

/-- Whether a character may stand in a segment of a field path. -/
def isFieldChar (c : Char) : Bool :=
  Text.isAlphanumeric c || c == '_'

/-- The segments of a text between its dots; there is always one more segment than dots. -/
def segments : List Char → List (List Char)
  | [] => [[]]
  | c :: rest =>
    if c = '.' then [] :: segments rest
    else match segments rest with
      | [] => [[c]]
      | s :: others => (c :: s) :: others

/-- Whether a name is a field path: every segment is a run of one field character or more. -/
def isFieldPath (name : String) : Bool :=
  (segments name.toList).all fun s => !s.isEmpty && s.all isFieldChar

/-- A text has at least one segment. -/
theorem segments_ne_nil (s : List Char) : segments s ≠ [] := by
  cases s with
  | nil => simp [segments]
  | cons c rest =>
    rw [segments]
    split
    · simp
    · split <;> simp

end FindSelect
