import FindSelect.Literal.Failure

/-!
# What is said about a text that cannot be read

A diagnosis is the furthest failure with its place as a line and a column. `Diagnosis.message` is
its wording.

`Failure.locate` and `Diagnosis.message` model `format_errors`, for the one error that is left when
a literal has been refused.
-/

namespace FindSelect.Literal

/-- The line of the place after the text `before`: the number of lines that `before` has begun, and
at least one. Right after a line break the line before it still counts. -/
def lineAfter (before : List Char) : Nat :=
  let breaks := before.count '\n'
  match before.getLast? with
  | none | some '\n' => max 1 breaks
  | some _ => breaks + 1

/-- The column of the place after the text `before`: one more than the number of bytes, in UTF-8,
since the last line break. -/
def columnAfter (before : List Char) : Nat :=
  (before.reverse.takeWhile (· != '\n')).foldl (fun n c => n + c.utf8Size) 1

/-- Why a text cannot be read, and where. -/
structure Diagnosis where
  /-- The line of the place, counted from one. -/
  line : Nat
  /-- The column of the place in bytes, counted from one. -/
  column : Nat
  /-- What could have stood there. -/
  expected : List Expectation
  /-- What was found there: a character, or nothing at the end of the text. -/
  found : Option Char
deriving DecidableEq, Repr

/-- The diagnosis of a failure in a text. -/
def Failure.locate (text : List Char) (f : Failure) : Diagnosis :=
  let before := text.take f.offset
  ⟨lineAfter before, columnAfter before, f.expected, f.found⟩

/-- A character between single quotes, as it is. -/
def showChar (c : Char) : String :=
  String.ofList ['\'', c, '\'']

/-- The wording of what could have stood somewhere. -/
def Expectation.message : Expectation → String
  | char c => showChar c
  | any => "any"
  | somethingElse => "something else"
  | endOfInput => "end of input"
  | named label => label

/-- The wording of a choice: items with commas between them and `or` before the last. -/
def choiceMessage : List String → String
  | [] => ""
  | [only] => only
  | [first, last] => first ++ ", or " ++ last
  | first :: rest => first ++ ", " ++ choiceMessage rest

/-- The wording of what was found somewhere. -/
def foundMessage : Option Char → String
  | none => "end of input"
  | some c => showChar c

/-- The wording of a diagnosis. -/
def Diagnosis.message (d : Diagnosis) : String :=
  let found := foundMessage d.found
  let expected := choiceMessage (d.expected.map Expectation.message)
  s!"line {d.line}, column {d.column}: found {found} expected {expected} (found {found})"

end FindSelect.Literal
