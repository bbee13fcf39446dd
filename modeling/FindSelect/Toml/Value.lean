import FindSelect.Toml.DateTime
import FindSelect.Toml.Numeral
import FindSelect.Toml.Quoted
import FindSelect.Toml.Table

/-!
# Keys and values in TOML

A key is a word or a string, and keys with dots between them make a path. A value is a string, a
number or truth value, a date or time, an array, or an inline table. Arrays and inline tables may
reach over several lines, with line breaks and comments between any two of their parts but not
inside a key, and a comma may follow their last part.
-/

namespace FindSelect.Toml

open Scanner

/-- A line that gives a value to a dotted key: the path, the last part of the key, and the value. -/
abbrev Assignment := List String × String × Value

/-- Whether a character may stand in a key without quotes. -/
def isBareKeyChar (c : Char) : Bool :=
  c.isAlphanum || c == '_' || c == '-'

/-- Takes one part of a key. -/
def keyPart : Scanner String := do
  match ← lineString? with
  | some s => return s
  | none =>
    let chars ← takeWhile isBareKeyChar
    guard !chars.isEmpty
    return String.ofList chars

/-- The number of containers that may stand inside one another, and of parts that a key may have. -/
def maxDepth : Nat := 80

/-- Takes a key and gives its path and its last part. Blanks may stand around its dots. -/
def key : Scanner (List String × String) := do
  let first ← keyPart
  let others ← untilNone do
    skipSpaces
    if ← accept ['.'] then
      skipSpaces
      return some (← keyPart)
    else return none
  let parts := first :: others
  guard (parts.length ≤ maxDepth)
  return (parts.dropLast, parts.getLast?.getD first)

/-- Takes a key, an equals sign and a value, given how to skip what may stand around the equals sign
and how to take the value. -/
def assignment (skip : Scanner Unit) (value : Scanner Value) : Scanner Assignment := do
  let (path, last) ← key
  skip
  expect ['=']
  skip
  return (path, last, ← value)

/-- Takes the rest of a list up to its closing bracket. Its parts have commas between them, and a
comma may follow the last part. -/
def listRest {α : Type} (closing : Char) (part : Scanner α) : Scanner (List α) := do
  skipLines
  if ← accept [closing] then return []
  let first ← part
  let others ← untilNone do
    skipLines
    if ← accept [closing] then return none
    expect [',']
    skipLines
    if ← accept [closing] then return none
    return some (← part)
  return first :: others

/-- Whether a character may stand in a number or a truth value. -/
def isPlainChar (c : Char) : Bool :=
  c.isAlphanum || c == '_' || c == '+' || c == '-' || c == '.'

/-- Takes a value that is no container. -/
def simpleValue : Scanner Value := do
  match ← string? with
  | some s => return .string s
  | none =>
    match ← optional dateTime with
    | some _ => return .other
    | none =>
      guard (isPlain (← takeWhile isPlainChar))
      return .other

/-- Takes a value, in which containers stand inside one another to at most the given depth. -/
def value : Nat → Scanner Value
  | 0 => simpleValue
  | depth + 1 => do
    if ← accept ['['] then
      let _ ← listRest ']' (value depth)
      return .other
    else if ← accept ['{'] then
      let assignments ← listRest '}' (assignment skipLines (value depth))
      guard (Table.assignAll [] assignments).isSome
      return .other
    else simpleValue

end FindSelect.Toml
