import FindSelect.FieldPath
import FindSelect.Literal.Numeral
import FindSelect.Literal.Reader
import FindSelect.Value

/-!
# The grammar of document literals

The literals of the shell: strings in single or double quotes, numbers, `true`, `false`, `null`,
arrays and objects. Keys of an object may go without quotes, a comma may follow the last item of a
list, and blanks may stand around every value and every key.

`value n` is the grammar for values in which containers stand inside one another to a depth below
`n`. Each container takes a character, so for a text of `n` characters the depth `n + 1` never
matters.

The readers `key`, `escape`, `quoted`, `string`, `number` and `value` model `key_ident`, `escape`,
`quoted`, `string_literal`, `number` and `literal`.
-/

namespace FindSelect.Literal

open Reader

/-- Reads one ASCII digit or more. -/
def digits : Reader (List Char) :=
  many1 (satisfy Text.isAsciiDigit)

/-- Reads the digits after a point. -/
def fraction : Reader (List Char) := do
  let _ ← char '.'
  digits

/-- Reads an exponent with its mark. -/
def exponent : Reader Exponent := do
  let _ ← oneOf ['e', 'E']
  let sign ← optional (oneOf ['+', '-'])
  return ⟨sign == some '-', ← digits⟩

/-- Reads a number as it is written. -/
def numeral : Reader Numeral := do
  let sign ← optional (char '-')
  let whole ← digits
  let fraction ← optional fraction
  return ⟨sign.isSome, whole, fraction, ← optional exponent⟩

/-- Reads a number. -/
def number : Reader Number :=
  label "number" (checked numeral Numeral.value?)

/-- Reads the character after the backslash of an escape sequence: three that would have another
meaning without it, the slash, and three letters for control characters. -/
def escaped : Reader Char :=
  firstOf [char '\\', char '/', char '\'', char '"', do let _ ← char 'n'; return '\n',
    do let _ ← char 'r'; return '\r', do let _ ← char 't'; return '\t']

/-- Reads an escape sequence. -/
def escape : Reader Char :=
  label "escape sequence" do
    let _ ← char '\\'
    escaped

/-- Reads a string between two quotes of the given kind. -/
def quoted (quote : Char) : Reader String := do
  let _ ← char quote
  let chars ← many (orElse (noneOf ['\\', quote]) escape)
  let _ ← char quote
  return String.ofList chars

/-- Reads a string. -/
def string : Reader String :=
  label "string literal" (orElse (quoted '\'') (quoted '"'))

/-- Whether a character may stand in a key without quotes. -/
def isKeyChar (c : Char) : Bool :=
  isFieldChar c || c == '$'

/-- Reads a key without quotes. -/
def key : Reader String :=
  label "identifier" do
    return String.ofList (← many1 (satisfy isKeyChar))

/-- Reads a member of an object, given how to read its value. -/
def member (value : Reader Value) : Reader (String × Value) :=
  label "property like name: 'value'" do
    skipBlanks
    let k ← orElse string key
    skipBlanks
    let _ ← char ':'
    return (k, ← value)

/-- Reads an array, given how to read its items. -/
def array (value : Reader Value) : Reader Value :=
  label "array like [1, 2]" do
    let _ ← char '['
    skipBlanks
    let items ← commaSeparated value
    skipBlanks
    let _ ← char ']'
    return .array items

/-- Reads an object, given how to read the values of its members. -/
def object (value : Reader Value) : Reader Value :=
  label "object like \x7bname: 'value'\x7d" do
    let _ ← char '{'
    skipBlanks
    let members ← commaSeparated (member value)
    skipBlanks
    let _ ← char '}'
    return Value.ofMembers members

/-- Reads a value with the blanks around it, in which containers stand inside one another to a depth
below the given one. -/
def value : Nat → Reader Value
  | 0 => fail
  | n + 1 => do
    skipBlanks
    let v ← firstOf [object (value n), array (value n), .string <$> string, .number <$> number,
      do keyword ['t', 'r', 'u', 'e']; return .bool true,
      do keyword ['f', 'a', 'l', 's', 'e']; return .bool false,
      do keyword ['n', 'u', 'l', 'l']; return .null]
    skipBlanks
    return v

/-- Reads a text that is a literal, however deep. -/
def read (text : String) : Except Diagnosis Value :=
  (value (text.length + 1)).run text

end FindSelect.Literal
