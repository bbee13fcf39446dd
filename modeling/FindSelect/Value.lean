import FindSelect.Entries
import FindSelect.Number

/-!
# Document values

The values that a document literal writes: scalars, arrays and objects. An object lists its members
in the order in which their keys first came, each key once. `Value.json` writes a value as JSON text
without white space.

`Kind.name` models `describe`.
-/

namespace FindSelect

/-- A document value. -/
inductive Value where
  /-- The null value. -/
  | null
  /-- A truth value. -/
  | bool (value : Bool)
  /-- A number. -/
  | number (value : Number)
  /-- A string. -/
  | string (value : String)
  /-- An array of values. -/
  | array (items : List Value)
  /-- An object: its members in order, each with its key. -/
  | object (members : List (String × Value))

namespace Value

/-- The six kinds of document value. -/
inductive Kind where
  /-- The kind of the null value. -/
  | null
  /-- The kind of the two truth values. -/
  | bool
  /-- The kind of numbers. -/
  | number
  /-- The kind of strings. -/
  | string
  /-- The kind of arrays. -/
  | array
  /-- The kind of objects. -/
  | object
deriving DecidableEq, Repr

/-- The word for a kind of value in a message. -/
def Kind.name : Kind → String
  | null => "null"
  | bool => "boolean"
  | number => "number"
  | string => "string"
  | array => "array"
  | object => "object"

/-- The kind of a value. -/
def kind : Value → Kind
  | null => .null
  | bool _ => .bool
  | number _ => .number
  | string _ => .string
  | array _ => .array
  | object _ => .object

/-- The object with the given members, in which a repeated key keeps its first place and its last
value. -/
def ofMembers (members : List (String × Value)) : Value :=
  object (Entries.ofList members)

/-! ## JSON text -/

/-- A character inside a JSON string. The quote, the backslash and the control characters are
escaped, five of the latter by a letter; every other character stands for itself. -/
def escapeChar (c : Char) : List Char :=
  if c = '"' then ['\\', '"']
  else if c = '\\' then ['\\', '\\']
  else if c = '\x08' then ['\\', 'b']
  else if c = '\x0c' then ['\\', 'f']
  else if c = '\n' then ['\\', 'n']
  else if c = '\r' then ['\\', 'r']
  else if c = '\t' then ['\\', 't']
  else if c.toNat < 0x20 then
    ['\\', 'u', '0', '0', Nat.digitChar (c.toNat / 16), Nat.digitChar (c.toNat % 16)]
  else [c]

/-- A string as JSON text, in double quotes. -/
def quoted (s : String) : String :=
  String.ofList ('"' :: s.toList.flatMap escapeChar ++ ['"'])

mutual
/-- A value as JSON text, without white space. -/
def json : Value → String
  | null => "null"
  | bool true => "true"
  | bool false => "false"
  | number n => n.toText
  | string s => quoted s
  | array items => "[" ++ ",".intercalate (jsonItems items) ++ "]"
  | object members => "\x7b" ++ ",".intercalate (jsonMembers members) ++ "\x7d"

/-- The texts of the items of an array. -/
def jsonItems : List Value → List String
  | [] => []
  | v :: rest => json v :: jsonItems rest

/-- The texts of the members of an object. -/
def jsonMembers : List (String × Value) → List String
  | [] => []
  | (k, v) :: rest => (quoted k ++ ":" ++ json v) :: jsonMembers rest
end

end Value

end FindSelect
