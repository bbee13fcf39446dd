import FindSelect.Text.Alphabetic
import FindSelect.Text.Mark
import FindSelect.Text.Numeric
import FindSelect.Text.Recent

/-!
# Classes of characters

The three classes that decide how a text is read. A *blank* may stand between the parts of a text.
A *word character* may stand in the three names of a call. An *alphanumeric* character may stand in
a field name. The last two differ: a combining accent is a word character and not alphanumeric, a
superscript digit is alphanumeric and not a word character. They also follow different versions of
the Unicode standard: word characters version 16, alphanumeric characters version 17.

`isWord` is the class of characters that `CALL_RE` takes for words, and `isAlphanumeric` is the one
that `is_field_path` asks for.
-/

namespace FindSelect.Text

/-- The code points with the Unicode property `White_Space`. -/
def blank : Ranges where
  list :=
    [(0x9, 0xD), (0x20, 0x20), (0x85, 0x85), (0xA0, 0xA0), (0x1680, 0x1680), (0x2000, 0x200A),
     (0x2028, 0x2029), (0x202F, 0x202F), (0x205F, 0x205F), (0x3000, 0x3000)]
  ordered := by decide

/-- Whether a character is white space. -/
def isBlank (c : Char) : Bool :=
  blank.contains c.toNat

/-- The code points of the general category `Pc`, which join words: the underscore and its kin. -/
def connector : Ranges where
  list :=
    [(0x5F, 0x5F), (0x203F, 0x2040), (0x2054, 0x2054), (0xFE33, 0xFE34), (0xFE4D, 0xFE4F),
     (0xFF3F, 0xFF3F)]
  ordered := by decide

/-- Whether a character joins words. -/
def isConnector (c : Char) : Bool :=
  connector.contains c.toNat

/-- Whether a character is one of the two invisible joiners, the Unicode property
`Join_Control`. -/
def isJoiner (c : Char) : Bool :=
  c.toNat == 0x200C || c.toNat == 0x200D

/-- Whether a character is a letter or a number of any script, as of version 17 of the standard. -/
def isAlphanumeric (c : Char) : Bool :=
  isAlphabetic c || isDecimalDigit c || isOtherNumber c

/-- Whether a character may stand in a word: a letter, a mark, a decimal digit, a connector or a
joiner of any script, as of version 16 of the standard. -/
def isWord (c : Char) : Bool :=
  (isAlphabetic c || isMark c || isDecimalDigit c || isConnector c || isJoiner c) && !isRecent c

/-- Whether a character is one of the ten ASCII digits. -/
def isAsciiDigit (c : Char) : Bool :=
  '0' ≤ c && c ≤ '9'

end FindSelect.Text
