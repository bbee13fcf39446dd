/-!
# Quotes and brackets in a text

A text can be searched for brackets and commas before it is read, if what stands between quotes is
left out. `Quoting` is what has to be known of the text so far, one character after another.

This is the state that the scans `check_depth` and `split_arguments` keep beside their count of open
brackets.
-/

namespace FindSelect.Literal

/-- Where a character stands with regard to quotes. -/
inductive Quoting where
  /-- Outside of quotes. -/
  | outside
  /-- After an opening quote of the given kind. -/
  | inside (quote : Char)
  /-- After an opening quote of the given kind, directly behind a backslash. -/
  | escaped (quote : Char)
deriving DecidableEq, Repr

/-- How things stand after one more character. -/
def Quoting.after : Quoting → Char → Quoting
  | outside, c => if c = '\'' ∨ c = '"' then inside c else outside
  | inside q, c => if c = '\\' then escaped q else if c = q then outside else inside q
  | escaped q, _ => inside q

/-- Whether a character opens an object or an array. -/
def isOpening (c : Char) : Bool :=
  c == '{' || c == '['

/-- Whether a character closes an object or an array. -/
def isClosing (c : Char) : Bool :=
  c == '}' || c == ']'

end FindSelect.Literal
