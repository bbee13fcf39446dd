import FindSelect.Toml.Scanner

/-!
# Strings in TOML

There are four kinds of string: basic ones in double quotes, with escape sequences, and literal ones
in single quotes, without; each kind on one line, or over several lines between three quotes.
-/

namespace FindSelect.Toml

open Scanner

/-- The number that a hexadecimal digit stands for. -/
def hexDigit? (c : Char) : Option Nat :=
  if '0' ≤ c ∧ c ≤ '9' then some (c.toNat - '0'.toNat)
  else if 'a' ≤ c ∧ c ≤ 'f' then some (c.toNat - 'a'.toNat + 10)
  else if 'A' ≤ c ∧ c ≤ 'F' then some (c.toNat - 'A'.toNat + 10)
  else none

/-- Takes a number of hexadecimal digits, which give the code point of a character. -/
def codePoint (size : Nat) : Scanner Char := do
  let digits ← (← takeExactly size).mapM fun c => (hexDigit? c : Option Nat)
  let n := digits.foldl (fun n d => 16 * n + d) 0
  guard (decide n.isValidChar)
  return Char.ofNat n

/-- Takes what follows the backslash of an escape sequence. -/
def escape : Scanner Char := do
  match ← next with
  | 'b' => return '\x08'
  | 't' => return '\t'
  | 'n' => return '\n'
  | 'f' => return '\x0c'
  | 'r' => return '\r'
  | 'e' => return '\x1b'
  | '"' => return '"'
  | '\\' => return '\\'
  | 'x' => codePoint 2
  | 'u' => codePoint 4
  | 'U' => codePoint 8
  | _ => failure

/-- Takes a character that stands for itself. -/
def printable : Scanner Char := do
  let c ← next
  guard (isPrintable c)
  return c

/-- Takes the rest of a basic string on one line. -/
def basicRest : Scanner String := do
  let chars ← untilNone do
    if ← accept ['"'] then return none
    else if ← accept ['\\'] then return some (← escape)
    else return some (← printable)
  return String.ofList chars

/-- Takes the rest of a literal string on one line. -/
def literalRest : Scanner String := do
  let chars ← untilNone do
    if ← accept ['\''] then return none
    else return some (← printable)
  return String.ofList chars

/-- Takes a character or a line break of a string over several lines. -/
def printableOrBreak : Scanner (List Char) := do
  match ← lineBreak? with
  | some chars => return chars
  | none => return [← printable]

/-- Takes the closing quotes of a string over several lines, if they come next, and gives the quotes
that belong to the string: up to two may stand before the three that close it. -/
def closing? (quote : Char) : Scanner (Option (List Char)) := do
  if ← accept (List.replicate 5 quote) then return some [quote, quote]
  else if ← accept (List.replicate 4 quote) then return some [quote]
  else if ← accept (List.replicate 3 quote) then return some []
  else return none

/-- Takes the rest of a string over several lines. A line break right behind the opening quotes does
not belong to it. -/
def linesRest (quote : Char) (part : Scanner (List Char)) : Scanner String := do
  let _ ← lineBreak?
  let parts ← untilNone do
    -- The closing quotes stay for the last step, which also takes the quotes before them.
    if (List.replicate 3 quote).isPrefixOf (← get) then return none
    else return some (← part)
  match ← closing? quote with
  | some quotes => return String.ofList (parts.flatten ++ quotes)
  | none => failure

/-- Takes what follows a backslash in a basic string over several lines: an escape sequence, or the
end of the line with all blanks and line breaks up to the next character. -/
def escapeOrBreak : Scanner (List Char) := do
  match ← peek with
  | some c =>
    if isSpace c || c == '\n' || c == '\r' then
      skipSpaces
      guard (← lineBreak?).isSome
      let _ ← untilNone do
        skipSpaces
        lineBreak?
      return []
    else return [← escape]
  | none => failure

/-- Takes the rest of a basic string over several lines. -/
def basicLinesRest : Scanner String :=
  linesRest '"' do
    if ← accept ['\\'] then escapeOrBreak else printableOrBreak

/-- Takes the rest of a literal string over several lines. -/
def literalLinesRest : Scanner String :=
  linesRest '\'' printableOrBreak

/-- Takes a string on one line, if one comes next. -/
def lineString? : Scanner (Option String) := do
  if ← accept ['"'] then return some (← basicRest)
  else if ← accept ['\''] then return some (← literalRest)
  else return none

/-- Takes a string of any kind, if one comes next. -/
def string? : Scanner (Option String) := do
  if ← accept ['"', '"', '"'] then return some (← basicLinesRest)
  else if ← accept ['\'', '\'', '\''] then return some (← literalLinesRest)
  else lineString?

end FindSelect.Toml
