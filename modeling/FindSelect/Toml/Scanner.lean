/-!
# Scanning a TOML text

A scanner takes characters from the start of a text and gives a value, or fails. This module has the
scanners for what stands between the parts of a TOML text: blanks, comments and line breaks.
-/

namespace FindSelect.Toml

/-- A scanner: its state is the rest of the text. -/
abbrev Scanner := StateT (List Char) Option

namespace Scanner

/-- The next character, which stays. -/
def peek : Scanner (Option Char) := do
  return (← get).head?

/-- Takes the next character. -/
def next : Scanner Char := do
  match ← get with
  | [] => failure
  | c :: rest =>
    set rest
    return c

/-- Takes the given characters if they come next, and says whether they did. -/
def accept (chars : List Char) : Scanner Bool := do
  let text ← get
  if chars.isPrefixOf text then
    set (text.drop chars.length)
    return true
  else return false

/-- Takes the given characters, which must come next. -/
def expect (chars : List Char) : Scanner Unit := do
  guard (← accept chars)

/-- Takes the characters of a class at the start of the text. -/
def takeWhile (p : Char → Bool) : Scanner (List Char) := do
  let text ← get
  set (text.dropWhile p)
  return text.takeWhile p

/-- Takes a number of characters. -/
def takeExactly : Nat → Scanner (List Char)
  | 0 => return []
  | n + 1 => return (← next) :: (← takeExactly n)

/-- At most `n` rounds of a scanner, up to the round that gives nothing. -/
def rounds {α : Type} (round : Scanner (Option α)) : Nat → Scanner (List α)
  | 0 => failure
  | n + 1 => do
    match ← round with
    | none => return []
    | some a => return a :: (← rounds round n)

/-- Repeats a scanner up to the round that gives nothing. Each round before that takes a character,
so there is one round more than characters at most. -/
def untilNone {α : Type} (round : Scanner (Option α)) : Scanner (List α) := do
  rounds round ((← get).length + 1)

end Scanner

open Scanner

/-- Whether a character is a blank within a line. -/
def isSpace (c : Char) : Bool :=
  c == ' ' || c == '\t'

/-- Whether a character may stand in a comment or a string: no control character but the tab. -/
def isPrintable (c : Char) : Bool :=
  c == '\t' || (0x20 ≤ c.toNat && c.toNat != 0x7F)

/-- Skips blanks within a line. -/
def skipSpaces : Scanner Unit := do
  let _ ← takeWhile isSpace

/-- Takes a line break, in either of its two forms, and gives it. -/
def lineBreak? : Scanner (Option (List Char)) := do
  if ← accept ['\n'] then return some ['\n']
  else if ← accept ['\r', '\n'] then return some ['\r', '\n']
  else return none

/-- Skips a comment, if one comes next. -/
def skipComment : Scanner Unit := do
  if ← accept ['#'] then
    let _ ← takeWhile isPrintable

/-- Takes what may follow in a line behind a statement: blanks, a comment, and the end of the line
or of the text. -/
def lineEnd : Scanner Unit := do
  skipSpaces
  skipComment
  match ← lineBreak? with
  | some _ => return
  | none => guard (← get).isEmpty

/-- Skips blanks, comments and line breaks. -/
def skipLines : Scanner Unit := do
  let _ ← untilNone do
    skipSpaces
    skipComment
    lineBreak?

end FindSelect.Toml
