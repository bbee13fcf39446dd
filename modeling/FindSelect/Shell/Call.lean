import FindSelect.Text.Trim

/-!
# Calls

A query in the shell is the call of a method on a collection, `db.users.find(…)`: three words with
dots between them and an argument list in parentheses. Blanks may stand at both ends and before the
parentheses, and a semicolon may follow. The argument list reaches to the last closing parenthesis
of the text.

`Call.read?` models a match of `CALL_RE` with its captures.
-/

namespace FindSelect.Shell

/-- The parts of a call. -/
structure Call where
  /-- The word before the collection, which names the database. -/
  database : List Char
  /-- The collection. -/
  collection : List Char
  /-- The method. -/
  method : List Char
  /-- All that stands between the parentheses. -/
  arguments : List Char
deriving DecidableEq, Repr

/-- Splits a text after the word at its start, if there is one. -/
def word? (text : List Char) : Option (List Char × List Char) :=
  match text.takeWhile Text.isWord with
  | [] => none
  | word => some (word, text.dropWhile Text.isWord)

/-- The text after the given character, if that character is the first one. -/
def after? (c : Char) : List Char → Option (List Char)
  | [] => none
  | c' :: rest => if c' = c then some rest else none

/-- The text before the closing parenthesis at its end, behind which a semicolon and blanks may
stand. -/
def beforeClosing? (text : List Char) : Option (List Char) :=
  let backwards := Text.trimLeft text.reverse
  let backwards := ((after? ';' backwards).map Text.trimLeft).getD backwards
  (after? ')' backwards).map List.reverse

/-- The call that a text writes. -/
def Call.read? (text : List Char) : Option Call := do
  let (database, text) ← word? (Text.trimLeft text)
  let text ← after? '.' text
  let (collection, text) ← word? text
  let text ← after? '.' text
  let (method, text) ← word? text
  let text ← after? '(' (Text.trimLeft text)
  let arguments ← beforeClosing? text
  return ⟨database, collection, method, arguments⟩

end FindSelect.Shell
