import FindSelect.Literal.Quoting
import FindSelect.Text.Trim

/-!
# Argument lists

The arguments of a call are separated by commas. A comma between quotes or inside a container
separates nothing.

`arguments` models `split_arguments`.
-/

namespace FindSelect.Shell

open Literal

/-- How a character changes the number of open brackets. -/
def bracketStep (c : Char) : Int :=
  if isOpening c then 1 else if isClosing c then -1 else 0

/-- The pieces of a text between the commas that stand outside of quotes while no bracket is open,
given how the text stands with quotes and brackets at its start. The count of open brackets can go
below zero, and then no comma counts until it is zero again. It has no bounds here, while
`split_arguments` keeps it in 32 bits. The two differ only in a text with 2^31 brackets open at
once, or with more than 2^31 closed that were not opened. -/
def pieces : Quoting → Int → List Char → List (List Char)
  | _, _, [] => [[]]
  | q, depth, c :: rest =>
    if q = .outside ∧ c = ',' ∧ depth = 0 then [] :: pieces q depth rest
    else
      let depth := if q = .outside then depth + bracketStep c else depth
      match pieces (q.after c) depth rest with
      | [] => [[c]]
      | piece :: others => (c :: piece) :: others

/-- The arguments in an argument list, without the blanks around them. A list of blanks holds no
argument. -/
def arguments (text : List Char) : List (List Char) :=
  match (pieces .outside 0 text).map Text.trim with
  | [[]] => []
  | parts => parts

end FindSelect.Shell
