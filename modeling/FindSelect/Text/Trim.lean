import FindSelect.Text.CharClass

/-!
# Blanks at the ends of a text

`trim` removes the blanks at both ends. What is left has a character that is not blank at each end,
or is empty.
-/

namespace FindSelect.Text

/-- The text without the blanks at its start. -/
def trimLeft (s : List Char) : List Char :=
  s.dropWhile isBlank

/-- The text without the blanks at its end. -/
def trimRight (s : List Char) : List Char :=
  (trimLeft s.reverse).reverse

/-- The text without the blanks at its ends. -/
def trim (s : List Char) : List Char :=
  trimRight (trimLeft s)

/-- A text that starts with a character that is not blank loses nothing at its start. -/
theorem trimLeft_cons {c : Char} {s : List Char} (h : isBlank c = false) :
    trimLeft (c :: s) = c :: s := by
  simp [trimLeft, h]

end FindSelect.Text
