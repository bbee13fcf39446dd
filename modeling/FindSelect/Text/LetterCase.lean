/-!
# Comparison without regard to letter case

Keywords and dialect names are compared without regard to the case of the ASCII letters. All other
characters stand for themselves alone, so `É` and `é` differ.
-/

namespace FindSelect.Text

/-- Whether two texts are the same up to the case of their ASCII letters. -/
def sameIgnoringCase (s t : String) : Bool :=
  s.toList.map Char.toLower == t.toList.map Char.toLower

/-- A text is the same as itself, whatever its case. -/
theorem sameIgnoringCase_self (s : String) : sameIgnoringCase s s = true := by
  simp [sameIgnoringCase]

end FindSelect.Text
