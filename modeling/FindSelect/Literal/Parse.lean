import FindSelect.Error
import FindSelect.Literal.Grammar

/-!
# Reading a literal

A literal is read after its depth has been checked, so a text that is both too deep and badly formed
is too deep.

`parse` models `parse_literal`.
-/

namespace FindSelect.Literal

/-- The value that a text writes. -/
def parse (text : String) : Except Error Value :=
  if staysWithin maxDepth .outside 0 text.toList then
    (read text).mapError fun diagnosis => .format (.notALiteral diagnosis)
  else .error (.format .tooDeep)

end FindSelect.Literal
