import FindSelect.Literal.Quoting

/-!
# The depth of a literal

Before a literal is read, its brackets are counted, so that a text of nothing but opening brackets
is refused without being followed into its depth.

`staysWithin` models `check_depth`, and `maxDepth` is its `MAX_DEPTH`.
-/

namespace FindSelect.Literal

/-- The number of containers that may stand inside one another. -/
def maxDepth : Nat := 128

/-- Whether at most `limit` brackets are open at any place of a text, given how it stands with
quotes and how many brackets are open before it. A closing bracket without an opening one counts for
nothing. -/
def staysWithin (limit : Nat) : Quoting → Nat → List Char → Bool
  | _, _, [] => true
  | .outside, depth, c :: rest =>
    if isOpening c then depth < limit && staysWithin limit .outside (depth + 1) rest
    else if isClosing c then staysWithin limit .outside (depth - 1) rest
    else staysWithin limit (Quoting.outside.after c) depth rest
  | q, depth, c :: rest => staysWithin limit (q.after c) depth rest

end FindSelect.Literal
