/-!
# The furthest failure

While a text is read, one failure is remembered: of all the places where the reading could not go
on, the one furthest into the text, with everything that could have stood there. It outlives
backtracking and also success, so that a text which is refused at its end is blamed on the place
that held the reading up. `report` notes a single failure, `fold` joins what was remembered of a
part of the text.
-/

namespace FindSelect.Literal

/-- What could have stood at some place of a text. -/
inductive Expectation where
  /-- A certain character. -/
  | char (c : Char)
  /-- Any character at all. -/
  | any
  /-- A character other than the one that stands there. -/
  | somethingElse
  /-- The end of the text. -/
  | endOfInput
  /-- A part of the grammar, by its name. -/
  | named (label : String)
deriving DecidableEq, Repr

/-- A place where the reading could not go on. -/
structure Failure where
  /-- The number of characters before the place. -/
  offset : Nat
  /-- What could have stood there. -/
  expected : List Expectation
  /-- What was found there: a character, or nothing at the end of the text. -/
  found : Option Char
deriving DecidableEq, Repr

namespace Failure

/-- The first list followed by what only the second one has. -/
def union (first second : List Expectation) : List Expectation :=
  second.foldl (fun all e => if e ∈ all then all else all ++ [e]) first

/-- Notes a failure. One further on replaces what was remembered; one at the same place adds to what
was expected, and says what was found if that was not known. -/
def report (old : Option Failure) (new : Failure) : Option Failure :=
  match old with
  | none => some new
  | some old =>
    if old.offset < new.offset then some new
    else if new.offset < old.offset then some old
    else some ⟨old.offset, union old.expected new.expected, old.found <|> new.found⟩

/-- Joins what was remembered of a part of the text. At the same place the longer list of
expectations comes first, and what was found stays. -/
def fold (old new : Option Failure) : Option Failure :=
  match old, new with
  | old, none => old
  | none, new => new
  | some old, some new =>
    if old.offset < new.offset then some new
    else if new.offset < old.offset then some old
    else if old.expected.length < new.expected.length then
      some ⟨old.offset, union new.expected old.expected, old.found⟩
    else some ⟨old.offset, union old.expected new.expected, old.found⟩

/-- Puts the name of a part of the grammar in place of what was expected, if the failure lies at the
very start of that part. -/
def rename (start : Nat) (label : String) (f : Failure) : Failure :=
  if f.offset = start then ⟨f.offset, [.named label], f.found⟩ else f

end Failure

end FindSelect.Literal
