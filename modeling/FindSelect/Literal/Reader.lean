import FindSelect.Literal.Diagnosis
import FindSelect.Text.CharClass

/-!
# Readers

A reader reads a part of a text and gives a value, or fails. Either way it passes on the furthest
failure. The readers here are the parts that a grammar is put together from; each says what it
reports when it fails. A reader that fails leaves no trace but the furthest failure, so the reading
can go on from the place where that reader started.
-/

namespace FindSelect.Literal

/-- A place in a text. -/
structure Cursor where
  /-- The characters from the place on. -/
  rest : List Char
  /-- The number of characters before the place. -/
  offset : Nat
deriving DecidableEq, Repr

/-- The place at the start of a text. -/
def Cursor.start (text : List Char) : Cursor :=
  ⟨text, 0⟩

/-- What a reader comes to. -/
structure Outcome (α : Type) where
  /-- The value that was read and the place after it, or nothing if the reader failed. -/
  result : Option (α × Cursor)
  /-- The furthest failure so far. -/
  furthest : Option Failure

/-- A reader of values of type `α`, from a place in a text and the furthest failure before it. -/
def Reader (α : Type) : Type :=
  Cursor → Option Failure → Outcome α

namespace Reader

variable {α β : Type}

/-- Reads nothing. -/
protected def pure (a : α) : Reader α := fun c furthest =>
  ⟨some (a, c), furthest⟩

/-- Reads one part after another. -/
protected def bind (p : Reader α) (f : α → Reader β) : Reader β := fun c furthest =>
  match p c furthest with
  | ⟨some (a, c'), furthest'⟩ => f a c' furthest'
  | ⟨none, furthest'⟩ => ⟨none, furthest'⟩

instance : Monad Reader where
  pure := Reader.pure
  bind := Reader.bind

/-- Fails and reports nothing. -/
def fail : Reader α := fun _ furthest =>
  ⟨none, furthest⟩

/-- Tries the first reader and, if it fails, the second from the same place. -/
def orElse (p q : Reader α) : Reader α := fun c furthest =>
  match p c furthest with
  | ⟨some r, furthest'⟩ => ⟨some r, furthest'⟩
  | ⟨none, furthest'⟩ => q c furthest'

/-- Tries the readers in turn, all from the same place. -/
def firstOf : List (Reader α) → Reader α
  | [] => fail
  | p :: rest => orElse p (firstOf rest)

/-- Reads a part that may be missing. -/
def optional (p : Reader α) : Reader (Option α) :=
  orElse (some <$> p) (pure none)

/-- Reads the next character if it is accepted, and otherwise notes the failure with `note`. -/
def next (accepts : Char → Bool) (note : Cursor → Option Failure → Option Failure) :
    Reader Char := fun c furthest =>
  match c.rest with
  | [] => ⟨none, note c furthest⟩
  | x :: rest =>
    if accepts x then ⟨some (x, ⟨rest, c.offset + 1⟩), furthest⟩ else ⟨none, note c furthest⟩

/-- Notes that one of `expected` was not found. -/
def missing (expected : List Expectation) (c : Cursor) (furthest : Option Failure) :
    Option Failure :=
  Failure.report furthest ⟨c.offset, expected, c.rest.head?⟩

/-- Reads a certain character. -/
def char (x : Char) : Reader Char :=
  next (· == x) (missing [.char x])

/-- Reads one of the given characters. -/
def oneOf (xs : List Char) : Reader Char :=
  next xs.contains (missing (xs.map .char))

/-- Reads a character other than the given ones. -/
def noneOf (xs : List Char) : Reader Char :=
  next (!xs.contains ·) (missing [.somethingElse])

/-- Reads a character of a class. A failure says nothing of the class, only whether there was a
character at all. -/
def satisfy (accepts : Char → Bool) : Reader Char :=
  next accepts fun c furthest =>
    let expected := if c.rest.isEmpty then .any else .somethingElse
    Failure.fold furthest (some ⟨c.offset, [expected], c.rest.head?⟩)

/-- Reads the given characters one after another. -/
def keyword : List Char → Reader Unit
  | [] => pure ()
  | x :: rest => do
    let _ ← char x
    keyword rest

/-- Reads nothing, at the end of the text only. -/
def endOfText : Reader Unit := fun c furthest =>
  match c.rest with
  | [] => ⟨some ((), c), furthest⟩
  | _ :: _ => ⟨none, missing [.endOfInput] c furthest⟩

/-- Skips blanks. This cannot fail and reports nothing. -/
def skipBlanks : Reader Unit := fun c furthest =>
  let skipped := (c.rest.takeWhile Text.isBlank).length
  ⟨some ((), ⟨c.rest.drop skipped, c.offset + skipped⟩), furthest⟩

/-- At most `n` repetitions of a part. -/
def repeated (p : Reader α) : Nat → Reader (List α)
  | 0 => pure []
  | n + 1 => do
    match ← optional p with
    | none => pure []
    | some a => return a :: (← repeated p n)

/-- As many repetitions of a part as there are, possibly none. Each of them reads a character, so
there are not more of them than characters; the last attempt is the one that fails. -/
def many (p : Reader α) : Reader (List α) := fun c =>
  repeated p (c.rest.length + 1) c

/-- One repetition of a part or more. -/
def many1 (p : Reader α) : Reader (List α) := do
  let a ← p
  return a :: (← many p)

/-- At most `n` items with separators between them; a separator may also follow the last item. -/
def separated (separator : Reader Unit) (item : Reader α) : Nat → Reader (List α)
  | 0 => pure []
  | n + 1 => do
    match ← optional item with
    | none => pure []
    | some a =>
      match ← optional separator with
      | none => pure [a]
      | some _ => return a :: (← separated separator item n)

/-- As many items as there are, possibly none, with commas between them. Blanks may stand around a
comma, and a comma may follow the last item. -/
def commaSeparated (item : Reader α) : Reader (List α) := fun c =>
  let comma : Reader Unit := do
    skipBlanks
    let _ ← char ','
    skipBlanks
  separated comma item (c.rest.length + 1) c

/-- Reads a named part. A failure at its very start is told by the name of the part. -/
def label (name : String) (p : Reader α) : Reader α := fun c furthest =>
  let o := p c none
  ⟨o.result, Failure.fold furthest (o.furthest.map (Failure.rename c.offset name))⟩

/-- Reads a part whose value may turn out to be impossible. The blame for that goes to the start of
the part. -/
def checked (p : Reader α) (f : α → Option β) : Reader β := fun c furthest =>
  match p c none with
  | ⟨none, inner⟩ => ⟨none, Failure.fold furthest inner⟩
  | ⟨some (a, c'), inner⟩ =>
    match f a with
    | some b => ⟨some (b, c'), Failure.fold furthest inner⟩
    | none => ⟨none, Failure.fold furthest (some ⟨c.offset, [], none⟩)⟩

/-- Reads a whole text. -/
def run (p : Reader α) (text : String) : Except Diagnosis α :=
  let whole : Reader α := do
    let a ← p
    endOfText
    return a
  match whole (Cursor.start text.toList) none with
  | ⟨some (a, _), _⟩ => .ok a
  | ⟨none, furthest⟩ => .error ((furthest.getD ⟨0, [], text.toList.head?⟩).locate text.toList)

end Reader

end FindSelect.Literal
