import FindSelect.Literal.Grammar

/-!
# What readers read

A reader passes on the furthest failure and counts the characters before its place. What it reads
depends on neither (`Steady`), so a reader can be looked at as a function from a text to a value and
the text behind it (`Reader.on`). There is one equation for each reader that a grammar is put
together from.
-/

namespace FindSelect.Literal

variable {α β : Type}

/-- A result without the place that it was found at: the value and the text behind it. -/
def Outcome.reading (o : Outcome α) : Option (α × List Char) :=
  o.result.map fun r => (r.1, r.2.rest)

namespace Reader

/-- What a reader makes of a text: a value and the text behind it, unless it fails. -/
def on (p : Reader α) (text : List Char) : Option (α × List Char) :=
  Outcome.reading (p (Cursor.start text) none)

/-- A reader whose result depends neither on the place in the text nor on the failures so far. -/
class Steady (p : Reader α) : Prop where
  /-- The result is the same from every place with the same text behind it. -/
  reading_eq : ∀ c furthest, Outcome.reading (p c furthest) = p.on c.rest

/-! ## Sequences and alternatives -/

/-- Reading one part after another, from any place. -/
theorem reading_bind (p : Reader α) (f : α → Reader β) [∀ a, Steady (f a)] (c : Cursor)
    (furthest : Option Failure) :
    Outcome.reading ((p >>= f) c furthest) =
      (Outcome.reading (p c furthest)).bind fun r => (f r.1).on r.2 := by
  show Outcome.reading (Reader.bind p f c furthest) = _
  unfold Reader.bind
  match p c furthest with
  | ⟨none, _⟩ => rfl
  | ⟨some (a, c'), furthest'⟩ => exact Steady.reading_eq c' furthest'

@[simp] theorem on_pure (a : α) (text : List Char) : (pure a : Reader α).on text = some (a, text) :=
  rfl

@[simp] theorem on_bind (p : Reader α) (f : α → Reader β) [∀ a, Steady (f a)] (text : List Char) :
    (p >>= f).on text = (p.on text).bind fun r => (f r.1).on r.2 :=
  reading_bind p f _ _

instance (a : α) : Steady (pure a : Reader α) where
  reading_eq _ _ := rfl

instance Steady.bind (p : Reader α) (f : α → Reader β) [Steady p] [∀ a, Steady (f a)] :
    Steady (p >>= f) where
  reading_eq c furthest := by rw [reading_bind, Steady.reading_eq, on_bind]

@[simp] theorem on_map (f : α → β) (p : Reader α) (text : List Char) :
    (f <$> p).on text = (p.on text).map fun r => (f r.1, r.2) := by
  show (p >>= fun a => pure (f a)).on text = _
  rw [on_bind]
  cases p.on text <;> rfl

instance (f : α → β) (p : Reader α) [Steady p] : Steady (f <$> p) :=
  inferInstanceAs (Steady (p >>= fun a => pure (f a)))

@[simp] theorem on_fail (text : List Char) : (fail : Reader α).on text = none :=
  rfl

instance : Steady (fail : Reader α) where
  reading_eq _ _ := rfl

/-- Trying one reader after another, from any place. -/
theorem reading_orElse (p q : Reader α) [Steady q] (c : Cursor) (furthest : Option Failure) :
    Outcome.reading (orElse p q c furthest) =
      (Outcome.reading (p c furthest)).or (q.on c.rest) := by
  unfold orElse
  match p c furthest with
  | ⟨none, furthest'⟩ => exact Steady.reading_eq c furthest'
  | ⟨some r, _⟩ => rfl

@[simp] theorem on_orElse (p q : Reader α) [Steady q] (text : List Char) :
    (orElse p q).on text = (p.on text).or (q.on text) :=
  reading_orElse p q _ _

instance (p q : Reader α) [Steady p] [Steady q] : Steady (orElse p q) where
  reading_eq c furthest := by rw [reading_orElse, Steady.reading_eq, on_orElse]

instance : Steady (firstOf ([] : List (Reader α))) :=
  inferInstanceAs (Steady (fail : Reader α))

instance (p : Reader α) (rest : List (Reader α)) [Steady p] [Steady (firstOf rest)] :
    Steady (firstOf (p :: rest)) :=
  inferInstanceAs (Steady (orElse p (firstOf rest)))

@[simp] theorem on_firstOf_nil (text : List Char) :
    (firstOf ([] : List (Reader α))).on text = none :=
  rfl

@[simp] theorem on_firstOf_cons (p : Reader α) (rest : List (Reader α)) [Steady (firstOf rest)]
    (text : List Char) : (firstOf (p :: rest)).on text = (p.on text).or ((firstOf rest).on text) :=
  on_orElse p (firstOf rest) text

@[simp] theorem on_optional (p : Reader α) (text : List Char) :
    (optional p).on text =
      ((p.on text).map fun r => (some r.1, r.2)).or (some (none, text)) := by
  unfold optional
  rw [on_orElse, on_map, on_pure]

instance (p : Reader α) [Steady p] : Steady (optional p) :=
  inferInstanceAs (Steady (orElse (some <$> p) (pure none)))

/-! ## Single characters -/

instance (accepts : Char → Bool) (note : Cursor → Option Failure → Option Failure) :
    Steady (next accepts note) where
  reading_eq := by
    rintro ⟨text, offset⟩ furthest
    cases text with
    | nil => rfl
    | cons x rest =>
      simp only [on, Cursor.start, next]
      split <;> rfl

@[simp] theorem on_next_nil (accepts : Char → Bool)
    (note : Cursor → Option Failure → Option Failure) : (next accepts note).on [] = none :=
  rfl

@[simp] theorem on_next_cons (accepts : Char → Bool)
    (note : Cursor → Option Failure → Option Failure) (x : Char) (rest : List Char) :
    (next accepts note).on (x :: rest) = if accepts x then some (x, rest) else none := by
  simp only [on, Cursor.start, next]
  split <;> rfl

instance (x : Char) : Steady (char x) :=
  inferInstanceAs (Steady (next _ _))

instance (xs : List Char) : Steady (oneOf xs) :=
  inferInstanceAs (Steady (next _ _))

instance (xs : List Char) : Steady (noneOf xs) :=
  inferInstanceAs (Steady (next _ _))

instance (accepts : Char → Bool) : Steady (satisfy accepts) :=
  inferInstanceAs (Steady (next _ _))

/-- A character is read where it stands, and nowhere else. -/
theorem on_char (x : Char) (text : List Char) :
    (char x).on text = if text.head? = some x then some (x, text.tail) else none := by
  cases text with
  | nil => rfl
  | cons y rest =>
    show (next (· == x) _).on (y :: rest) = _
    rw [on_next_cons]
    by_cases h : y = x <;> simp [h]

@[simp] theorem on_char_cons (x : Char) (rest : List Char) :
    (char x).on (x :: rest) = some (x, rest) := by
  simp [on_char]

/-- What a reader of a certain character has read. -/
theorem on_char_eq_some {x y : Char} {text rest : List Char} :
    (char x).on text = some (y, rest) ↔ text = x :: rest ∧ y = x := by
  rw [on_char]
  cases text with
  | nil => simp
  | cons z tail =>
    by_cases h : z = x
    · simp [h, eq_comm, and_comm]
    · simp [h]

/-- What a reader of one of several characters has read. -/
theorem on_oneOf_eq_some {xs : List Char} {y : Char} {text rest : List Char} :
    (oneOf xs).on text = some (y, rest) ↔ text = y :: rest ∧ y ∈ xs := by
  cases text with
  | nil => simp [oneOf]
  | cons z tail =>
    simp only [oneOf, on_next_cons, List.contains_iff_mem]
    split <;> grind

/-- What a reader of a character other than some has read. -/
theorem on_noneOf_eq_some {xs : List Char} {y : Char} {text rest : List Char} :
    (noneOf xs).on text = some (y, rest) ↔ text = y :: rest ∧ y ∉ xs := by
  cases text with
  | nil => simp [noneOf]
  | cons z tail =>
    simp only [noneOf, on_next_cons, Bool.not_eq_true', List.contains_eq_mem]
    split <;> grind

instance (word : List Char) : Steady (keyword word) := by
  induction word with
  | nil => exact inferInstanceAs (Steady (pure ()))
  | cons x word _ => exact inferInstanceAs (Steady (char x >>= fun _ => keyword word))

/-- A word is read where it stands. -/
theorem on_keyword_eq_some {word text rest : List Char} :
    (keyword word).on text = some ((), rest) ↔ text = word ++ rest := by
  induction word generalizing text with
  | nil => simp [keyword]
  | cons x word ih =>
    rw [keyword, on_bind, Option.bind_eq_some_iff]
    constructor
    · rintro ⟨⟨y, tail⟩, hchar, hword⟩
      have htail : tail = word ++ rest := ih.1 hword
      rw [(on_char_eq_some.1 hchar).1, htail, List.cons_append]
    · rintro rfl
      exact ⟨(x, word ++ rest), on_char_cons x _, ih.2 rfl⟩

/-! ## Parts with a name, and checked parts -/

/-- A reader reads the same part with a name. -/
@[simp] theorem on_label (name : String) (p : Reader α) (text : List Char) :
    (label name p).on text = p.on text :=
  rfl

instance (name : String) (p : Reader α) [Steady p] : Steady (label name p) where
  reading_eq c _ := Steady.reading_eq (p := p) c none

/-- Reading a part whose value may turn out to be impossible, from any place. -/
theorem reading_checked (p : Reader α) (f : α → Option β) (c : Cursor)
    (furthest : Option Failure) :
    (checked p f c furthest).reading =
      (p c none).reading.bind fun r => (f r.1).map fun b => (b, r.2) := by
  unfold checked
  rcases p c none with ⟨_ | ⟨a, c'⟩, furthest'⟩
  · rfl
  · cases hf : f a with
    | none => simp [Outcome.reading, hf]
    | some b => simp [Outcome.reading, hf]

@[simp] theorem on_checked (p : Reader α) (f : α → Option β) (text : List Char) :
    (checked p f).on text = (p.on text).bind fun r => (f r.1).map fun b => (b, r.2) :=
  reading_checked p f _ _

instance (p : Reader α) (f : α → Option β) [Steady p] : Steady (checked p f) where
  reading_eq c furthest := by rw [reading_checked, Steady.reading_eq, on_checked]

/-! ## Blanks and the end of the text -/

/-- Blanks are skipped as far as they go. -/
@[simp] theorem on_skipBlanks (text : List Char) :
    skipBlanks.on text = some ((), text.dropWhile Text.isBlank) := by
  have hsplit : text.takeWhile Text.isBlank ++ text.dropWhile Text.isBlank = text :=
    List.takeWhile_append_dropWhile
  have hdrop : text.drop (text.takeWhile Text.isBlank).length = text.dropWhile Text.isBlank := by
    calc text.drop (text.takeWhile Text.isBlank).length
        = (text.takeWhile Text.isBlank ++ text.dropWhile Text.isBlank).drop
            (text.takeWhile Text.isBlank).length := by rw [hsplit]
      _ = text.dropWhile Text.isBlank := List.drop_left
  show some ((), text.drop (text.takeWhile Text.isBlank).length) = _
  rw [hdrop]

instance : Steady skipBlanks where
  reading_eq _ _ := rfl

instance : Steady endOfText where
  reading_eq := by
    rintro ⟨text, offset⟩ furthest
    cases text <;> rfl

/-- The end of the text is found at the end only. -/
theorem on_endOfText_eq_some {text rest : List Char} :
    endOfText.on text = some ((), rest) ↔ text = [] ∧ rest = [] := by
  cases text with
  | nil => simp [endOfText, on, Cursor.start, Outcome.reading, eq_comm]
  | cons x text => simp [endOfText, on, Cursor.start, Outcome.reading]

/-! ## Repetitions -/

/-- A repetition ends where the part cannot be read. -/
theorem reading_repeated_succ (p : Reader α) [Steady p] (n : Nat) [Steady (repeated p n)]
    (c : Cursor) (furthest : Option Failure) :
    (repeated p (n + 1) c furthest).reading =
      (p.on c.rest).elim (some ([], c.rest)) fun r =>
        ((repeated p n).on r.2).map fun s => (r.1 :: s.1, s.2) := by
  -- What is read behind the first part depends on whether there was one.
  rw [repeated]
  refine (@reading_bind _ _ (optional p) _ ?_ c furthest).trans ?_
  · intro r
    cases r <;> infer_instance
  · rw [Steady.reading_eq, on_optional]
    cases p.on c.rest with
    | none => rfl
    | some r =>
      simp only [Option.map_some, Option.some_or, Option.bind_some, on_bind, on_pure,
        Option.elim_some]
      cases (repeated p n).on r.2 <;> rfl

instance (p : Reader α) [Steady p] (n : Nat) : Steady (repeated p n) := by
  induction n with
  | zero => exact inferInstanceAs (Steady (pure []))
  | succ n _ =>
    refine ⟨fun c furthest => ?_⟩
    rw [on, reading_repeated_succ, reading_repeated_succ, Cursor.start]

instance (p : Reader α) [Steady p] : Steady (many p) where
  reading_eq c furthest := Steady.reading_eq (p := repeated p (c.rest.length + 1)) c furthest

instance (p : Reader α) [Steady p] : Steady (many1 p) :=
  inferInstanceAs (Steady (p >>= fun a => many p >>= fun as => pure (a :: as)))

/-- A list ends where no item can be read, or no separator behind an item. -/
theorem reading_separated_succ (separator : Reader Unit) (item : Reader α) [Steady separator]
    [Steady item] (n : Nat) [Steady (separated separator item n)] (c : Cursor)
    (furthest : Option Failure) :
    (separated separator item (n + 1) c furthest).reading =
      (item.on c.rest).elim (some ([], c.rest)) fun r =>
        (separator.on r.2).elim (some ([r.1], r.2)) fun s =>
          ((separated separator item n).on s.2).map fun t => (r.1 :: t.1, t.2) := by
  -- First the item is looked for, and behind it the separator.
  rw [separated]
  refine (@reading_bind _ _ (optional item) _ ?_ c furthest).trans ?_
  · intro r
    cases r with
    | none => infer_instance
    | some a =>
      refine @Steady.bind _ _ (optional separator) _ _ ?_
      intro s
      cases s <;> infer_instance
  · rw [Steady.reading_eq, on_optional]
    cases item.on c.rest with
    | none => rfl
    | some r =>
      simp only [Option.map_some, Option.some_or, Option.bind_some, Option.elim_some]
      refine (@on_bind _ _ (optional separator) _ ?_ r.2).trans ?_
      · intro s
        cases s <;> infer_instance
      · rw [on_optional]
        cases separator.on r.2 with
        | none => rfl
        | some s =>
          simp only [Option.map_some, Option.some_or, Option.bind_some, on_bind, on_pure,
            Option.elim_some]
          cases (separated separator item n).on s.2 <;> rfl

instance (separator : Reader Unit) (item : Reader α) [Steady separator] [Steady item] (n : Nat) :
    Steady (separated separator item n) := by
  induction n with
  | zero => exact inferInstanceAs (Steady (pure []))
  | succ n _ =>
    refine ⟨fun c furthest => ?_⟩
    rw [on, reading_separated_succ, reading_separated_succ, Cursor.start]

/-- Reads a comma with the blanks around it. -/
def comma : Reader Unit := do
  skipBlanks
  let _ ← char ','
  skipBlanks

instance : Steady comma :=
  inferInstanceAs (Steady (skipBlanks >>= fun _ => char ',' >>= fun _ => skipBlanks))

instance (item : Reader α) [Steady item] : Steady (commaSeparated item) where
  reading_eq c furthest :=
    Steady.reading_eq (p := separated comma item (c.rest.length + 1)) c furthest

/-- A list with commas is read as one with a bound that its text never reaches. -/
theorem on_commaSeparated (item : Reader α) (text : List Char) :
    (commaSeparated item).on text = (separated comma item (text.length + 1)).on text :=
  rfl

/-! ## Whole texts -/

/-- A whole text is read by a reader that leaves nothing behind. -/
theorem run_eq_ok {p : Reader α} {text : String} {a : α} :
    p.run text = .ok a ↔ p.on text.toList = some (a, []) := by
  have hrun : p.run text = .ok a ↔
      ∃ rest, (do let a ← p; endOfText; return a : Reader α).on text.toList = some (a, rest) := by
    -- Both sides look at the same outcome.
    unfold run on
    dsimp only
    generalize (do let a ← p; endOfText; return a : Reader α) (Cursor.start text.toList) none = o
    match o with
    | ⟨none, _⟩ => simp [Outcome.reading]
    | ⟨some (b, c), _⟩ => simp [Outcome.reading]
  rw [hrun]
  simp only [on_bind, on_pure, Option.bind_eq_some_iff, Option.some.injEq, Prod.mk.injEq]
  constructor
  · rintro ⟨rest, ⟨b, tail⟩, hp, ⟨⟨⟩, rest'⟩, hend, rfl, -⟩
    have htail : tail = [] := (on_endOfText_eq_some.1 hend).1
    rw [hp, htail]
  · intro hp
    exact ⟨[], (a, []), hp, ((), []), on_endOfText_eq_some.2 ⟨rfl, rfl⟩, rfl, rfl⟩

end Reader

end FindSelect.Literal
