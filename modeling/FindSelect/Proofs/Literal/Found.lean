import FindSelect.Proofs.Literal.Locality

/-!
# What is found at a failure

The furthest failure tells what was found at its place. `Located` says that this is the character
that stands there, or nothing at the end of the text. All parts of the grammar keep to that
(`Keeps`) but one: a number out of range is blamed on its first character, and nothing is said of
what was found. Yet a number is only tried where an object was tried before, and that has told what
was found there.
-/

namespace FindSelect.Literal

open Reader

variable {α β : Type} {text : List Char}

/-- Whether a failure tells what stands at its place in a text. -/
def Located (text : List Char) (f : Option Failure) : Prop :=
  ∀ g ∈ f, g.offset ≤ text.length ∧ g.found = text[g.offset]?

/-- Whether a place lies in a text. -/
def Cursor.In (text : List Char) (c : Cursor) : Prop :=
  ∃ before, text = before ++ c.rest ∧ c.offset = before.length

namespace Located

/-- Without a failure there is nothing to tell. -/
theorem none : Located text none :=
  fun _ h => nomatch h

/-- A failure at a place tells the next character. -/
theorem here {c : Cursor} (hc : c.In text) (expected : List Expectation) :
    Located text (some ⟨c.offset, expected, c.rest.head?⟩) := by
  rintro g hg
  obtain rfl := Option.some.inj hg
  obtain ⟨before, rfl, hoffset⟩ := hc
  rw [List.length_append, hoffset]
  refine ⟨Nat.le_add_right _ _, ?_⟩
  rw [List.getElem?_append_right (Nat.le_refl _), Nat.sub_self, List.head?_eq_getElem?]

/-- Noting a failure. -/
theorem report {old : Option Failure} {new : Failure} (hold : Located text old)
    (hnew : Located text (some new)) : Located text (Failure.report old new) := by
  unfold Failure.report
  cases old with
  | none => exact hnew
  | some old =>
    dsimp only
    split
    · exact hnew
    · split
      · exact hold
      · intro g hg
        obtain rfl := Option.some.inj hg
        obtain ⟨hle, hfound⟩ := hold old rfl
        have hoffset : old.offset = new.offset := by omega
        refine ⟨hle, ?_⟩
        -- At the end of the text neither of them tells a character.
        rw [hfound, (hnew new rfl).2, hoffset]
        cases text[new.offset]? <;> rfl

/-- Joining what was remembered, if something was at the place of the new failure or behind it. -/
theorem fold_of_extent {old : Option Failure} {new : Failure} (hold : Located text old)
    (h : new.offset < extent old) : Located text (Failure.fold old (some new)) := by
  unfold Failure.fold
  cases old with
  | none => exact absurd h (Nat.not_lt_zero _)
  | some old =>
    have hle : ¬ old.offset < new.offset := Nat.not_lt_of_le (Nat.le_of_lt_succ h)
    dsimp only
    rw [if_neg hle]
    split
    · exact hold
    · split
      all_goals
        intro g hg
        obtain rfl := Option.some.inj hg
        exact hold old rfl

/-- Joining what was remembered. -/
theorem fold {old new : Option Failure} (hold : Located text old) (hnew : Located text new) :
    Located text (Failure.fold old new) := by
  cases new with
  | none =>
    rw [Failure.fold]
    exact hold
  | some new =>
    by_cases h : new.offset < extent old
    · exact hold.fold_of_extent h
    · unfold Failure.fold
      cases old with
      | none => exact hnew
      | some old =>
        have hlt : old.offset < new.offset := Nat.not_lt.1 h
        dsimp only
        rwa [if_pos hlt]

/-- A name for what was expected. -/
theorem rename {f : Option Failure} (h : Located text f) (start : Nat) (name : String) :
    Located text (f.map (Failure.rename start name)) := by
  intro g hg
  obtain ⟨g', hg', rfl⟩ := Option.map_eq_some_iff.1 hg
  obtain ⟨hle, hfound⟩ := h g' hg'
  unfold Failure.rename
  split <;> exact ⟨hle, hfound⟩

end Located

/-! ## Readers that tell what was found -/

namespace Reader

/-- A reader whose failures tell what was found. -/
class Keeps (p : Reader α) : Prop where
  /-- What was remembered stays right. -/
  located : ∀ {text c furthest}, c.In text → Located text furthest →
    Located text (p c furthest).furthest

/-- A reader whose failures tell what was found if something was found before at the place where it
starts, or behind it. -/
class KeepsLate (p : Reader α) : Prop where
  /-- What was remembered stays right. -/
  located : ∀ {text c furthest}, c.In text → Located text furthest → c.offset < extent furthest →
    Located text (p c furthest).furthest

instance (p : Reader α) [Keeps p] : KeepsLate p :=
  ⟨fun hc hf _ => Keeps.located hc hf⟩

/-- The place after what was read lies in the text. -/
theorem in_of_result {p : Reader α} [Tracked p] {c c' : Cursor} {furthest : Option Failure} {a : α}
    (hc : c.In text) (h : (p c furthest).result = some (a, c')) : c'.In text := by
  obtain ⟨w, hrest, hoffset⟩ := Tracked.advances h
  obtain ⟨before, rfl, hbefore⟩ := hc
  refine ⟨before ++ w, ?_, ?_⟩
  · rw [hrest, List.append_assoc]
  · rw [hoffset, hbefore, List.length_append]

instance (a : α) : Keeps (pure a : Reader α) :=
  ⟨fun _ hf => hf⟩

instance : Keeps (fail : Reader α) :=
  ⟨fun _ hf => hf⟩

instance Keeps.bind (p : Reader α) (f : α → Reader β) [Tracked p] [Keeps p] [∀ a, Keeps (f a)] :
    Keeps (p >>= f) where
  located := by
    intro text c furthest hc hf
    have hp := Keeps.located (p := p) hc hf
    show Located text (Reader.bind p f c furthest).furthest
    unfold Reader.bind
    rcases hresult : p c furthest with ⟨_ | ⟨a, c'⟩, furthest'⟩
    · rwa [hresult] at hp
    · rw [hresult] at hp
      exact Keeps.located (in_of_result hc (congrArg Outcome.result hresult)) hp

instance (f : α → β) (p : Reader α) [Tracked p] [Keeps p] : Keeps (f <$> p) :=
  inferInstanceAs (Keeps (p >>= fun a => pure (f a)))

instance (f : α → β) (p : Reader α) [Tracked p] [KeepsLate p] : KeepsLate (f <$> p) where
  located := by
    intro text c furthest hc hf hlate
    have hp := KeepsLate.located (p := p) hc hf hlate
    show Located text (Reader.bind p (fun a => pure (f a)) c furthest).furthest
    unfold Reader.bind
    rcases hresult : p c furthest with ⟨_ | ⟨a, c'⟩, furthest'⟩ <;> rwa [hresult] at hp

instance (p q : Reader α) [Keeps p] [Keeps q] : Keeps (orElse p q) where
  located := by
    intro text c furthest hc hf
    have hp := Keeps.located (p := p) hc hf
    unfold orElse
    rcases hresult : p c furthest with ⟨_ | r, furthest'⟩
    · rw [hresult] at hp
      exact Keeps.located hc hp
    · rwa [hresult] at hp

/-- A second alternative is late if the first one does not fail without a report. -/
theorem Keeps.orElse_of_reports (p q : Reader α) [Steady p] [Tracked p] [Reports p] [Keeps p]
    [KeepsLate q] : Keeps (orElse p q) where
  located := by
    intro text c furthest hc hf
    have hp := Keeps.located (p := p) hc hf
    have hextent := Tracked.extent_eq (p := p) c.rest c.offset furthest
    have hreading : (p c furthest).reading = p.on c.rest := Steady.reading_eq c furthest
    unfold orElse
    rcases hresult : p c furthest with ⟨_ | r, furthest'⟩
    · rw [hresult] at hp hextent hreading
      refine KeepsLate.located hc hp ?_
      -- The first alternative has failed here or further on.
      have hreach := Reports.reach_pos hreading.symm
      rw [hextent, shift_of_pos _ hreach]
      omega
    · rwa [hresult] at hp

instance (p q : Reader α) [Tracked p] [KeepsLate p] [KeepsLate q] : KeepsLate (orElse p q) where
  located := by
    intro text c furthest hc hf hlate
    have hp := KeepsLate.located (p := p) hc hf hlate
    have hextent := Tracked.extent_eq (p := p) c.rest c.offset furthest
    unfold orElse
    rcases hresult : p c furthest with ⟨_ | r, furthest'⟩
    · rw [hresult] at hp hextent
      refine KeepsLate.located hc hp ?_
      rw [hextent]
      exact Nat.lt_of_lt_of_le hlate (Nat.le_max_left _ _)
    · rwa [hresult] at hp

instance : Keeps (firstOf ([] : List (Reader α))) :=
  inferInstanceAs (Keeps fail)

instance (p : Reader α) (ps : List (Reader α)) [Keeps p] [Keeps (firstOf ps)] :
    Keeps (firstOf (p :: ps)) :=
  inferInstanceAs (Keeps (orElse p (firstOf ps)))

instance (p : Reader α) (ps : List (Reader α)) [Tracked p] [KeepsLate p] [KeepsLate (firstOf ps)] :
    KeepsLate (firstOf (p :: ps)) :=
  inferInstanceAs (KeepsLate (orElse p (firstOf ps)))

instance (p : Reader α) [Tracked p] [Keeps p] : Keeps (optional p) :=
  inferInstanceAs (Keeps (orElse (some <$> p) (pure none)))

/-- A character that is not accepted is told. -/
theorem keeps_next {accepts : Char → Bool} {note : Cursor → Option Failure → Option Failure}
    (hnote : ∀ {text c furthest}, c.In text → Located text furthest →
      Located text (note c furthest)) : Keeps (next accepts note) where
  located := by
    intro text c furthest hc hf
    unfold next
    split
    · exact hnote hc hf
    · split
      · exact hf
      · exact hnote hc hf

/-- What is missing is told. -/
theorem located_missing (expected : List Expectation) {c : Cursor} {furthest : Option Failure}
    (hc : c.In text) (hf : Located text furthest) : Located text (missing expected c furthest) :=
  hf.report (.here hc expected)

instance (x : Char) : Keeps (char x) :=
  keeps_next (located_missing _)

instance (xs : List Char) : Keeps (oneOf xs) :=
  keeps_next (located_missing _)

instance (xs : List Char) : Keeps (noneOf xs) :=
  keeps_next (located_missing _)

instance (accepts : Char → Bool) : Keeps (satisfy accepts) :=
  keeps_next fun hc hf => hf.fold (.here hc _)

instance (word : List Char) : Keeps (keyword word) := by
  induction word with
  | nil => exact inferInstanceAs (Keeps (pure ()))
  | cons x word _ => exact inferInstanceAs (Keeps (char x >>= fun _ => keyword word))

instance (name : String) (p : Reader α) [Keeps p] : Keeps (label name p) where
  located hc hf := hf.fold ((Keeps.located (p := p) hc .none).rename _ _)

instance : Keeps skipBlanks :=
  ⟨fun _ hf => hf⟩

instance : Keeps endOfText where
  located := by
    intro text c furthest hc hf
    unfold endOfText
    split
    · exact hf
    · exact located_missing _ hc hf

instance (p : Reader α) [Tracked p] [Steady p] [Keeps p] (n : Nat) : Keeps (repeated p n) := by
  induction n with
  | zero => exact inferInstanceAs (Keeps (pure []))
  | succ n _ =>
    rw [repeated]
    refine @Keeps.bind _ _ (optional p) _ _ _ ?_
    intro r
    cases r <;> infer_instance

instance (p : Reader α) [Tracked p] [Steady p] [Keeps p] : Keeps (many p) where
  located {_ c _} hc hf := Keeps.located (p := repeated p (c.rest.length + 1)) hc hf

instance (p : Reader α) [Tracked p] [Steady p] [Keeps p] : Keeps (many1 p) :=
  inferInstanceAs (Keeps (p >>= fun a => many p >>= fun as => pure (a :: as)))

instance (separator : Reader Unit) (item : Reader α) [Steady separator] [Steady item]
    [Tracked separator] [Tracked item] [Keeps separator] [Keeps item] (n : Nat) :
    Keeps (separated separator item n) := by
  induction n with
  | zero => exact inferInstanceAs (Keeps (pure []))
  | succ n _ =>
    rw [separated]
    refine @Keeps.bind _ _ (optional item) _ _ _ ?_
    intro r
    cases r with
    | none => infer_instance
    | some a =>
      refine @Keeps.bind _ _ (optional separator) _ _ _ ?_
      intro s
      cases s <;> infer_instance

instance : Keeps comma :=
  inferInstanceAs (Keeps (skipBlanks >>= fun _ => char ',' >>= fun _ => skipBlanks))

instance (item : Reader α) [Steady item] [Tracked item] [Keeps item] :
    Keeps (commaSeparated item) where
  located {_ c _} hc hf := Keeps.located (p := separated comma item (c.rest.length + 1)) hc hf

end Reader

/-! ## The grammar -/

-- The grammar has sequences of up to six parts, and of each of them two things have to be found.
set_option synthInstance.maxSize 1000

instance : Keeps digits :=
  inferInstanceAs (Keeps (many1 _))

instance : Keeps fraction :=
  inferInstanceAs (Keeps (char '.' >>= fun _ => digits))

instance : Keeps exponent := by
  unfold exponent
  infer_instance

instance : Keeps numeral := by
  unfold numeral
  infer_instance

instance : Keeps escaped := by
  unfold escaped
  infer_instance

instance : Keeps escape := by
  unfold escape
  infer_instance

instance (quote : Char) : Keeps (quoted quote) := by
  unfold quoted
  infer_instance

instance : Keeps string := by
  unfold string
  infer_instance

instance : Keeps key := by
  unfold key
  infer_instance

/-- A part whose value is impossible is blamed on its start, where nothing is told. -/
instance (name : String) (p : Reader α) (f : α → Option β) [Keeps p] :
    KeepsLate (label name (checked p f)) where
  located := by
    intro text c furthest hc hf hlate
    have hp := Keeps.located (p := p) hc .none
    unfold label checked
    rcases hresult : p c none with ⟨_ | ⟨a, c'⟩, inner⟩
    · rw [hresult] at hp
      exact hf.fold ((Located.none.fold hp).rename _ _)
    · rw [hresult] at hp
      dsimp only
      rcases Option.eq_none_or_eq_some (f a) with hvalue | ⟨b, hvalue⟩
      · -- What was found before at this place, or further on, stays.
        rw [hvalue]
        refine hf.fold_of_extent ?_
        rw [Failure.rename, if_pos rfl]
        exact hlate
      · rw [hvalue]
        exact hf.fold ((Located.none.fold hp).rename _ _)

instance : KeepsLate number := by
  unfold number
  infer_instance

section Values

variable {v : Reader Value} [Steady v] [Tracked v] [Keeps v]

instance : Keeps (member v) := by
  unfold member
  infer_instance

instance (k : Kind) : Keeps (k.item v) := by
  cases k with
  | array => assumption
  | object => exact inferInstanceAs (Keeps (member v))

instance (k : Kind) : Keeps (k.container v) := by
  unfold Kind.container
  infer_instance

instance : Keeps (object v) :=
  inferInstanceAs (Keeps (label _ (Kind.object.container v)))

instance : Keeps (array v) :=
  inferInstanceAs (Keeps (label _ (Kind.array.container v)))

/-- A number is tried behind an object. -/
instance : Keeps (core v) :=
  Keeps.orElse_of_reports (object v) _

end Values

instance (n : Nat) : Keeps (value n) := by
  induction n with
  | zero => exact inferInstanceAs (Keeps fail)
  | succ n _ =>
    rw [value_succ]
    infer_instance

end FindSelect.Literal
