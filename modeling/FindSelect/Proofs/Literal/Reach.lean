import FindSelect.Proofs.Literal.Results

/-!
# How far readers look

Of the failures that a reader meets, the furthest one is kept. How far it lies depends on the text
alone: `Reader.reach` counts the characters up to and including the one that was not accepted, from
the place where the reader starts. The failures so far and the place in the text are added to that
(`Tracked`). There is one equation for each reader that a grammar is put together from, as there is
for what the reader reads.
-/

namespace FindSelect.Literal

variable {α β : Type}

/-! ## The extent of a failure -/

/-- The number of characters up to and including the place of a failure, and zero without one. -/
def extent (f : Option Failure) : Nat :=
  f.elim 0 fun g => g.offset + 1

/-- What was counted from a place with `n` characters before it, counted from the start. -/
def shift (n k : Nat) : Nat :=
  if k = 0 then 0 else n + k

@[simp] theorem shift_zero (n : Nat) : shift n 0 = 0 :=
  rfl

@[simp] theorem zero_shift (k : Nat) : shift 0 k = k := by
  unfold shift
  split <;> omega

theorem shift_of_pos (n : Nat) {k : Nat} (h : 0 < k) : shift n k = n + k :=
  if_neg (Nat.ne_of_gt h)

/-- Counting from a place adds what stands before it, if there is something to count. -/
theorem shift_cases (n k : Nat) : shift n k = n + k ∨ k = 0 ∧ shift n k = 0 := by
  unfold shift
  split <;> omega

/-- Counting from a place, and from a place before that. -/
theorem shift_shift (m n k : Nat) : shift m (shift n k) = shift (m + n) k := by
  unfold shift
  split <;> split <;> omega

/-- What is counted from a place lies behind it. -/
theorem shift_eq_succ {n j k : Nat} (h : shift n j = k + 1) : ∃ i, j = i + 1 ∧ k = n + i := by
  unfold shift at h
  split at h
  · exact absurd h.symm (Nat.succ_ne_zero k)
  · exact ⟨j - 1, by omega, by omega⟩

/-- The furthest of two, counted from a place. -/
theorem shift_max (n j k : Nat) : shift n (max j k) = max (shift n j) (shift n k) := by
  unfold shift
  split <;> split <;> split <;> omega

namespace Failure

/-- Noting a failure keeps the furthest one. -/
theorem extent_report (old : Option Failure) (new : Failure) :
    extent (report old new) = max (extent old) (new.offset + 1) := by
  unfold report
  cases old with
  | none => simp [extent]
  | some old =>
    dsimp only
    split
    · simp only [extent, Option.elim_some]
      omega
    · split <;> simp only [extent, Option.elim_some] <;> omega

/-- Joining what was remembered keeps the furthest failure. -/
theorem extent_fold (old new : Option Failure) :
    extent (fold old new) = max (extent old) (extent new) := by
  unfold fold
  cases new with
  | none => simp [extent]
  | some new =>
    cases old with
    | none => simp [extent]
    | some old =>
      dsimp only
      split
      · simp only [extent, Option.elim_some]
        omega
      · split
        · simp only [extent, Option.elim_some]
          omega
        · split <;> simp only [extent, Option.elim_some] <;> omega

/-- A name for what was expected does not move a failure. -/
theorem extent_rename (f : Option Failure) (start : Nat) (name : String) :
    extent (f.map (rename start name)) = extent f := by
  cases f with
  | none => rfl
  | some f =>
    simp only [Option.map_some, rename]
    split <;> rfl

end Failure

namespace Reader

/-! ## Readers that keep track of their place -/

/-- How far a reader looks into a text: the number of characters up to and including the one at the
furthest failure, and zero without a failure. -/
def reach (p : Reader α) (text : List Char) : Nat :=
  extent (p (Cursor.start text) none).furthest

/-- A reader that goes forward, counts the characters that it reads, and keeps the furthest failure
of its own and of those before. -/
class Tracked (p : Reader α) : Prop where
  /-- The place after what was read lies behind it. -/
  advances : ∀ {c furthest a c'}, (p c furthest).result = some (a, c') →
    ∃ w, c.rest = w ++ c'.rest ∧ c'.offset = c.offset + w.length
  /-- The furthest failure lies where the reader or one before it has failed. -/
  extent_eq : ∀ t n furthest, extent (p ⟨t, n⟩ furthest).furthest =
    max (extent furthest) (shift n (p.reach t))

/-- What is left of a text is an end of it. -/
theorem exists_append_of_on {p : Reader α} [Tracked p] {t : List Char} {a : α} {rest : List Char}
    (h : p.on t = some (a, rest)) : ∃ w, t = w ++ rest := by
  obtain ⟨⟨a', c'⟩, hresult, heq⟩ := Option.map_eq_some_iff.1 h
  obtain ⟨w, hw, -⟩ := Tracked.advances hresult
  exact ⟨w, by rw [← (Prod.mk.inj heq).2]; exact hw⟩

/-- How far a reader looks is known from where its furthest failure lies. -/
theorem reach_eq_of_extent {p : Reader α} {F : List Char → Nat}
    (h : ∀ t n furthest, extent (p ⟨t, n⟩ furthest).furthest =
      max (extent furthest) (shift n (F t))) (t : List Char) : p.reach t = F t := by
  have hstart := h t 0 none
  rwa [zero_shift, show extent none = 0 from rfl, Nat.zero_max] at hstart

/-- A reader is tracked if it goes forward and its furthest failure is known. -/
theorem Tracked.of_extent {p : Reader α} {F : List Char → Nat}
    (hadvances : ∀ {c furthest a c'}, (p c furthest).result = some (a, c') →
      ∃ w, c.rest = w ++ c'.rest ∧ c'.offset = c.offset + w.length)
    (h : ∀ t n furthest, extent (p ⟨t, n⟩ furthest).furthest =
      max (extent furthest) (shift n (F t))) : Tracked p where
  advances := hadvances
  extent_eq t n furthest := by rw [h, reach_eq_of_extent h]

/-! ## Sequences and alternatives -/

@[simp] theorem reach_pure (a : α) (t : List Char) : (pure a : Reader α).reach t = 0 :=
  rfl

instance (a : α) : Tracked (pure a : Reader α) where
  advances h := by
    obtain ⟨-, rfl⟩ := Prod.mk.inj (Option.some.inj h)
    exact ⟨[], rfl, rfl⟩
  extent_eq _ _ _ := (Nat.max_zero _).symm

instance : Tracked (fail : Reader α) where
  advances h := nomatch h
  extent_eq _ _ _ := (Nat.max_zero _).symm

section Bind

variable (p : Reader α) (f : α → Reader β) [Steady p] [Tracked p] [∀ a, Tracked (f a)]

/-- The furthest failure of a sequence is that of one of its parts. -/
theorem extent_bind (t : List Char) (n : Nat) (furthest : Option Failure) :
    extent ((p >>= f) ⟨t, n⟩ furthest).furthest =
      max (extent furthest) (shift n (max (p.reach t) ((p.on t).elim 0 fun r =>
        shift (t.length - r.2.length) ((f r.1).reach r.2)))) := by
  have hreading : _ = p.on t := Steady.reading_eq ⟨t, n⟩ furthest
  have hextent := Tracked.extent_eq (p := p) t n furthest
  show extent (Reader.bind p f ⟨t, n⟩ furthest).furthest = _
  unfold Reader.bind
  rcases hp : p ⟨t, n⟩ furthest with ⟨_ | ⟨a, c'⟩, furthest'⟩
  · rw [hp] at hreading hextent
    rw [← hreading]
    simpa [Outcome.reading] using hextent
  · obtain ⟨w, hrest, hoffset⟩ := Tracked.advances (congrArg Outcome.result hp)
    rw [hp] at hreading hextent
    have hlength : t.length - c'.rest.length = w.length := by
      rw [show t = w ++ c'.rest from hrest, List.length_append, Nat.add_sub_cancel]
    rw [← hreading]
    simp only [Outcome.reading, Option.map_some, Option.elim_some] at hextent ⊢
    have hsecond : extent (f a c' furthest').furthest =
        max (extent furthest') (shift c'.offset ((f a).reach c'.rest)) :=
      Tracked.extent_eq c'.rest c'.offset furthest'
    rw [hsecond, hextent, hoffset, hlength, shift_max, shift_shift, ← Nat.max_assoc]

instance Tracked.bind : Tracked (p >>= f) := by
  refine .of_extent ?_ (extent_bind p f)
  intro c furthest b c'' h
  change (Reader.bind p f c furthest).result = _ at h
  unfold Reader.bind at h
  rcases hp : p c furthest with ⟨_ | ⟨a, c'⟩, furthest'⟩
  · rw [hp] at h
    exact nomatch h
  · obtain ⟨w, hrest, hoffset⟩ := Tracked.advances (congrArg Outcome.result hp)
    rw [hp] at h
    obtain ⟨w', hrest', hoffset'⟩ := Tracked.advances h
    exact ⟨w ++ w', by rw [hrest, hrest', List.append_assoc], by
      rw [hoffset', hoffset, List.length_append, Nat.add_assoc]⟩

/-- A sequence looks as far as one of its parts does. -/
@[simp] theorem reach_bind (t : List Char) :
    (p >>= f).reach t = max (p.reach t)
      ((p.on t).elim 0 fun r => shift (t.length - r.2.length) ((f r.1).reach r.2)) :=
  reach_eq_of_extent (extent_bind p f) t

end Bind

instance (f : α → β) (p : Reader α) [Steady p] [Tracked p] : Tracked (f <$> p) :=
  inferInstanceAs (Tracked (p >>= fun a => pure (f a)))

@[simp] theorem reach_map (f : α → β) (p : Reader α) [Steady p] [Tracked p] (t : List Char) :
    (f <$> p).reach t = p.reach t := by
  show (p >>= fun a => pure (f a)).reach t = _
  rw [reach_bind]
  cases p.on t <;> simp

section OrElse

variable (p q : Reader α) [Steady p] [Tracked p] [Tracked q]

/-- The furthest failure of alternatives is that of one which was tried. -/
theorem extent_orElse (t : List Char) (n : Nat) (furthest : Option Failure) :
    extent (orElse p q ⟨t, n⟩ furthest).furthest =
      max (extent furthest)
        (shift n (max (p.reach t) ((p.on t).elim (q.reach t) fun _ => 0))) := by
  have hreading : _ = p.on t := Steady.reading_eq ⟨t, n⟩ furthest
  have hextent := Tracked.extent_eq (p := p) t n furthest
  unfold orElse
  rcases hp : p ⟨t, n⟩ furthest with ⟨_ | r, furthest'⟩
  · rw [hp] at hreading hextent
    rw [← hreading]
    simp only [Outcome.reading, Option.map_none, Option.elim_none] at hextent ⊢
    rw [Tracked.extent_eq, hextent, shift_max, Nat.max_assoc]
  · rw [hp] at hreading hextent
    rw [← hreading]
    simpa [Outcome.reading] using hextent

instance : Tracked (orElse p q) := by
  refine .of_extent ?_ (extent_orElse p q)
  intro c furthest a c' h
  unfold orElse at h
  rcases hp : p c furthest with ⟨_ | r, furthest'⟩
  · rw [hp] at h
    exact Tracked.advances h
  · rw [hp] at h
    exact Tracked.advances ((congrArg Outcome.result hp).trans h)

/-- Alternatives look as far as one that is tried. -/
@[simp] theorem reach_orElse (t : List Char) :
    (orElse p q).reach t = max (p.reach t) ((p.on t).elim (q.reach t) fun _ => 0) :=
  reach_eq_of_extent (extent_orElse p q) t

end OrElse

instance : Tracked (firstOf ([] : List (Reader α))) :=
  inferInstanceAs (Tracked (fail : Reader α))

instance (p : Reader α) (ps : List (Reader α)) [Steady p] [Tracked p] [Tracked (firstOf ps)] :
    Tracked (firstOf (p :: ps)) :=
  inferInstanceAs (Tracked (orElse p (firstOf ps)))

instance (p : Reader α) [Steady p] [Tracked p] : Tracked (optional p) :=
  inferInstanceAs (Tracked (orElse (some <$> p) (pure none)))

/-- A part that may be missing is looked for as any other. -/
@[simp] theorem reach_optional (p : Reader α) [Steady p] [Tracked p] (t : List Char) :
    (optional p).reach t = p.reach t := by
  unfold optional
  rw [reach_orElse, reach_map]
  cases (some <$> p).on t <;> simp

/-! ## Single characters -/

section Next

variable {accepts : Char → Bool} {note : Cursor → Option Failure → Option Failure}
  (hnote : ∀ c furthest, extent (note c furthest) = max (extent furthest) (c.offset + 1))

include hnote

/-- A character that is not accepted is a failure at its place. -/
theorem extent_next (t : List Char) (n : Nat) (furthest : Option Failure) :
    extent (next accepts note ⟨t, n⟩ furthest).furthest =
      max (extent furthest) (shift n (if t.head?.any accepts then 0 else 1)) := by
  cases t with
  | nil => exact hnote _ furthest
  | cons x rest =>
    simp only [next, List.head?_cons, Option.any_some]
    by_cases hx : accepts x = true
    · simp [hx]
    · simp only [hx, Bool.false_eq_true, if_false]
      exact hnote _ furthest

theorem tracked_next : Tracked (next accepts note) := by
  refine .of_extent ?_ (extent_next hnote)
  rintro ⟨rest, offset⟩ furthest a c' h
  cases rest with
  | nil => exact nomatch h
  | cons x rest =>
    simp only [next] at h
    split at h
    · obtain ⟨-, rfl⟩ := Prod.mk.inj (Option.some.inj h)
      exact ⟨[x], rfl, rfl⟩
    · exact nomatch h

/-- A character is looked at, and no more. -/
theorem reach_next (t : List Char) :
    (next accepts note).reach t = ((next accepts note).on t).elim 1 fun _ => 0 := by
  rw [reach_eq_of_extent (extent_next hnote) t]
  cases t with
  | nil => rfl
  | cons x rest =>
    rw [on_next_cons, List.head?_cons, Option.any_some]
    by_cases hx : accepts x = true
    · rw [if_pos hx, if_pos hx, Option.elim_some]
    · rw [if_neg hx, if_neg hx, Option.elim_none]

end Next

/-- What is missing is a failure at its place. -/
theorem extent_missing (expected : List Expectation) (c : Cursor) (furthest : Option Failure) :
    extent (missing expected c furthest) = max (extent furthest) (c.offset + 1) :=
  Failure.extent_report _ _

instance (x : Char) : Tracked (char x) :=
  tracked_next (extent_missing _)

instance (xs : List Char) : Tracked (oneOf xs) :=
  tracked_next (extent_missing _)

instance (xs : List Char) : Tracked (noneOf xs) :=
  tracked_next (extent_missing _)

instance (accepts : Char → Bool) : Tracked (satisfy accepts) :=
  tracked_next fun _ _ => Failure.extent_fold _ _

@[simp] theorem reach_char (x : Char) (t : List Char) :
    (char x).reach t = ((char x).on t).elim 1 fun _ => 0 :=
  reach_next (extent_missing _) t

@[simp] theorem reach_oneOf (xs t : List Char) :
    (oneOf xs).reach t = ((oneOf xs).on t).elim 1 fun _ => 0 :=
  reach_next (extent_missing _) t

@[simp] theorem reach_noneOf (xs t : List Char) :
    (noneOf xs).reach t = ((noneOf xs).on t).elim 1 fun _ => 0 :=
  reach_next (extent_missing _) t

@[simp] theorem reach_satisfy (accepts : Char → Bool) (t : List Char) :
    (satisfy accepts).reach t = ((satisfy accepts).on t).elim 1 fun _ => 0 :=
  reach_next (fun _ _ => Failure.extent_fold _ _) t

instance (word : List Char) : Tracked (keyword word) := by
  induction word with
  | nil => exact inferInstanceAs (Tracked (pure ()))
  | cons x word _ => exact inferInstanceAs (Tracked (char x >>= fun _ => keyword word))

/-! ## Parts with a name, and checked parts -/

/-- A name changes nothing about how far a part looks. -/
theorem extent_label (name : String) (p : Reader α) [Tracked p] (t : List Char) (n : Nat)
    (furthest : Option Failure) :
    extent (label name p ⟨t, n⟩ furthest).furthest =
      max (extent furthest) (shift n (p.reach t)) := by
  unfold label
  dsimp only
  rw [Failure.extent_fold, Failure.extent_rename, Tracked.extent_eq]
  simp [extent]

instance (name : String) (p : Reader α) [Tracked p] : Tracked (label name p) :=
  .of_extent (fun h => Tracked.advances (p := p) h) (extent_label name p)

@[simp] theorem reach_label (name : String) (p : Reader α) [Tracked p] (t : List Char) :
    (label name p).reach t = p.reach t :=
  reach_eq_of_extent (extent_label name p) t

section Checked

variable (p : Reader α) (f : α → Option β) [Steady p] [Tracked p]

/-- A part whose value is impossible fails at its start, and nothing else is remembered of it. -/
theorem extent_checked (t : List Char) (n : Nat) (furthest : Option Failure) :
    extent (checked p f ⟨t, n⟩ furthest).furthest =
      max (extent furthest) (shift n
        (if (p.on t).any fun r => (f r.1).isNone then 1 else p.reach t)) := by
  have hreading : _ = p.on t := Steady.reading_eq ⟨t, n⟩ none
  have hextent := Tracked.extent_eq (p := p) t n none
  rw [show extent none = 0 from rfl, Nat.zero_max] at hextent
  unfold checked
  rcases hp : p ⟨t, n⟩ none with ⟨_ | ⟨a, c'⟩, inner⟩
  · rw [hp] at hreading hextent
    rw [← hreading]
    simp only [Outcome.reading, Option.map_none, Option.any_none, Bool.false_eq_true, if_false,
      Failure.extent_fold] at hextent ⊢
    rw [hextent]
  · rw [hp] at hreading hextent
    rw [← hreading]
    simp only [Outcome.reading, Option.map_some, Option.any_some] at hextent ⊢
    rcases Option.eq_none_or_eq_some (f a) with hf | ⟨b, hf⟩
    · simp only [hf, Option.isNone_none, if_true, Failure.extent_fold]
      rfl
    · simp only [hf, Option.isNone_some, Bool.false_eq_true, if_false, Failure.extent_fold, hextent]

instance : Tracked (checked p f) := by
  refine .of_extent ?_ (extent_checked p f)
  intro c furthest b c' h
  unfold checked at h
  rcases hp : p c none with ⟨_ | ⟨a, c''⟩, inner⟩
  · rw [hp] at h
    exact nomatch h
  · rw [hp] at h
    cases hf : f a with
    | none => simp [hf] at h
    | some b' =>
      simp only [hf, Option.some.injEq, Prod.mk.injEq] at h
      exact Tracked.advances (a := a) ((congrArg Outcome.result hp).trans (by rw [h.2]))

@[simp] theorem reach_checked (t : List Char) :
    (checked p f).reach t =
      if (p.on t).any fun r => (f r.1).isNone then 1 else p.reach t :=
  reach_eq_of_extent (extent_checked p f) t

end Checked

/-! ## Blanks and the end of the text -/

instance : Tracked skipBlanks where
  advances h := by
    obtain ⟨-, rfl⟩ := Prod.mk.inj (Option.some.inj h)
    refine ⟨_, (List.take_append_drop _ _).symm, ?_⟩
    rw [List.length_take, Nat.min_eq_left (List.takeWhile_prefix _).length_le]
  extent_eq _ _ _ := (Nat.max_zero _).symm

@[simp] theorem reach_skipBlanks (t : List Char) : skipBlanks.reach t = 0 :=
  rfl

/-- The end of the text is missed where there is more. -/
theorem extent_endOfText (t : List Char) (n : Nat) (furthest : Option Failure) :
    extent (endOfText ⟨t, n⟩ furthest).furthest =
      max (extent furthest) (shift n (if t = [] then 0 else 1)) := by
  cases t with
  | nil => exact (Nat.max_zero _).symm
  | cons x rest => exact extent_missing _ _ _

instance : Tracked endOfText := by
  refine .of_extent ?_ extent_endOfText
  rintro ⟨rest, offset⟩ furthest a c' h
  cases rest with
  | nil =>
    obtain ⟨-, rfl⟩ := Prod.mk.inj (Option.some.inj h)
    exact ⟨[], rfl, rfl⟩
  | cons x rest => exact nomatch h

theorem reach_endOfText (t : List Char) : endOfText.reach t = if t = [] then 0 else 1 :=
  reach_eq_of_extent extent_endOfText t

/-! ## Repetitions -/

instance (p : Reader α) [Steady p] [Tracked p] (n : Nat) : Tracked (repeated p n) := by
  induction n with
  | zero => exact inferInstanceAs (Tracked (pure []))
  | succ n _ =>
    rw [repeated]
    refine @Tracked.bind _ _ (optional p) _ _ _ ?_
    intro r
    cases r <;> infer_instance

/-- A repetition looks as far as one of its parts does. -/
theorem reach_repeated_succ (p : Reader α) [Steady p] [Tracked p] (n : Nat) (t : List Char) :
    (repeated p (n + 1)).reach t = max (p.reach t)
      ((p.on t).elim 0 fun r => shift (t.length - r.2.length) ((repeated p n).reach r.2)) := by
  rw [repeated]
  refine (@reach_bind _ _ (optional p) _ _ _ ?_ t).trans ?_
  · intro r
    cases r <;> infer_instance
  · rw [reach_optional, on_optional]
    cases p.on t with
    | none => simp
    | some r =>
      simp only [Option.map_some, Option.some_or, Option.elim_some, reach_bind, reach_pure,
        shift_zero]
      cases (repeated p n).on r.2 <;> simp

instance (p : Reader α) [Steady p] [Tracked p] : Tracked (many p) where
  advances {c _ _ _} h := Tracked.advances (p := repeated p (c.rest.length + 1)) h
  extent_eq t n furthest := Tracked.extent_eq (p := repeated p (t.length + 1)) t n furthest

instance (p : Reader α) [Steady p] [Tracked p] : Tracked (many1 p) :=
  inferInstanceAs (Tracked (p >>= fun a => many p >>= fun as => pure (a :: as)))

section Separated

variable (separator : Reader Unit) (item : Reader α) [Steady separator] [Steady item]
  [Tracked separator] [Tracked item]

instance (n : Nat) : Tracked (separated separator item n) := by
  induction n with
  | zero => exact inferInstanceAs (Tracked (pure []))
  | succ n _ =>
    rw [separated]
    refine @Tracked.bind _ _ (optional item) _ _ _ ?_
    intro r
    cases r with
    | none => infer_instance
    | some a =>
      refine @Tracked.bind _ _ (optional separator) _ _ _ ?_
      intro s
      cases s <;> infer_instance

/-- A list looks as far as one of its items or separators does. -/
theorem reach_separated_succ (n : Nat) (t : List Char) :
    (separated separator item (n + 1)).reach t = max (item.reach t)
      ((item.on t).elim 0 fun r => shift (t.length - r.2.length)
        (max (separator.reach r.2) ((separator.on r.2).elim 0 fun s =>
          shift (r.2.length - s.2.length) ((separated separator item n).reach s.2)))) := by
  rw [separated]
  refine (@reach_bind _ _ (optional item) _ _ _ ?_ t).trans ?_
  · intro r
    cases r with
    | none => infer_instance
    | some a =>
      refine @Tracked.bind _ _ (optional separator) _ _ _ ?_
      intro s
      cases s <;> infer_instance
  · rw [reach_optional, on_optional]
    cases item.on t with
    | none => simp
    | some r =>
      simp only [Option.map_some, Option.some_or, Option.elim_some]
      refine congrArg (fun k => max _ (shift _ k)) ((@reach_bind _ _ (optional separator) _ _ _ ?_
        r.2).trans ?_)
      · intro s
        cases s <;> infer_instance
      · rw [reach_optional, on_optional]
        cases separator.on r.2 with
        | none => simp
        | some s =>
          simp only [Option.map_some, Option.some_or, Option.elim_some, reach_bind, reach_pure,
            shift_zero]
          cases (separated separator item n).on s.2 <;> simp

end Separated

instance : Tracked comma :=
  inferInstanceAs (Tracked (skipBlanks >>= fun _ => char ',' >>= fun _ => skipBlanks))

instance (item : Reader α) [Steady item] [Tracked item] : Tracked (commaSeparated item) where
  advances {c _ _ _} h := Tracked.advances (p := separated comma item (c.rest.length + 1)) h
  extent_eq t n furthest :=
    Tracked.extent_eq (p := separated comma item (t.length + 1)) t n furthest

end Reader

end FindSelect.Literal
