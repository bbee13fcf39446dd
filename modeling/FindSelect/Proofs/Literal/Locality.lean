import FindSelect.Proofs.Literal.Completion

/-!
# Readers depend on what they look at

A reader that has not looked beyond a beginning of a text does the same on every other text with
that beginning (`Shadows`): it fails there too, or it reads the same if it stops before the end of
the beginning. For the parts of a grammar that hold no values this is so without a condition
(`Local`). For the others a condition on the text can be carried along, and the reader on the other
text may have another bound.

In a sequence, a first part can read beyond the beginning without a failure. Then a second part that
fails has to fail beyond it, and for that a reader must not fail without a report (`Reports`).
-/

namespace FindSelect.Literal

namespace Reader

variable {α β : Type}

/-! ## Failures are reported -/

/-- A reader that does not fail without a report. -/
class Reports (p : Reader α) : Prop where
  /-- Where the reader fails, it looks at a character. -/
  reach_pos : ∀ {t}, p.on t = none → 0 < p.reach t

instance (a : α) : Reports (pure a : Reader α) :=
  ⟨fun h => nomatch h⟩

instance (p : Reader α) (f : α → Reader β) [Steady p] [Tracked p] [∀ a, Steady (f a)]
    [∀ a, Tracked (f a)] [Reports p] [∀ a, Reports (f a)] : Reports (p >>= f) where
  reach_pos := by
    intro t h
    rw [on_bind] at h
    rw [reach_bind]
    cases ht : p.on t with
    | none => exact Nat.lt_of_lt_of_le (Reports.reach_pos ht) (Nat.le_max_left _ _)
    | some r =>
      rw [ht, Option.bind_some] at h
      have hpos := Reports.reach_pos h
      rw [Option.elim_some, shift_of_pos _ hpos]
      omega

instance (f : α → β) (p : Reader α) [Steady p] [Tracked p] [Reports p] : Reports (f <$> p) :=
  inferInstanceAs (Reports (p >>= fun a => pure (f a)))

instance (p q : Reader α) [Steady p] [Tracked p] [Steady q] [Tracked q] [Reports p] :
    Reports (orElse p q) where
  reach_pos := by
    intro t h
    rw [on_orElse, Option.or_eq_none_iff] at h
    rw [reach_orElse]
    exact Nat.lt_of_lt_of_le (Reports.reach_pos h.1) (Nat.le_max_left _ _)

instance (p : Reader α) (ps : List (Reader α)) [Steady p] [Tracked p] [Steady (firstOf ps)]
    [Tracked (firstOf ps)] [Reports p] : Reports (firstOf (p :: ps)) :=
  inferInstanceAs (Reports (orElse p (firstOf ps)))

instance (p : Reader α) [Steady p] : Reports (optional p) where
  reach_pos := by
    intro t h
    rw [on_optional] at h
    cases ht : p.on t <;> simp [ht] at h

instance (x : Char) : Reports (char x) where
  reach_pos h := by
    rw [reach_char, h]
    exact Nat.one_pos

instance (xs : List Char) : Reports (noneOf xs) where
  reach_pos h := by
    rw [reach_noneOf, h]
    exact Nat.one_pos

instance (accepts : Char → Bool) : Reports (satisfy accepts) where
  reach_pos h := by
    rw [reach_satisfy, h]
    exact Nat.one_pos

instance (word : List Char) : Reports (keyword word) := by
  induction word with
  | nil => exact inferInstanceAs (Reports (pure ()))
  | cons x word _ => exact inferInstanceAs (Reports (char x >>= fun _ => keyword word))

instance (name : String) (p : Reader α) [Tracked p] [Reports p] : Reports (label name p) where
  reach_pos h := by
    rw [reach_label]
    exact Reports.reach_pos (p := p) h

instance : Reports skipBlanks where
  reach_pos h := by
    rw [on_skipBlanks] at h
    exact nomatch h

instance : Reports endOfText where
  reach_pos := by
    intro t h
    rw [reach_endOfText]
    cases t with
    | nil => exact nomatch h
    | cons c t => exact Nat.one_pos

/-- A repetition does not fail. -/
theorem on_repeated_ne_none (p : Reader α) [Steady p] (n : Nat) (t : List Char) :
    (repeated p n).on t ≠ none := by
  induction n generalizing t with
  | zero => exact fun h => nomatch h
  | succ n ih =>
    rw [on, reading_repeated_succ, Cursor.start]
    cases p.on t with
    | none => exact fun h => nomatch h
    | some r =>
      intro h
      exact ih r.2 (Option.map_eq_none_iff.1 h)

instance (p : Reader α) [Steady p] (n : Nat) : Reports (repeated p n) :=
  ⟨fun h => absurd h (on_repeated_ne_none p n _)⟩

instance (p : Reader α) [Steady p] : Reports (many p) :=
  ⟨fun h => absurd h (on_repeated_ne_none p _ _)⟩

instance (p : Reader α) [Steady p] [Tracked p] [Reports p] : Reports (many1 p) :=
  inferInstanceAs (Reports (p >>= fun a => many p >>= fun as => pure (a :: as)))

/-- A list of items does not fail. -/
theorem on_separated_ne_none (separator : Reader Unit) (item : Reader α) [Steady separator]
    [Steady item] (n : Nat) (t : List Char) : (separated separator item n).on t ≠ none := by
  induction n generalizing t with
  | zero => exact fun h => nomatch h
  | succ n ih =>
    rw [on, reading_separated_succ, Cursor.start]
    cases item.on t with
    | none => exact fun h => nomatch h
    | some r =>
      rw [Option.elim_some]
      cases separator.on r.2 with
      | none => exact fun h => nomatch h
      | some r' =>
        intro h
        exact ih r'.2 (Option.map_eq_none_iff.1 h)

instance (separator : Reader Unit) (item : Reader α) [Steady separator] [Steady item] (n : Nat) :
    Reports (separated separator item n) :=
  ⟨fun h => absurd h (on_separated_ne_none separator item n _)⟩

instance (item : Reader α) [Steady item] : Reports (commaSeparated item) :=
  ⟨fun h => absurd h (on_separated_ne_none comma item _ _)⟩

/-! ## Readers that read something -/

/-- A reader that reads at least one character. -/
class Consumes (p : Reader α) : Prop where
  /-- The text behind what was read is shorter. -/
  length_lt : ∀ {t a rest}, p.on t = some (a, rest) → rest.length < t.length

/-- What is left of a text is not longer than the text. -/
theorem length_le_of_on {p : Reader α} [Tracked p] {t : List Char} {a : α} {rest : List Char}
    (h : p.on t = some (a, rest)) : rest.length ≤ t.length := by
  obtain ⟨w, rfl⟩ := exists_append_of_on h
  rw [List.length_append]
  exact Nat.le_add_left _ _

instance (accepts : Char → Bool) (note : Cursor → Option Failure → Option Failure) :
    Consumes (next accepts note) where
  length_lt := by
    intro t a rest h
    cases t with
    | nil => exact nomatch h
    | cons c t =>
      rw [on_next_cons] at h
      split at h
      · obtain ⟨-, rfl⟩ := Prod.mk.inj (Option.some.inj h)
        exact Nat.lt_succ_self _
      · exact nomatch h

instance (xs : List Char) : Consumes (noneOf xs) :=
  inferInstanceAs (Consumes (next _ _))

instance (accepts : Char → Bool) : Consumes (satisfy accepts) :=
  inferInstanceAs (Consumes (next _ _))

instance (x : Char) : Consumes (char x) :=
  inferInstanceAs (Consumes (next _ _))

instance (p : Reader α) (f : α → Reader β) [∀ a, Steady (f a)] [∀ a, Tracked (f a)] [Consumes p] :
    Consumes (p >>= f) where
  length_lt := by
    intro t b rest h
    rw [on_bind, Option.bind_eq_some_iff] at h
    obtain ⟨r, hr, hrest⟩ := h
    exact Nat.lt_of_le_of_lt (length_le_of_on hrest) (Consumes.length_lt hr)

instance (p q : Reader α) [Steady q] [Consumes p] [Consumes q] : Consumes (orElse p q) where
  length_lt h := by
    rw [on_orElse, Option.or_eq_some_iff] at h
    rcases h with h | ⟨-, h⟩
    · exact Consumes.length_lt h
    · exact Consumes.length_lt h

instance (name : String) (p : Reader α) [Consumes p] : Consumes (label name p) where
  length_lt h := Consumes.length_lt (p := p) h

end Reader

open Reader

/-! ## Readers that do the same on texts with the same beginning -/

section Shadows

variable {α β : Type} {S T : List Char → List Char → Prop}

/-- Whether a reader that has not looked beyond a beginning `u` of a text `u ++ s` is followed by
another one on every text with that beginning, as long as it does not leave the beginning. The
beginning and what follows it may be subject to a condition. -/
def Shadows (S : List Char → List Char → Prop) (p q : Reader α) : Prop :=
  ∀ ⦃u s⦄, S u s → p.reach (u ++ s) ≤ u.length → ∀ s',
    (p.on (u ++ s) = none → q.on (u ++ s') = none) ∧
    ∀ a x, x ≠ [] → p.on (u ++ s) = some (a, x ++ s) → q.on (u ++ s') = some (a, x ++ s')

namespace Shadows

/-- A condition that is stronger. -/
theorem mono {p q : Reader α} (h : Shadows T p q) (hS : ∀ u s, S u s → T u s) : Shadows S p q :=
  fun u s hs => h (hS u s hs)

/-- Reading nothing. -/
theorem pure (a : α) : Shadows S (Pure.pure a) (Pure.pure a) := by
  intro u s _ _ s'
  refine ⟨nofun, fun b x _ h => ?_⟩
  obtain ⟨rfl, hx⟩ := Prod.mk.inj (Option.some.inj h)
  rw [on_pure, List.append_cancel_right hx]

/-- Failing. -/
theorem fail : Shadows S (fail : Reader α) fail := by
  intro u s _ _ s'
  exact ⟨fun _ => rfl, nofun⟩

/-- The text behind what was read starts within the beginning, or the beginning was left. -/
theorem rest_cases {p : Reader α} [Tracked p] {u s : List Char} {a : α} {rest : List Char}
    (h : p.on (u ++ s) = some (a, rest)) :
    (∃ x, x ≠ [] ∧ x.length ≤ u.length ∧ rest = x ++ s) ∨ rest.length ≤ s.length := by
  obtain ⟨w, hw⟩ := exists_append_of_on h
  rcases List.append_eq_append_iff.1 hw with ⟨y, rfl, rfl⟩ | ⟨x, rfl, rfl⟩
  · right
    rw [List.length_append]
    exact Nat.le_add_left _ _
  · cases x with
    | nil => exact .inr (Nat.le_refl _)
    | cons c x => exact .inl ⟨c :: x, List.cons_ne_nil c x, by simp, rfl⟩

/-- One part after another. -/
theorem bind {p p' : Reader α} {f f' : α → Reader β} [Steady p] [Tracked p] [∀ a, Steady (f a)]
    [∀ a, Tracked (f a)] [∀ a, Steady (f' a)] [∀ a, Reports (f a)] (hp : Shadows S p p')
    (hleads : ∀ ⦃u s a x⦄, S u s → p.on (u ++ s) = some (a, x ++ s) → T x s)
    (hf : ∀ a, Shadows T (f a) (f' a)) : Shadows S (p >>= f) (p' >>= f') := by
  intro u s hs hreach s'
  rw [reach_bind] at hreach
  obtain ⟨hnone, hsome⟩ := hp hs (Nat.le_trans (Nat.le_max_left _ _) hreach) s'
  rw [on_bind, on_bind]
  cases ht : p.on (u ++ s) with
  | none =>
    rw [hnone ht]
    exact ⟨fun _ => rfl, nofun⟩
  | some r =>
    obtain ⟨a, rest⟩ := r
    rw [ht, Option.elim_some, List.length_append] at hreach
    dsimp only at hreach
    rcases rest_cases ht with ⟨x, hx, hlength, rfl⟩ | hlength
    · -- The second part starts within the beginning and does not look beyond it either.
      rw [hsome a x hx ht]
      refine hf a (hleads hs ht) ?_ s'
      have hshift := shift_cases (u.length + s.length - (x ++ s).length) ((f a).reach (x ++ s))
      rw [List.length_append] at hshift hreach
      omega
    · -- The first part has left the beginning, so the second one neither fails nor comes back.
      rw [Option.bind_some]
      constructor
      · intro h
        have hpos := Reports.reach_pos h
        rw [shift_of_pos _ hpos] at hreach
        omega
      · intro b x hx h
        have hle := length_le_of_on h
        have hpos := List.length_pos_iff.2 hx
        rw [List.length_append] at hle
        dsimp only at hle
        omega

/-- The value of a part does not matter. -/
theorem map {p p' : Reader α} [Steady p] [Tracked p] (hp : Shadows S p p') (f : α → β) :
    Shadows S (f <$> p) (f <$> p') := by
  show Shadows S (p >>= fun a => Pure.pure (f a)) (p' >>= fun a => Pure.pure (f a))
  exact hp.bind (T := fun _ _ => True) (fun _ _ _ _ _ _ => trivial) fun a => pure (f a)

/-- Alternatives. -/
theorem orElse {p p' q q' : Reader α} [Steady p] [Tracked p] [Steady q] [Tracked q] [Steady q']
    (hp : Shadows S p p') (hq : Shadows S q q') : Shadows S (orElse p q) (orElse p' q') := by
  intro u s hs hreach s'
  rw [reach_orElse] at hreach
  obtain ⟨hnone, hsome⟩ := hp hs (Nat.le_trans (Nat.le_max_left _ _) hreach) s'
  rw [on_orElse, on_orElse]
  cases ht : p.on (u ++ s) with
  | none =>
    rw [ht, Option.elim_none] at hreach
    rw [hnone ht, Option.none_or, Option.none_or]
    exact hq hs (Nat.le_trans (Nat.le_max_right _ _) hreach) s'
  | some r =>
    rw [Option.some_or]
    refine ⟨nofun, fun a x hx h => ?_⟩
    rw [hsome a x hx (ht.trans h), Option.some_or]

/-- Several alternatives. -/
theorem firstOf_cons {p p' : Reader α} {ps ps' : List (Reader α)} [Steady p] [Tracked p]
    [Steady (firstOf ps)] [Tracked (firstOf ps)] [Steady (firstOf ps')] (hp : Shadows S p p')
    (hps : Shadows S (firstOf ps) (firstOf ps')) :
    Shadows S (firstOf (p :: ps)) (firstOf (p' :: ps')) :=
  hp.orElse hps

/-- A part that may be missing. -/
theorem optional {p p' : Reader α} [Steady p] [Tracked p] (hp : Shadows S p p') :
    Shadows S (optional p) (optional p') :=
  (hp.map some).orElse (pure none)

/-- A part with a name. -/
theorem label {p p' : Reader α} [Tracked p] (hp : Shadows S p p') (name : String) :
    Shadows S (label name p) (label name p') := by
  intro u s hs hreach s'
  rw [reach_label] at hreach
  exact hp hs hreach s'

/-- A part whose value is possible. -/
theorem checked {p p' : Reader α} [Steady p] [Tracked p] {f : α → Option β} (hp : Shadows S p p')
    (hf : ∀ u s a rest, S u s → p.on (u ++ s) = some (a, rest) → f a ≠ none) :
    Shadows S (checked p f) (checked p' f) := by
  intro u s hs hreach s'
  have hpossible : ¬ (p.on (u ++ s)).any (fun r => (f r.1).isNone) = true := by
    intro h
    obtain ⟨r, hr, hnone⟩ := (Option.any_eq_true _ _).1 h
    exact hf u s r.1 r.2 hs hr (Option.isNone_iff_eq_none.1 hnone)
  rw [reach_checked, if_neg hpossible] at hreach
  obtain ⟨hnone, hsome⟩ := hp hs hreach s'
  rw [on_checked, on_checked]
  cases ht : p.on (u ++ s) with
  | none =>
    rw [hnone ht]
    exact ⟨fun _ => rfl, nofun⟩
  | some r =>
    obtain ⟨b, hb⟩ := Option.ne_none_iff_exists'.1 (hf u s r.1 r.2 hs ht)
    rw [Option.bind_some, hb]
    refine ⟨nofun, fun b' x hx h => ?_⟩
    obtain ⟨rfl, hrest⟩ := Prod.mk.inj (Option.some.inj h)
    rw [hsome r.1 x hx (by rw [ht, ← hrest]), Option.bind_some, hb]
    rfl

/-- Readers that do the same as others. -/
theorem congr {p p' q q' : Reader α} (hp : ∀ t, p.on t = p'.on t)
    (hreach : ∀ t, p.reach t = p'.reach t) (hq : ∀ t, q.on t = q'.on t) (h : Shadows S p' q') :
    Shadows S p q := by
  intro u s hs hle s'
  rw [hp, hq]
  rw [hreach] at hle
  exact h hs hle s'

end Shadows

end Shadows

/-! ## Characters and blanks -/

section Parts

variable {α β : Type} {S T : List Char → List Char → Prop}

/-- A character. -/
theorem shadows_next {accepts : Char → Bool} {note : Cursor → Option Failure → Option Failure}
    (hnote : ∀ c furthest, extent (note c furthest) = max (extent furthest) (c.offset + 1)) :
    Shadows S (next accepts note) (next accepts note) := by
  intro u s _ hreach s'
  cases u with
  | nil =>
    -- Nothing of the text may be refused, and what is left of it is not longer.
    rw [reach_next hnote] at hreach
    constructor
    · intro h
      rw [h, Option.elim_none] at hreach
      exact absurd hreach (Nat.not_succ_le_zero 0)
    · intro a x hx h
      have htracked : Tracked (next accepts note) := tracked_next hnote
      have hle := length_le_of_on h
      have hpos := List.length_pos_iff.2 hx
      simp only [List.nil_append, List.length_append] at hle
      omega
  | cons c u =>
    rw [List.cons_append, List.cons_append, on_next_cons, on_next_cons]
    split
    · refine ⟨nofun, fun a x _ h => ?_⟩
      obtain ⟨rfl, hx⟩ := Prod.mk.inj (Option.some.inj h)
      rw [List.append_cancel_right hx]
    · exact ⟨fun _ => rfl, nofun⟩

/-- Blanks. -/
theorem shadows_skipBlanks : Shadows S skipBlanks skipBlanks := by
  intro u s _ _ s'
  rw [on_skipBlanks, on_skipBlanks]
  refine ⟨nofun, fun a x hx h => ?_⟩
  have hrest := (Prod.mk.inj (Option.some.inj h)).2
  rw [List.dropWhile_append] at hrest ⊢
  split at hrest
  · -- The beginning is blank, so more is skipped than the beginning.
    have hle := (List.dropWhile_suffix Text.isBlank (l := s)).length_le
    have hpos := List.length_pos_iff.2 hx
    rw [hrest, List.length_append] at hle
    omega
  · rename_i hblank
    rw [if_neg hblank, List.append_cancel_right hrest]

/-- The end of the text. -/
theorem shadows_endOfText : Shadows S endOfText endOfText := by
  intro u s _ hreach s'
  rw [reach_endOfText] at hreach
  cases u with
  | nil =>
    cases s with
    | nil =>
      refine ⟨nofun, fun a x hx h => ?_⟩
      have hrest := (on_endOfText_eq_some.1 h).2
      exact absurd (List.append_eq_nil_iff.1 hrest).1 hx
    | cons c s => exact absurd hreach (Nat.not_succ_le_zero 0)
  | cons c u => exact ⟨fun _ => rfl, nofun⟩

/-! ## Repetitions -/

/-- A repetition is a part and a repetition, or nothing. -/
def oneMore (p : Reader α) (n : Nat) : Reader (List α) :=
  orElse (p >>= fun a => (a :: ·) <$> repeated p n) (pure [])

theorem on_repeated_succ (p : Reader α) [Steady p] (n : Nat) (t : List Char) :
    (repeated p (n + 1)).on t = (oneMore p n).on t := by
  unfold oneMore
  rw [on, reading_repeated_succ, Cursor.start, on_orElse, on_bind]
  cases p.on t with
  | none => rfl
  | some r =>
    obtain ⟨r', hr'⟩ := Option.ne_none_iff_exists'.1 (on_repeated_ne_none p n r.2)
    rw [Option.elim_some, Option.bind_some, on_map, hr']
    rfl

theorem reach_repeated_succ_eq (p : Reader α) [Steady p] [Tracked p] (n : Nat) (t : List Char) :
    (repeated p (n + 1)).reach t = (oneMore p n).reach t := by
  unfold oneMore
  rw [reach_repeated_succ, reach_orElse, reach_bind]
  cases (p >>= fun a => (a :: ·) <$> repeated p n).on t <;> simp [reach_map]

/-- A repetition, if the bounds leave room for the beginning. -/
theorem Shadows.repeated {p p' : Reader α} [Steady p] [Tracked p] [Reports p] [Consumes p]
    [Steady p'] (hp : Shadows S p p')
    (hleads : ∀ ⦃u s a x⦄, S u s → p.on (u ++ s) = some (a, x ++ s) → S x s) (n m : Nat) :
    Shadows (fun u s => S u s ∧ u.length < n ∧ u.length < m) (repeated p n) (repeated p' m) := by
  induction n generalizing m with
  | zero => exact fun u s hs => absurd hs.2.1 (Nat.not_lt_zero _)
  | succ n ih =>
    cases m with
    | zero => exact fun u s hs => absurd hs.2.2 (Nat.not_lt_zero _)
    | succ m =>
      refine .congr (on_repeated_succ p n) (reach_repeated_succ_eq p n) (on_repeated_succ p' m) ?_
      refine .orElse ((hp.mono fun u s hs => hs.1).bind ?_ fun a => (ih m).map _) (.pure _)
      intro u s a x hs hon
      have hlt := Consumes.length_lt hon
      rw [List.length_append, List.length_append] at hlt
      exact ⟨hleads hs.1 hon, by omega, by omega⟩

/-- As many repetitions as there are. -/
theorem Shadows.many {p p' : Reader α} [Steady p] [Tracked p] [Reports p] [Consumes p] [Steady p']
    (hp : Shadows S p p')
    (hleads : ∀ ⦃u s a x⦄, S u s → p.on (u ++ s) = some (a, x ++ s) → S x s) :
    Shadows S (many p) (many p') := by
  intro u s hs hreach s'
  exact hp.repeated hleads ((u ++ s).length + 1) ((u ++ s').length + 1)
    ⟨hs, by rw [List.length_append]; omega, by rw [List.length_append]; omega⟩ hreach s'

section Separated

variable (separator : Reader Unit) (item : Reader α) [Steady separator] [Steady item] (n : Nat)

/-- What stands behind an item: a separator and a list, or nothing. -/
def furtherItems : Reader (List α) :=
  orElse (separator >>= fun _ => separated separator item n) (pure [])

/-- A list is an item with what stands behind it, or nothing. -/
def oneMoreItem : Reader (List α) :=
  orElse (item >>= fun a => (a :: ·) <$> furtherItems separator item n) (pure [])

instance : Steady (furtherItems separator item n) := by
  unfold furtherItems
  infer_instance

instance [Tracked separator] [Tracked item] : Tracked (furtherItems separator item n) := by
  unfold furtherItems
  infer_instance

instance [Tracked separator] [Tracked item] [Reports separator] :
    Reports (furtherItems separator item n) := by
  unfold furtherItems
  infer_instance

theorem on_separated_succ (t : List Char) :
    (separated separator item (n + 1)).on t = (oneMoreItem separator item n).on t := by
  rw [on, reading_separated_succ, Cursor.start, oneMoreItem, on_orElse, on_bind]
  cases item.on t with
  | none => rfl
  | some r =>
    rw [Option.elim_some, Option.bind_some, on_map, furtherItems, on_orElse, on_bind]
    cases separator.on r.2 with
    | none => rfl
    | some r' =>
      obtain ⟨r'', hr''⟩ :=
        Option.ne_none_iff_exists'.1 (on_separated_ne_none separator item n r'.2)
      rw [Option.elim_some, Option.bind_some, hr'']
      rfl

theorem reach_separated_succ_eq [Tracked separator] [Tracked item] (t : List Char) :
    (separated separator item (n + 1)).reach t = (oneMoreItem separator item n).reach t := by
  have hfurther : ∀ t, (furtherItems separator item n).reach t =
      max (separator.reach t) ((separator.on t).elim 0 fun r =>
        shift (t.length - r.2.length) ((separated separator item n).reach r.2)) := by
    intro t
    rw [furtherItems, reach_orElse, reach_bind]
    cases (separator >>= fun _ => separated separator item n).on t <;> simp
  rw [reach_separated_succ, oneMoreItem, reach_orElse, reach_bind]
  simp only [reach_map, hfurther]
  cases (item >>= fun a => (a :: ·) <$> furtherItems separator item n).on t <;> simp

end Separated

/-- A list, if the bounds leave room for the beginning. -/
theorem Shadows.separated {separator : Reader Unit} {item item' : Reader α} [Steady separator]
    [Tracked separator] [Reports separator] [Consumes separator] [Steady item] [Tracked item]
    [Steady item'] (hitem : Shadows S item item') (hseparator : Shadows T separator separator)
    (hleads : ∀ ⦃u s a x⦄, S u s → item.on (u ++ s) = some (a, x ++ s) → T x s)
    (hback : ∀ ⦃u s a x⦄, T u s → separator.on (u ++ s) = some (a, x ++ s) → S x s) (n m : Nat) :
    Shadows (fun u s => S u s ∧ u.length < n ∧ u.length < m) (separated separator item n)
      (separated separator item' m) := by
  induction n generalizing m with
  | zero => exact fun u s hs => absurd hs.2.1 (Nat.not_lt_zero _)
  | succ n ih =>
    cases m with
    | zero => exact fun u s hs => absurd hs.2.2 (Nat.not_lt_zero _)
    | succ m =>
      -- Behind the item the bounds leave room, and behind the separator less room is needed.
      have hfurther : Shadows (fun u s => T u s ∧ u.length < n + 1 ∧ u.length < m + 1)
          (furtherItems separator item n) (furtherItems separator item' m) := by
        refine .orElse ((hseparator.mono fun u s hs => hs.1).bind ?_ fun _ => ih m) (.pure _)
        intro u s a x hs hon
        have hlt := Consumes.length_lt hon
        rw [List.length_append, List.length_append] at hlt
        exact ⟨hback hs.1 hon, by omega, by omega⟩
      refine .congr (on_separated_succ separator item n) (reach_separated_succ_eq separator item n)
        (on_separated_succ separator item' m) ?_
      refine .orElse ((hitem.mono fun u s hs => hs.1).bind ?_ fun a => hfurther.map _) (.pure _)
      intro u s a x hs hon
      have hle := length_le_of_on hon
      rw [List.length_append, List.length_append] at hle
      exact ⟨hleads hs.1 hon, by omega, by omega⟩

/-- A list with commas. -/
theorem Shadows.commaSeparated {item item' : Reader α} [Steady item] [Tracked item] [Steady item']
    [Reports comma] [Consumes comma] (hitem : Shadows S item item')
    (hcomma : Shadows T comma comma)
    (hleads : ∀ ⦃u s a x⦄, S u s → item.on (u ++ s) = some (a, x ++ s) → T x s)
    (hback : ∀ ⦃u s a x⦄, T u s → comma.on (u ++ s) = some (a, x ++ s) → S x s) :
    Shadows S (commaSeparated item) (commaSeparated item') := by
  intro u s hs hreach s'
  exact hitem.separated hcomma hleads hback ((u ++ s).length + 1) ((u ++ s').length + 1)
    ⟨hs, by rw [List.length_append]; omega, by rw [List.length_append]; omega⟩ hreach s'

end Parts

/-! ## Parts that hold no values -/

section Local

variable {α β : Type} {S : List Char → List Char → Prop}

/-- A reader that does the same on texts with the same beginning. -/
class Local (p : Reader α) : Prop where
  /-- Without a condition on the text. -/
  shadows : Shadows (fun _ _ => True) p p

/-- Under any condition. -/
theorem Local.under (p : Reader α) [Local p] : Shadows S p p :=
  Local.shadows.mono fun _ _ _ => trivial

instance (a : α) : Local (pure a : Reader α) :=
  ⟨.pure a⟩

instance : Local (fail : Reader α) :=
  ⟨.fail⟩

instance (p : Reader α) (f : α → Reader β) [Steady p] [Tracked p] [∀ a, Steady (f a)]
    [∀ a, Tracked (f a)] [∀ a, Reports (f a)] [Local p] [∀ a, Local (f a)] : Local (p >>= f) :=
  ⟨Local.shadows.bind (fun _ _ _ _ _ _ => trivial) fun _ => Local.shadows⟩

instance (f : α → β) (p : Reader α) [Steady p] [Tracked p] [Local p] : Local (f <$> p) :=
  ⟨Local.shadows.map f⟩

instance (p q : Reader α) [Steady p] [Tracked p] [Steady q] [Tracked q] [Local p] [Local q] :
    Local (orElse p q) :=
  ⟨Local.shadows.orElse Local.shadows⟩

instance : Local (firstOf ([] : List (Reader α))) :=
  inferInstanceAs (Local fail)

instance (p : Reader α) (ps : List (Reader α)) [Steady p] [Tracked p] [Steady (firstOf ps)]
    [Tracked (firstOf ps)] [Local p] [Local (firstOf ps)] : Local (firstOf (p :: ps)) :=
  ⟨Local.shadows.firstOf_cons Local.shadows⟩

instance (p : Reader α) [Steady p] [Tracked p] [Local p] : Local (optional p) :=
  ⟨Local.shadows.optional⟩

instance (name : String) (p : Reader α) [Tracked p] [Local p] : Local (label name p) :=
  ⟨Local.shadows.label name⟩

instance (x : Char) : Local (char x) :=
  ⟨shadows_next (extent_missing _)⟩

instance (xs : List Char) : Local (oneOf xs) :=
  ⟨shadows_next (extent_missing _)⟩

instance (xs : List Char) : Local (noneOf xs) :=
  ⟨shadows_next (extent_missing _)⟩

instance (accepts : Char → Bool) : Local (satisfy accepts) :=
  ⟨shadows_next fun _ _ => Failure.extent_fold _ _⟩

instance (word : List Char) : Local (keyword word) := by
  induction word with
  | nil => exact inferInstanceAs (Local (pure ()))
  | cons x word _ => exact inferInstanceAs (Local (char x >>= fun _ => keyword word))

instance : Local skipBlanks :=
  ⟨shadows_skipBlanks⟩

instance : Local endOfText :=
  ⟨shadows_endOfText⟩

instance (p : Reader α) [Steady p] [Tracked p] [Reports p] [Consumes p] [Local p] :
    Local (many p) :=
  ⟨Local.shadows.many fun _ _ _ _ _ _ => trivial⟩

instance (p : Reader α) [Steady p] [Tracked p] [Reports p] [Consumes p] [Local p] :
    Local (many1 p) :=
  inferInstanceAs (Local (p >>= fun a => many p >>= fun as => pure (a :: as)))

end Local

/-! ## The grammar -/

-- The grammar has sequences of up to six parts, and of each of them four things have to be found.
set_option synthInstance.maxSize 1000

instance : Reports comma :=
  inferInstanceAs (Reports (skipBlanks >>= fun _ => char ',' >>= fun _ => skipBlanks))

instance : Consumes comma where
  length_lt h := by
    obtain ⟨⟨gap, lead⟩, -, rfl⟩ := spells_comma.sound h
    simp only [List.length_append, List.length_cons]
    omega

instance : Local comma :=
  inferInstanceAs (Local (skipBlanks >>= fun _ => char ',' >>= fun _ => skipBlanks))

instance : Reports digits :=
  inferInstanceAs (Reports (many1 _))

instance : Local digits :=
  inferInstanceAs (Local (many1 _))

instance : Local fraction :=
  inferInstanceAs (Local (char '.' >>= fun _ => digits))

instance : Local exponent := by
  unfold exponent
  infer_instance

instance : Local numeral := by
  unfold numeral
  infer_instance

instance : Reports escaped := by
  unfold escaped
  infer_instance

instance : Local escaped := by
  unfold escaped
  infer_instance

instance : Local escape := by
  unfold escape
  infer_instance

instance : Consumes escape := by
  unfold escape
  infer_instance

instance (quote : Char) : Reports (quoted quote) := by
  unfold quoted
  infer_instance

instance (quote : Char) : Local (quoted quote) := by
  unfold quoted
  infer_instance

instance : Reports string := by
  unfold string
  infer_instance

instance : Local string := by
  unfold string
  infer_instance

instance : Local key := by
  unfold key
  infer_instance

section Values

variable {v : Reader Value} [Steady v] [Tracked v]

instance (k : Kind) : Reports (k.container v) := by
  unfold Kind.container
  infer_instance

instance : Reports (object v) :=
  inferInstanceAs (Reports (label _ (Kind.object.container v)))

instance : Reports (core v) :=
  inferInstanceAs (Reports (firstOf (object v :: _)))

end Values

/-- The grammar reports its failures if it has room for a value. -/
instance (n : Nat) : Reports (value (n + 1)) := by
  rw [value_succ]
  infer_instance

end FindSelect.Literal
