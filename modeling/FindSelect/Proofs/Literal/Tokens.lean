import FindSelect.Proofs.Literal.Results
import FindSelect.Proofs.Text.Classes

/-!
# Numbers, strings and keys as they are written

Each kind of token of a literal has a type of its own, whose values are the ways to write a token of
that kind. `Spells` ties a reader to such a type: what the reader reads is always written in one of
these ways, and what is written in one of them is read, if what follows cannot belong to it.
-/

namespace FindSelect.Literal

open Reader

/-- A reader reads exactly what is written in the ways `ι`: a way `i` is written `text i` and stands
for `value i`. Such a text is read whole if what follows is as `ends` says. -/
structure Spells {ι α : Type} (p : Reader α) (text : ι → List Char) (value : ι → α)
    (ends : List Char → Prop) : Prop where
  /-- What is read is written in one of the ways. -/
  sound : ∀ {t a rest}, p.on t = some (a, rest) → ∃ i, value i = a ∧ t = text i ++ rest
  /-- What is written in one of the ways is read. -/
  complete : ∀ i {rest}, ends rest → p.on (text i ++ rest) = some (value i, rest)

/-- Two ways to write that lead to the same text stand for the same and end at the same place. -/
theorem Spells.unique {ι α : Type} {p : Reader α} {text : ι → List Char} {value : ι → α}
    {ends : List Char → Prop} (h : Spells p text value ends) {i j : ι} {rest rest' : List Char}
    (hrest : ends rest) (hrest' : ends rest') (heq : text i ++ rest = text j ++ rest') :
    value i = value j ∧ rest = rest' := by
  have hi := h.complete i hrest
  rw [heq, h.complete j hrest', Option.some.injEq, Prod.mk.injEq] at hi
  exact ⟨hi.1.symm, hi.2.symm⟩

/-- A part that may be missing. What follows it must not be such a part. -/
theorem Spells.optional {ι α : Type} {p : Reader α} {text : ι → List Char} {value : ι → α}
    {ends : List Char → Prop} (h : Spells p text value ends) :
    Spells (optional p) (fun i : Option ι => i.elim [] text) (Option.map value)
      fun rest => ends rest ∧ p.on rest = none where
  sound := by
    intro t a rest ht
    rw [on_optional] at ht
    cases hp : p.on t with
    | none =>
      simp only [hp, Option.map_none, Option.none_or, Option.some.injEq, Prod.mk.injEq] at ht
      exact ⟨none, ht.1, ht.2⟩
    | some r =>
      simp only [hp, Option.map_some, Option.some_or, Option.some.injEq, Prod.mk.injEq] at ht
      obtain ⟨i, hi, htext⟩ := h.sound hp
      exact ⟨some i, by rw [Option.map_some, hi, ht.1], by rw [htext, ht.2]; rfl⟩
  complete := by
    rintro (_ | i) rest ⟨hends, hrest⟩
    · simp [hrest]
    · simp [h.complete i hends]

/-- A certain character. -/
theorem spells_char (x : Char) :
    Spells (char x) (fun _ : Unit => [x]) (fun _ => x) fun _ => True where
  sound h := ⟨(), (on_char_eq_some.1 h).2.symm, (on_char_eq_some.1 h).1⟩
  complete _ _ _ := on_char_cons x _

/-- One of several characters. -/
theorem spells_oneOf (xs : List Char) :
    Spells (oneOf xs) (fun c : { c // c ∈ xs } => [c.1]) (fun c => c.1) fun _ => True where
  sound h := ⟨⟨_, (on_oneOf_eq_some.1 h).2⟩, rfl, (on_oneOf_eq_some.1 h).1⟩
  complete c _ _ := on_oneOf_eq_some.2 ⟨rfl, c.2⟩

section

variable {ι α : Type} {p : Reader α} [Steady p] {text : ι → List Char} {value : ι → α}

/-- What is read by repetition is written in the ways of the part, one after another. -/
theorem Spells.sound_repeated (h : Spells p text value fun _ => True) (n : Nat) {t : List Char}
    {a : List α} {rest : List Char} (ht : (repeated p n).on t = some (a, rest)) :
    ∃ is : List ι, is.map value = a ∧ t = is.flatMap text ++ rest := by
  induction n generalizing t a rest with
  | zero =>
    simp only [repeated, on_pure, Option.some.injEq, Prod.mk.injEq] at ht
    exact ⟨[], ht.1, ht.2⟩
  | succ n ih =>
    rw [on, reading_repeated_succ, Cursor.start] at ht
    cases hp : p.on t with
    | none =>
      simp only [hp, Option.elim_none, Option.some.injEq, Prod.mk.injEq] at ht
      exact ⟨[], ht.1, ht.2⟩
    | some r =>
      simp only [hp, Option.elim_some, Option.map_eq_some_iff, Prod.mk.injEq] at ht
      obtain ⟨r', hr', ha, hrest⟩ := ht
      obtain ⟨i, hi, hti⟩ := h.sound hp
      obtain ⟨is, his, hts⟩ := ih hr'
      refine ⟨i :: is, by rw [List.map_cons, hi, his, ha], ?_⟩
      rw [hti, hts, hrest, List.flatMap_cons, List.append_assoc]

/-- What is written in the ways of a part, one after another, is read by repetition up to where the
part cannot be read, if the bound allows for that many repetitions. -/
theorem Spells.complete_repeated (h : Spells p text value fun _ => True) (is : List ι) {n : Nat}
    {rest : List Char} (hrest : p.on rest = none) (hn : is.length < n) :
    (repeated p n).on (is.flatMap text ++ rest) = some (is.map value, rest) := by
  obtain ⟨n, rfl⟩ := Nat.exists_eq_add_one_of_ne_zero (Nat.ne_of_gt (Nat.zero_lt_of_lt hn))
  induction is generalizing n with
  | nil =>
    rw [on, reading_repeated_succ, Cursor.start]
    simp [hrest]
  | cons i is ih =>
    have hlength : is.length < n := by simpa using hn
    obtain ⟨n, rfl⟩ := Nat.exists_eq_add_one_of_ne_zero (Nat.ne_of_gt (Nat.zero_lt_of_lt hlength))
    have hi : p.on (text i ++ (is.flatMap text ++ rest)) = some (value i, _) :=
      h.complete i trivial
    rw [on, reading_repeated_succ, Cursor.start, List.flatMap_cons, List.append_assoc]
    simp [hi, ih n hlength]

/-- Repetitions of a part that nothing can end but a place where the part cannot be read. -/
theorem Spells.many (h : Spells p text value fun _ => True) (hne : ∀ i, text i ≠ []) :
    Spells (many p) (fun is : List ι => is.flatMap text) (List.map value)
      fun rest => p.on rest = none where
  sound ht := h.sound_repeated _ ht
  complete := by
    intro is rest hrest
    -- Each repetition takes a character, so the bound is not reached.
    have hlength : is.length ≤ (is.flatMap text).length := by
      induction is with
      | nil => simp
      | cons i is ih =>
        have hi := List.length_pos_iff.2 (hne i)
        rw [List.flatMap_cons, List.length_append, List.length_cons]
        omega
    refine h.complete_repeated is hrest ?_
    show is.length < (is.flatMap text ++ rest).length + 1
    rw [List.length_append]
    omega

end

/-- A text that starts with no character of a class. -/
theorem any_head?_eq_false {accepts : Char → Bool} {text : List Char}
    (h : ∀ c ∈ text.head?, accepts c = false) : text.head?.any accepts = false := by
  cases text with
  | nil => rfl
  | cons c text => exact h c rfl

/-! ## Runs of characters -/

/-- A run of one character or more of a class. -/
structure Run (accepts : Char → Bool) where
  /-- The characters. -/
  chars : List Char
  /-- There is one. -/
  ne_nil : chars ≠ []
  /-- They are of the class. -/
  all : chars.all accepts = true

/-- A run starts with a character of its class. -/
theorem Run.head_accepted {accepts : Char → Bool} (run : Run accepts) (rest : List Char) :
    ∀ c ∈ (run.chars ++ rest).head?, accepts c = true := by
  obtain ⟨chars, hne, hall⟩ := run
  cases chars with
  | nil => exact absurd rfl hne
  | cons c chars =>
    rw [List.all_cons, Bool.and_eq_true] at hall
    intro x hx
    obtain rfl : c = x := by simpa using hx
    exact hall.1

/-- A run of blanks, possibly empty. -/
structure Blanks where
  /-- The characters. -/
  chars : List Char
  /-- They are blank. -/
  all : chars.all Text.isBlank = true

/-- A repeated character is read as far as it goes. -/
theorem on_many_satisfy (accepts : Char → Bool) (text : List Char) :
    (many (satisfy accepts)).on text =
      some (text.takeWhile accepts, text.dropWhile accepts) := by
  -- The bound on the number of repetitions is above the length of the text.
  have hrepeated : ∀ n text, text.length < n → (repeated (satisfy accepts) n).on text =
      some (text.takeWhile accepts, text.dropWhile accepts) := by
    intro n
    induction n with
    | zero => simp
    | succ n ih =>
      intro text htext
      rw [on, reading_repeated_succ]
      cases text with
      | nil => rfl
      | cons c rest =>
        have hrest := ih rest (by simpa using htext)
        have hc : (satisfy accepts).on (c :: rest) = if accepts c then some (c, rest) else none :=
          on_next_cons _ _ c rest
        by_cases h : accepts c = true
        · simp [Cursor.start, hc, h, hrest]
        · simp [Cursor.start, hc, h]
  exact hrepeated _ text (Nat.lt_succ_self _)

/-- One character of a class or more are read as a run. -/
theorem spells_run (accepts : Char → Bool) :
    Spells (many1 (satisfy accepts)) (fun run : Run accepts => run.chars) (fun run => run.chars)
      fun rest => rest.head?.any accepts = false := by
  have hsatisfy : ∀ c rest, (satisfy accepts).on (c :: rest) =
      if accepts c then some (c, rest) else none := fun c rest => on_next_cons _ _ c rest
  have hmany1 : ∀ text, (many1 (satisfy accepts)).on text =
      ((satisfy accepts).on text).bind fun r =>
        some (r.1 :: r.2.takeWhile accepts, r.2.dropWhile accepts) := by
    intro text
    unfold many1
    simp only [on_bind, on_pure, on_many_satisfy, Option.bind_some]
  constructor
  · intro t a rest h
    rw [hmany1] at h
    cases t with
    | nil => exact absurd h (by simp [satisfy])
    | cons c t =>
      rw [hsatisfy] at h
      by_cases hc : accepts c = true
      · simp only [hc, if_true, Option.bind_some, Option.some.injEq, Prod.mk.injEq] at h
        obtain ⟨rfl, rfl⟩ := h
        have hall : (c :: t.takeWhile accepts).all accepts = true := by
          rw [List.all_cons, hc, List.all_takeWhile]
          rfl
        exact ⟨⟨c :: t.takeWhile accepts, by simp, hall⟩, rfl, by simp⟩
      · simp [hc] at h
  · rintro ⟨chars, hne, hall⟩ rest hrest
    cases chars with
    | nil => exact absurd rfl hne
    | cons c chars =>
      rw [List.all_cons, Bool.and_eq_true] at hall
      obtain ⟨htake, hdrop⟩ := Text.takeWhile_run hall.2 hrest
      simp only [hmany1, List.cons_append, hsatisfy, hall.1, if_true, Option.bind_some, htake,
        hdrop]

/-! ## Numbers -/

/-- The digits of a number. -/
abbrev Digits : Type :=
  Run Text.isAsciiDigit

/-- An exponent as it is written. -/
structure WrittenExponent where
  /-- The letter before it. -/
  letter : { c // c ∈ ['e', 'E'] }
  /-- The sign, if there is one. -/
  sign : Option { c // c ∈ ['+', '-'] }
  /-- The digits. -/
  digits : Digits

/-- A number as it is written. -/
structure WrittenNumeral where
  /-- Whether there is a minus sign. -/
  negative : Bool
  /-- The digits before the point. -/
  whole : Digits
  /-- The digits after the point, if there is one. -/
  fraction : Option Digits
  /-- The exponent, if there is one. -/
  exponent : Option WrittenExponent

namespace WrittenExponent

/-- The text of an exponent. -/
def text (e : WrittenExponent) : List Char :=
  [e.letter.1] ++ (e.sign.elim [] fun c => [c.1]) ++ e.digits.chars

/-- The exponent that is written. -/
def exponent (e : WrittenExponent) : Exponent :=
  ⟨e.sign.map Subtype.val == some '-', e.digits.chars⟩

end WrittenExponent

namespace WrittenNumeral

/-- The text of a number. -/
def text (n : WrittenNumeral) : List Char :=
  (if n.negative then ['-'] else []) ++ n.whole.chars ++
    (n.fraction.elim [] fun d => '.' :: d.chars) ++ n.exponent.elim [] WrittenExponent.text

/-- The numeral that is written. -/
def numeral (n : WrittenNumeral) : Numeral :=
  ⟨n.negative, n.whole.chars, n.fraction.map Run.chars, n.exponent.map WrittenExponent.exponent⟩

end WrittenNumeral

instance : Steady digits :=
  inferInstanceAs (Steady (many1 _))

instance : Steady fraction :=
  inferInstanceAs (Steady (char '.' >>= fun _ => digits))

/-- Digits are read as far as they go. -/
theorem spells_digits :
    Spells digits (fun d : Digits => d.chars) (fun d => d.chars)
      fun rest => rest.head?.any Text.isAsciiDigit = false :=
  spells_run Text.isAsciiDigit

/-- A fraction is read behind its point. -/
theorem spells_fraction :
    Spells fraction (fun d : Digits => '.' :: d.chars) (fun d => d.chars)
      fun rest => rest.head?.any Text.isAsciiDigit = false where
  sound := by
    intro t a rest h
    rw [fraction, on_bind, Option.bind_eq_some_iff] at h
    obtain ⟨⟨c, t'⟩, hpoint, hdigits⟩ := h
    obtain ⟨d, hd, ht'⟩ := spells_digits.sound hdigits
    exact ⟨d, hd, by rw [(on_char_eq_some.1 hpoint).1, List.cons_append, ← ht']⟩
  complete := by
    intro d rest hrest
    rw [fraction, on_bind, List.cons_append, on_char_cons, Option.bind_some]
    exact spells_digits.complete d hrest

instance : Steady exponent := by
  unfold exponent
  infer_instance

/-- A run of digits does not start with a character that is not a digit. -/
theorem Digits.head_not_mem (d : Digits) (rest : List Char) {xs : List Char}
    (hxs : xs.all (!Text.isAsciiDigit ·) = true) : ∀ c ∈ (d.chars ++ rest).head?, c ∉ xs := by
  intro c hc hmem
  have hnot := List.all_eq_true.1 hxs c hmem
  rw [d.head_accepted rest c hc] at hnot
  exact absurd hnot (by decide)

/-- One of several characters is not read where another one stands. -/
theorem on_oneOf_eq_none {xs text : List Char} (h : ∀ c ∈ text.head?, c ∉ xs) :
    (oneOf xs).on text = none := by
  cases text with
  | nil => rfl
  | cons c text =>
    have hc : c ∉ xs := h c rfl
    simp only [oneOf, on_next_cons, List.contains_iff_mem, hc, if_false]

/-- An exponent is read behind its letter. -/
theorem spells_exponent :
    Spells exponent WrittenExponent.text WrittenExponent.exponent
      fun rest => rest.head?.any Text.isAsciiDigit = false := by
  have hletter := spells_oneOf ['e', 'E']
  have hsign := (spells_oneOf ['+', '-']).optional
  constructor
  · intro t a rest h
    simp only [exponent, on_bind, on_pure, Option.bind_eq_some_iff, Option.some.injEq,
      Prod.mk.injEq] at h
    obtain ⟨⟨c, t₁⟩, hc, ⟨sign, t₂⟩, hs, ⟨chars, t₃⟩, hd, rfl, rfl⟩ := h
    obtain ⟨letter, rfl, rfl⟩ := hletter.sound hc
    obtain ⟨i, rfl, rfl⟩ := hsign.sound hs
    obtain ⟨d, rfl, rfl⟩ := spells_digits.sound hd
    exact ⟨⟨letter, i, d⟩, rfl, by simp [WrittenExponent.text]⟩
  · rintro ⟨letter, sign, d⟩ rest hrest
    -- A missing sign is told from the digit that stands in its place.
    have hhead : ∀ c ∈ (d.chars ++ rest).head?, c ∉ ['+', '-'] := d.head_not_mem rest (by decide)
    have hnosign := on_oneOf_eq_none hhead
    simp only [exponent, on_bind, on_pure, WrittenExponent.text, List.append_assoc]
    rw [hletter.complete letter trivial, Option.bind_some, hsign.complete sign ⟨trivial, hnosign⟩,
      Option.bind_some, spells_digits.complete d hrest]
    rfl

/-- A character is not read where another one stands. -/
theorem on_char_eq_none {x : Char} {text : List Char} (h : text.head? ≠ some x) :
    (char x).on text = none := by
  rw [on_char, if_neg h]

/-- A fraction starts with a point. -/
theorem on_fraction_eq_none {text : List Char} (h : text.head? ≠ some '.') :
    fraction.on text = none := by
  rw [fraction, on_bind, on_char_eq_none h]
  rfl

/-- An exponent starts with its letter. -/
theorem on_exponent_eq_none {text : List Char} (h : ∀ c ∈ text.head?, c ∉ ['e', 'E']) :
    exponent.on text = none := by
  rw [exponent, on_bind, on_oneOf_eq_none h]
  rfl

/-- The letter of an exponent is neither a digit nor a point. -/
theorem WrittenExponent.head_letter (e : WrittenExponent) :
    Text.isAsciiDigit e.letter.1 = false ∧ e.letter.1 ≠ '.' := by
  have hletter := e.letter.2
  generalize e.letter.1 = c at hletter
  rcases List.mem_cons.1 hletter with rfl | hletter
  · decide
  · obtain rfl := List.mem_singleton.1 hletter
    decide

/-- Whether the text behind a number does not go on with it. -/
def EndsNumeral (rest : List Char) : Prop :=
  ∀ c ∈ rest.head?, Text.isAsciiDigit c = false ∧ c ∉ ['.', 'e', 'E']

instance : Steady numeral := by
  unfold numeral
  infer_instance

/-- A number is read with all its parts. -/
theorem spells_numeral :
    Spells numeral WrittenNumeral.text WrittenNumeral.numeral EndsNumeral := by
  have hsign := (spells_char '-').optional
  have hfraction := spells_fraction.optional
  have hexponent := spells_exponent.optional
  constructor
  · intro t a rest h
    simp only [numeral, on_bind, on_pure, Option.bind_eq_some_iff, Option.some.injEq,
      Prod.mk.injEq] at h
    obtain ⟨⟨sign, t₁⟩, hs, ⟨whole, t₂⟩, hw, ⟨fraction, t₃⟩, hf, ⟨exponent, t₄⟩, he, rfl, rfl⟩ := h
    obtain ⟨i, rfl, rfl⟩ := hsign.sound hs
    obtain ⟨d, rfl, rfl⟩ := spells_digits.sound hw
    obtain ⟨f, rfl, rfl⟩ := hfraction.sound hf
    obtain ⟨e, rfl, rfl⟩ := hexponent.sound he
    refine ⟨⟨i.isSome, d, f, e⟩, ?_, ?_⟩
    · cases i <;> rfl
    · cases i <;> simp [WrittenNumeral.text]
  · rintro ⟨negative, d, f, e⟩ rest hrest
    -- Behind each part there is the next one, the letter of an exponent, or the rest.
    have hdigit := fun c hc => (hrest c hc).1
    have hletter := fun c hc => (hrest c hc).2
    have htail : ∀ c ∈ (e.elim [] WrittenExponent.text ++ rest).head?,
        Text.isAsciiDigit c = false ∧ c ≠ '.' := by
      cases e with
      | none => exact fun c hc => ⟨hdigit c hc, fun h => hletter c hc (by simp [h])⟩
      | some e =>
        intro c hc
        obtain rfl : e.letter.1 = c := by simpa [WrittenExponent.text] using hc
        exact e.head_letter
    have hmiddle : ∀ c ∈ (f.elim [] (fun d => '.' :: d.chars) ++
        (e.elim [] WrittenExponent.text ++ rest)).head?, Text.isAsciiDigit c = false := by
      cases f with
      | none => exact fun c hc => (htail c hc).1
      | some d =>
        intro c hc
        obtain rfl : '.' = c := by simpa using hc
        decide
    have hminus : ∀ rest, (char '-').on (d.chars ++ rest) = none := by
      intro rest
      have hhead : ∀ c ∈ (d.chars ++ rest).head?, c ∉ ['-'] := d.head_not_mem rest (by decide)
      exact on_char_eq_none fun h => hhead '-' h (by simp)
    have hpoint := on_fraction_eq_none fun h => (htail '.' h).2 rfl
    have hexp := on_exponent_eq_none fun c hc h => hletter c hc (List.mem_cons_of_mem _ h)
    have hnegative : (if negative then ['-'] else []) =
        (if negative then some () else none).elim [] fun _ => ['-'] := by cases negative <;> rfl
    simp only [numeral, on_bind, on_pure, WrittenNumeral.text, List.append_assoc, hnegative]
    rw [hsign.complete _ ⟨trivial, hminus _⟩, Option.bind_some,
      spells_digits.complete d (any_head?_eq_false hmiddle), Option.bind_some,
      hfraction.complete f ⟨any_head?_eq_false fun c hc => (htail c hc).1, hpoint⟩,
      Option.bind_some, hexponent.complete e ⟨any_head?_eq_false hdigit, hexp⟩]
    cases negative <;> rfl

/-! ## Strings -/

/-- The characters behind a backslash, and what each of them stands for. -/
def escapes : List (Char × Char) :=
  [('\\', '\\'), ('/', '/'), ('\'', '\''), ('"', '"'), ('n', '\n'), ('r', '\r'), ('t', '\t')]

instance : Steady escaped := by
  unfold escaped
  infer_instance

instance : Steady escape := by
  unfold escape
  infer_instance

/-- The character behind a backslash. -/
theorem spells_escaped :
    Spells escaped (fun e : { e // e ∈ escapes } => [e.1.1]) (fun e => e.1.2) fun _ => True := by
  constructor
  · intro t a rest h
    have hletter : ∀ c v, (char c >>= fun _ => pure v : Reader Char).on t = some (a, rest) →
        t = c :: rest ∧ a = v := by
      intro c v hc
      rw [on_bind, Option.bind_eq_some_iff] at hc
      obtain ⟨⟨x, t'⟩, hx, hv⟩ := hc
      simp only [on_pure, Option.some.injEq, Prod.mk.injEq] at hv
      exact ⟨by rw [(on_char_eq_some.1 hx).1, hv.2], hv.1.symm⟩
    simp only [escaped, on_firstOf_cons, on_firstOf_nil, Option.or_eq_some_iff] at h
    rcases h with h | ⟨-, h | ⟨-, h | ⟨-, h | ⟨-, h | ⟨-, h | ⟨-, h | ⟨-, h⟩⟩⟩⟩⟩⟩⟩
    · exact ⟨⟨('\\', '\\'), by decide⟩, (on_char_eq_some.1 h).2.symm, (on_char_eq_some.1 h).1⟩
    · exact ⟨⟨('/', '/'), by decide⟩, (on_char_eq_some.1 h).2.symm, (on_char_eq_some.1 h).1⟩
    · exact ⟨⟨('\'', '\''), by decide⟩, (on_char_eq_some.1 h).2.symm, (on_char_eq_some.1 h).1⟩
    · exact ⟨⟨('"', '"'), by decide⟩, (on_char_eq_some.1 h).2.symm, (on_char_eq_some.1 h).1⟩
    · exact ⟨⟨('n', '\n'), by decide⟩, (hletter _ _ h).2.symm, (hletter _ _ h).1⟩
    · exact ⟨⟨('r', '\r'), by decide⟩, (hletter _ _ h).2.symm, (hletter _ _ h).1⟩
    · exact ⟨⟨('t', '\t'), by decide⟩, (hletter _ _ h).2.symm, (hletter _ _ h).1⟩
    · exact absurd h (by simp)
  · rintro ⟨⟨c, v⟩, hmem⟩ rest -
    simp only [escapes, List.mem_cons, Prod.mk.injEq, List.not_mem_nil, or_false] at hmem
    rcases hmem with h | h | h | h | h | h | h <;> obtain ⟨rfl, rfl⟩ := h <;>
      simp [escaped, on_char]

/-- A character of a string between two quotes, as it is written: as it is, or escaped. -/
inductive Piece (quote : Char) where
  /-- A character that stands for itself. -/
  | plain (c : Char) (h : c ∉ ['\\', quote])
  /-- An escape sequence. -/
  | escape (e : { e // e ∈ escapes })

namespace Piece

variable {quote : Char}

/-- The text of a piece. -/
def text : Piece quote → List Char
  | plain c _ => [c]
  | escape e => ['\\', e.1.1]

/-- The character that a piece stands for. -/
def value : Piece quote → Char
  | plain c _ => c
  | escape e => e.1.2

end Piece

/-- A string is read one piece after another. -/
theorem spells_piece (quote : Char) :
    Spells (orElse (noneOf ['\\', quote]) escape) (fun p : Piece quote => p.text) (fun p => p.value)
      fun _ => True where
  sound := by
    intro t a rest h
    rw [on_orElse, Option.or_eq_some_iff] at h
    rcases h with h | ⟨-, h⟩
    · obtain ⟨rfl, ha⟩ := on_noneOf_eq_some.1 h
      exact ⟨.plain a ha, rfl, rfl⟩
    · rw [escape, on_label, on_bind, Option.bind_eq_some_iff] at h
      obtain ⟨⟨c, t'⟩, hc, he⟩ := h
      obtain ⟨e, rfl, rfl⟩ := spells_escaped.sound he
      exact ⟨.escape e, rfl, (on_char_eq_some.1 hc).1⟩
  complete := by
    rintro (⟨c, hc⟩ | e) rest -
    · have hplain : (noneOf ['\\', quote]).on (c :: rest) = some (c, rest) :=
        on_noneOf_eq_some.2 ⟨rfl, hc⟩
      show (orElse _ _).on (c :: rest) = some (c, rest)
      rw [on_orElse, hplain, Option.some_or]
    · have hplain : (noneOf ['\\', quote]).on ('\\' :: e.1.1 :: rest) = none := by
        simp [noneOf]
      have hescape : escape.on ('\\' :: e.1.1 :: rest) = some (e.1.2, rest) := by
        rw [escape, on_label, on_bind, on_char_cons, Option.bind_some]
        exact spells_escaped.complete e trivial
      show (orElse _ _).on ('\\' :: e.1.1 :: rest) = some (e.1.2, rest)
      rw [on_orElse, hplain, Option.none_or, hescape]

/-- A string as it is written. -/
structure Quoted where
  /-- The quote at both ends. -/
  quote : { c // c ∈ ['\'', '"'] }
  /-- The pieces between the quotes. -/
  pieces : List (Piece quote.1)

namespace Quoted

/-- The text of a string. -/
def text (q : Quoted) : List Char :=
  q.quote.1 :: (q.pieces.flatMap Piece.text ++ [q.quote.1])

/-- The content of a string. -/
def content (q : Quoted) : String :=
  String.ofList (q.pieces.map Piece.value)

end Quoted

instance (quote : Char) : Steady (quoted quote) := by
  unfold quoted
  infer_instance

instance : Steady string := by
  unfold string
  infer_instance

/-- A string between two quotes of one kind is read up to the second quote. -/
theorem spells_quoted {quote : Char} (hquote : quote ≠ '\\') :
    Spells (quoted quote)
      (fun ps : List (Piece quote) => quote :: (ps.flatMap Piece.text ++ [quote]))
      (fun ps => String.ofList (ps.map Piece.value)) fun _ => True := by
  have hpieces := (spells_piece quote).many (by rintro (_ | _) <;> simp [Piece.text])
  constructor
  · intro t a rest h
    simp only [quoted, on_bind, on_pure, Option.bind_eq_some_iff, Option.some.injEq,
      Prod.mk.injEq] at h
    obtain ⟨⟨c, t₁⟩, hopen, ⟨chars, t₂⟩, hchars, ⟨c', t₃⟩, hclose, rfl, rfl⟩ := h
    obtain ⟨rfl, -⟩ := on_char_eq_some.1 hopen
    obtain ⟨ps, rfl, rfl⟩ := hpieces.sound hchars
    have ht₂ : t₂ = quote :: t₃ := (on_char_eq_some.1 hclose).1
    exact ⟨ps, rfl, by simp [ht₂]⟩
  · intro ps rest _
    -- The closing quote is neither a plain character nor the start of an escape sequence.
    have hends : (orElse (noneOf ['\\', quote]) escape).on (quote :: rest) = none := by
      rw [on_orElse, escape, on_label, on_bind, on_char_eq_none (by simpa using hquote)]
      simp [noneOf]
    simp only [quoted, on_bind, on_pure, List.cons_append, List.append_assoc, List.nil_append,
      on_char_cons, Option.bind_some]
    rw [hpieces.complete ps hends, Option.bind_some, on_char_cons]
    rfl

/-- A string starts with a quote. -/
theorem on_string_eq_none {text : List Char} (h : ∀ c ∈ text.head?, c ∉ ['\'', '"']) :
    string.on text = none := by
  have hquoted : ∀ quote ∈ ['\'', '"'], (quoted quote).on text = none := by
    intro quote hquote
    rw [quoted, on_bind, on_char_eq_none fun hc => h quote hc hquote]
    rfl
  rw [string, on_label, on_orElse, hquoted _ (by simp), hquoted _ (by simp)]
  rfl

/-- A string is read in quotes of either kind. -/
theorem spells_string : Spells string Quoted.text Quoted.content fun _ => True := by
  have hsingle := spells_quoted (show '\'' ≠ '\\' by decide)
  have hdouble := spells_quoted (show '"' ≠ '\\' by decide)
  constructor
  · intro t a rest h
    rw [string, on_label, on_orElse, Option.or_eq_some_iff] at h
    rcases h with h | ⟨-, h⟩
    · obtain ⟨ps, rfl, rfl⟩ := hsingle.sound h
      exact ⟨⟨⟨'\'', by decide⟩, ps⟩, rfl, rfl⟩
    · obtain ⟨ps, rfl, rfl⟩ := hdouble.sound h
      exact ⟨⟨⟨'"', by decide⟩, ps⟩, rfl, rfl⟩
  · rintro ⟨⟨quote, hquote⟩, ps⟩ rest -
    rw [string, on_label, on_orElse]
    rcases List.mem_cons.1 hquote with rfl | hquote
    · exact congrArg (Option.or · _) (hsingle.complete ps trivial)
    · obtain rfl := List.mem_singleton.1 hquote
      have hother : (quoted '\'').on (Quoted.text ⟨⟨'"', by decide⟩, ps⟩ ++ rest) = none := by
        rw [quoted, on_bind, on_char_eq_none (by simp [Quoted.text])]
        rfl
      rw [hother, Option.none_or]
      exact hdouble.complete ps trivial

/-! ## Keys -/

/-- A key as it is written. -/
inductive Key where
  /-- A key in quotes. -/
  | quoted (q : Quoted)
  /-- A key without quotes. -/
  | bare (run : Run isKeyChar)

namespace Key

/-- The text of a key. -/
def text : Key → List Char
  | quoted q => q.text
  | bare run => run.chars

/-- The name that a key stands for. -/
def name : Key → String
  | quoted q => q.content
  | bare run => String.ofList run.chars

end Key

instance : Steady key := by
  unfold key
  infer_instance

/-- A quote cannot stand in a key without quotes. -/
theorem isKeyChar_of_quote {c : Char} (h : c ∈ ['\'', '"']) : isKeyChar c = false := by
  rcases List.mem_cons.1 h with rfl | h
  · decide +kernel
  · obtain rfl := List.mem_singleton.1 h
    decide +kernel

/-- A key is read with or without quotes. -/
theorem spells_key :
    Spells (orElse string key) Key.text Key.name fun rest => rest.head?.any isKeyChar = false := by
  have hrun := spells_run isKeyChar
  constructor
  · intro t a rest h
    rw [on_orElse, Option.or_eq_some_iff] at h
    rcases h with h | ⟨-, h⟩
    · obtain ⟨q, rfl, rfl⟩ := spells_string.sound h
      exact ⟨.quoted q, rfl, rfl⟩
    · simp only [key, on_label, on_bind, on_pure, Option.bind_eq_some_iff, Option.some.injEq,
        Prod.mk.injEq] at h
      obtain ⟨⟨chars, t'⟩, hchars, rfl, rfl⟩ := h
      obtain ⟨run, rfl, rfl⟩ := hrun.sound hchars
      exact ⟨.bare run, rfl, rfl⟩
  · rintro (q | run) rest hrest
    · rw [on_orElse, show Key.text (.quoted q) = q.text from rfl, spells_string.complete q trivial]
      rfl
    · -- A key without quotes is tried second, but a string cannot start like one.
      have hstring : string.on (run.chars ++ rest) = none := by
        refine on_string_eq_none fun c hc hquote => ?_
        have hchar := run.head_accepted rest c hc
        rw [isKeyChar_of_quote hquote] at hchar
        exact absurd hchar (by decide)
      rw [on_orElse, show Key.text (.bare run) = run.chars from rfl, hstring, Option.none_or, key,
        on_label, on_bind, hrun.complete run hrest]
      rfl

end FindSelect.Literal
