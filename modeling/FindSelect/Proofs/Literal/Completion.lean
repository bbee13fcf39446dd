import FindSelect.Proofs.Literal.Viability

/-!
# The grammar follows the literals

What stands before the furthest failure can be completed to a literal: `follows_value`. A number
that was cut off behind its point or behind the letter of its exponent is completed by a zero, which
keeps it in range. One that is out of range cannot be completed so, but it fails at its start. A
container that was cut off is completed item by item, where a value that is missing may be `null`.
-/

namespace FindSelect.Literal

open Reader

/-! ## Numbers -/

instance : Tracked digits :=
  inferInstanceAs (Tracked (many1 _))

instance : Tracked fraction :=
  inferInstanceAs (Tracked (char '.' >>= fun _ => digits))

instance : Tracked exponent := by
  unfold exponent
  infer_instance

instance : Tracked numeral := by
  unfold numeral
  infer_instance

instance : Tracked number := by
  unfold number
  infer_instance

/-- A repeated character is looked for up to where there is another one. -/
theorem reach_many_satisfy (accepts : Char → Bool) (t : List Char) :
    (many (satisfy accepts)).reach t = (t.takeWhile accepts).length + 1 := by
  -- The bound on the number of repetitions is above the length of the text.
  have hrepeated : ∀ n t, t.length < n →
      (repeated (satisfy accepts) n).reach t = (t.takeWhile accepts).length + 1 := by
    intro n
    induction n with
    | zero => exact fun t ht => absurd ht (Nat.not_lt_zero _)
    | succ n ih =>
      intro t ht
      rw [reach_repeated_succ, reach_satisfy]
      cases t with
      | nil => rfl
      | cons c t =>
        have hrest := ih t (by simpa using ht)
        have hc : (satisfy accepts).on (c :: t) = if accepts c then some (c, t) else none :=
          on_next_cons _ _ c t
        by_cases h : accepts c = true
        · simp [hc, h, hrest, shift]
          omega
        · simp [hc, h]
  exact hrepeated _ t (Nat.lt_succ_self _)

/-- A run of characters is looked for up to its end, and where it is missing at its start. -/
theorem reach_run (accepts : Char → Bool) (t : List Char) :
    (many1 (satisfy accepts)).reach t =
      ((many1 (satisfy accepts)).on t).elim 1 fun r => r.1.length + 1 := by
  have hon : ∀ c t, (satisfy accepts).on (c :: t) = if accepts c then some (c, t) else none :=
    fun c t => on_next_cons _ _ c t
  unfold many1
  rw [reach_bind, on_bind, reach_satisfy]
  cases t with
  | nil => rfl
  | cons c t =>
    by_cases h : accepts c = true
    · simp [hon, h, on_many_satisfy, reach_many_satisfy, shift]
      omega
    · simp [hon, h]

/-- Digits are looked for up to their end, and where they are missing at their start. -/
theorem reach_digits (t : List Char) :
    digits.reach t = (digits.on t).elim 1 fun r => r.1.length + 1 :=
  reach_run _ t

/-- Where digits are looked for, a character is looked at. -/
theorem reach_digits_pos (t : List Char) : 0 < digits.reach t := by
  rw [reach_digits]
  cases digits.on t with
  | none => exact Nat.one_pos
  | some r => exact Nat.succ_pos _

/-- A fraction is looked for up to its end. Where it is missing there is no point, or a point
without a digit behind it. -/
theorem reach_fraction {t rest : List Char} {f : Option (List Char)}
    (h : (optional fraction).on t = some (f, rest)) :
    ∃ f' : Option Digits, f'.map Run.chars = f ∧ t = (f'.elim [] fun d => '.' :: d.chars) ++ rest ∧
      (fraction.reach t ≤ (f'.elim [] fun d => '.' :: d.chars).length + 1 ∨
        f' = none ∧ fraction.reach t = 2 ∧ rest.head? = some '.') := by
  rw [on_optional, fraction, on_bind] at h
  rw [fraction, reach_bind, reach_char]
  cases hpoint : (char '.').on t with
  | none =>
    rw [hpoint] at h
    obtain ⟨rfl, rfl⟩ := Prod.mk.inj (Option.some.inj h)
    exact ⟨none, rfl, rfl, .inl (Nat.le_refl 1)⟩
  | some r =>
    rw [hpoint, Option.bind_some] at h
    obtain ⟨rfl, -⟩ := on_char_eq_some.1 hpoint
    have hlength : ('.' :: r.2).length - r.2.length = 1 := by
      rw [List.length_cons, Nat.add_sub_cancel_left]
    rw [Option.elim_some, Option.elim_some, Nat.zero_max, hlength,
      shift_of_pos 1 (reach_digits_pos _), reach_digits]
    cases hdigits : digits.on r.2 with
    | none =>
      rw [hdigits] at h
      obtain ⟨rfl, rfl⟩ := Prod.mk.inj (Option.some.inj h)
      exact ⟨none, rfl, rfl, .inr ⟨rfl, rfl, rfl⟩⟩
    | some r' =>
      rw [hdigits] at h
      obtain ⟨rfl, rfl⟩ := Prod.mk.inj (Option.some.inj h)
      obtain ⟨d, hd, ht⟩ := spells_digits.sound hdigits
      refine ⟨some d, congrArg some hd, congrArg _ ht, .inl ?_⟩
      rw [Option.elim_some, Option.elim_some, List.length_cons, ← hd]
      omega

/-- What is looked for behind the letter of an exponent: a sign, and digits behind it. -/
theorem reach_signed (t : List Char) :
    ∃ (sign : Option { c // c ∈ ['+', '-'] }) (t' : List Char),
      t = (sign.elim [] fun c => [c.1]) ++ t' ∧
      (optional (oneOf ['+', '-'])).on t = some (sign.map Subtype.val, t') ∧
      max ((oneOf ['+', '-']).reach t) (shift (t.length - t'.length) (digits.reach t')) =
        (sign.elim [] fun c => [c.1]).length + digits.reach t' := by
  cases hsign : (oneOf ['+', '-']).on t with
  | none =>
    have hpos := reach_digits_pos t
    refine ⟨none, t, rfl, by rw [on_optional, hsign]; rfl, ?_⟩
    rw [reach_oneOf, hsign, Nat.sub_self, zero_shift, Option.elim_none, Option.elim_none,
      List.length_nil]
    omega
  | some r =>
    obtain ⟨x, t'⟩ := r
    obtain ⟨c, rfl, rfl⟩ := (spells_oneOf ['+', '-']).sound hsign
    refine ⟨some c, t', rfl, by rw [on_optional, hsign]; rfl, ?_⟩
    rw [reach_oneOf, hsign, shift_of_pos _ (reach_digits_pos t'), Option.elim_some,
      Option.elim_some, List.length_append, Nat.add_sub_cancel, Nat.zero_max]

/-- An exponent is looked for up to its end. Where it is missing there is no letter, or one without
a digit behind it and behind its sign. -/
theorem reach_exponent {t rest : List Char} {e : Option Exponent}
    (h : (optional exponent).on t = some (e, rest)) :
    ∃ e' : Option WrittenExponent, e'.map WrittenExponent.exponent = e ∧
      t = e'.elim [] WrittenExponent.text ++ rest ∧
      (exponent.reach t ≤ (e'.elim [] WrittenExponent.text).length + 1 ∨
        e' = none ∧ ∃ (letter : { c // c ∈ ['e', 'E'] }) (sign : Option { c // c ∈ ['+', '-'] })
          (t' : List Char), rest = letter.1 :: ((sign.elim [] fun c => [c.1]) ++ t') ∧
            exponent.reach t = (sign.elim [] fun c => [c.1]).length + 2) := by
  have hmap : ∀ sign t, (digits >>= fun d => pure ⟨sign == some '-', d⟩ : Reader Exponent).reach t =
      digits.reach t := fun _ t => reach_map _ digits t
  rw [on_optional, exponent, on_bind] at h
  rw [exponent, reach_bind, reach_oneOf]
  cases hletter : (oneOf ['e', 'E']).on t with
  | none =>
    rw [hletter] at h
    obtain ⟨rfl, rfl⟩ := Prod.mk.inj (Option.some.inj h)
    exact ⟨none, rfl, rfl, .inl (Nat.le_refl 1)⟩
  | some r =>
    obtain ⟨x, t₁⟩ := r
    obtain ⟨letter, rfl, rfl⟩ := (spells_oneOf ['e', 'E']).sound hletter
    obtain ⟨sign, t₂, rfl, hsign, hreach⟩ := reach_signed t₁
    have hpos := reach_digits_pos t₂
    rw [hletter, Option.bind_some, on_bind, hsign, Option.bind_some, on_bind] at h
    rw [Option.elim_some, Option.elim_some, Nat.zero_max, reach_bind, reach_optional, hsign,
      Option.elim_some, hmap, hreach, List.length_append, Nat.add_sub_cancel,
      shift_of_pos _ (by omega), reach_digits]
    cases hdigits : digits.on t₂ with
    | none =>
      rw [hdigits] at h
      obtain ⟨rfl, rfl⟩ := Prod.mk.inj (Option.some.inj h)
      refine ⟨none, rfl, rfl, .inr ⟨rfl, letter, sign, t₂, rfl, ?_⟩⟩
      rw [Option.elim_none, List.length_singleton]
      omega
    | some r =>
      rw [hdigits, Option.bind_some, on_pure] at h
      obtain ⟨rfl, rfl⟩ := Prod.mk.inj (Option.some.inj h)
      obtain ⟨d, hd, rfl⟩ := spells_digits.sound hdigits
      refine ⟨some ⟨letter, sign, d⟩, ?_, by simp [WrittenExponent.text], .inl ?_⟩
      · rw [← hd]
        rfl
      · simp only [Option.elim_some, WrittenExponent.text, List.length_append,
          List.length_singleton, ← hd]
        omega

/-- The digit zero. -/
def Digits.zero : Digits :=
  ⟨['0'], List.cons_ne_nil _ _, by decide⟩

/-- Whether a number is another one with a zero added as its fraction or as its exponent. -/
inductive WrittenNumeral.AddsZero (w : WrittenNumeral) : WrittenNumeral → Prop where
  /-- A fraction, behind an integer. -/
  | fraction (hfraction : w.fraction = none) (hexponent : w.exponent = none) :
      AddsZero w { w with fraction := some .zero }
  /-- An exponent, behind a number without one. -/
  | exponent (hexponent : w.exponent = none) (letter : { c // c ∈ ['e', 'E'] })
      (sign : Option { c // c ∈ ['+', '-'] }) :
      AddsZero w { w with exponent := some ⟨letter, sign, .zero⟩ }

/-- How far a number is looked for is known from its parts. -/
theorem reach_numeral {s d f t : List Char} {sign : Option Char} {fraction' : Option (List Char)}
    (hsign : (optional (char '-')).on (s ++ (d ++ (f ++ t))) = some (sign, d ++ (f ++ t)))
    (hwhole : digits.on (d ++ (f ++ t)) = some (d, f ++ t))
    (hfraction : (optional fraction).on (f ++ t) = some (fraction', t)) :
    numeral.reach (s ++ (d ++ (f ++ t))) =
      s.length + d.length +
        max 1 (max (fraction.reach (f ++ t)) (shift f.length (exponent.reach t))) := by
  have hlast : ∀ g : Option Exponent → Numeral,
      (optional exponent >>= fun e => pure (g e)).reach t = exponent.reach t :=
    fun g => (reach_map g (optional exponent) t).trans (reach_optional _ _)
  have hlength : ∀ u v : List Char, (u ++ v).length - v.length = u.length := fun u v => by
    rw [List.length_append, Nat.add_sub_cancel]
  have hminus : (char '-').reach (s ++ (d ++ (f ++ t))) ≤ 1 := by
    rw [reach_char]
    cases (char '-').on _ with
    | none => exact Nat.le_refl 1
    | some r => exact Nat.zero_le 1
  rw [numeral, reach_bind, reach_optional, hsign, Option.elim_some, reach_bind, hwhole,
    Option.elim_some, reach_bind, reach_optional, hfraction, Option.elim_some, hlast, reach_digits,
    hwhole, Option.elim_some, hlength, hlength, hlength]
  dsimp only
  generalize max (fraction.reach (f ++ t)) (shift f.length (exponent.reach t)) = k
  have hdigits := shift_cases d.length k
  have hsign := shift_cases s.length (max (d.length + 1) (shift d.length k))
  omega

/-- The letter of an exponent is no point. -/
theorem reach_exponent_of_point {e : Option WrittenExponent} {rest : List Char}
    (hpoint : (e.elim [] WrittenExponent.text ++ rest).head? = some '.') :
    e = none ∧ exponent.reach (e.elim [] WrittenExponent.text ++ rest) = 1 := by
  have hletter : (oneOf ['e', 'E']).on (e.elim [] WrittenExponent.text ++ rest) = none := by
    refine on_oneOf_eq_none fun c hc => ?_
    obtain rfl : '.' = c := Option.some.inj (hpoint.symm.trans hc)
    decide
  constructor
  · cases e with
    | none => rfl
    | some e => exact absurd (Option.some.inj hpoint) e.head_letter.2
  · rw [exponent, reach_bind, reach_oneOf, hletter]
    rfl

/-- A number is looked for up to its end, or behind it up to where a zero could stand. -/
theorem reach_numeral_of_some {t rest : List Char} {n : Numeral}
    (h : numeral.on t = some (n, rest)) :
    ∃ w : WrittenNumeral, w.numeral = n ∧ t = w.text ++ rest ∧
      (numeral.reach t ≤ w.text.length + 1 ∨
        ∃ w' x, w.AddsZero w' ∧ x <+: rest ∧ w.text ++ x ++ ['0'] = w'.text ∧
          numeral.reach t = (w.text ++ x).length + 1) := by
  simp only [numeral, on_bind, on_pure, Option.bind_eq_some_iff, Option.some.injEq,
    Prod.mk.injEq] at h
  obtain ⟨⟨sign, t₁⟩, hs, ⟨whole, t₂⟩, hw, ⟨f, t₃⟩, hf, ⟨e, t₄⟩, he, rfl, rfl⟩ := h
  dsimp only at hw hf he
  obtain ⟨i, rfl, rfl⟩ := (spells_char '-').optional.sound hs
  obtain ⟨d, rfl, rfl⟩ := spells_digits.sound hw
  obtain ⟨f, rfl, rfl, hfraction⟩ := reach_fraction hf
  have hreach := reach_numeral hs hw hf
  obtain ⟨e, rfl, rfl, hexponent⟩ := reach_exponent he
  have htext : ∀ f e, WrittenNumeral.text ⟨i.isSome, d, f, e⟩ =
      (i.elim [] fun _ => ['-']) ++ d.chars ++ (f.elim [] fun d => '.' :: d.chars) ++
        e.elim [] WrittenExponent.text := by
    intro f e
    cases i <;> rfl
  refine ⟨⟨i.isSome, d, f, e⟩, by cases i <;> rfl, by simp [htext], ?_⟩
  rw [htext, hreach]
  have hshift := shift_cases (f.elim [] fun d => '.' :: d.chars).length
    (exponent.reach (e.elim [] WrittenExponent.text ++ t₄))
  rcases hfraction with hfraction | ⟨rfl, hfraction, hpoint⟩
  · rcases hexponent with hexponent | ⟨rfl, letter, sign, t', rfl, hexponent⟩
    · left
      simp only [List.length_append]
      omega
    · -- The exponent has no digits, so a zero is missing behind its letter and its sign.
      refine .inr ⟨_, letter.1 :: (sign.elim [] fun c => [c.1]), .exponent rfl letter sign,
        ⟨t', rfl⟩, ?_, ?_⟩
      · rw [htext]
        simp [WrittenExponent.text, Digits.zero]
      · simp only [Option.elim_none, List.nil_append, List.length_append, List.length_cons,
          List.length_nil] at hexponent hshift hfraction ⊢
        omega
  · -- The fraction has no digits, and a point does not start an exponent.
    obtain ⟨rfl, hone⟩ := reach_exponent_of_point hpoint
    obtain ⟨t', rfl⟩ : ∃ t', t₄ = '.' :: t' := List.head?_eq_some_iff.1 hpoint
    refine .inr ⟨_, ['.'], .fraction rfl rfl, ⟨t', rfl⟩, ?_, ?_⟩
    · rw [htext]
      simp [Digits.zero]
    · simp only [Option.elim_none, List.nil_append, List.length_append, List.length_cons,
        List.length_nil] at hone hshift hfraction ⊢
      omega

/-- A zero behind the digits of a number multiplies it by ten. -/
theorem ofDigits_concat_zero (digits : List Char) :
    Decimal.ofDigits (digits ++ ['0']) = 10 * Decimal.ofDigits digits := by
  rw [Decimal.ofDigits, List.foldl_append]
  rfl

/-- An integer in range does not overflow. -/
theorem Numeral.InRange.ofDigits_lt {n : Numeral} (h : n.InRange) (hinteger : n.IsInteger) :
    (Decimal.ofDigits n.whole : ℚ) < Binary64.overflow := by
  have hle : Decimal.ofDigits n.whole ≤ 2 ^ 64 := by
    have hrange := h.1 hinteger
    unfold Numeral.integer at hrange
    split at hrange <;> omega
  calc (Decimal.ofDigits n.whole : ℚ) ≤ 2 ^ 64 := by exact_mod_cast hle
    _ < 2 ^ 970 := pow_lt_pow_right₀ (by norm_num) (by norm_num)
    _ ≤ Binary64.overflow := le_mul_of_one_le_left (by positivity) (by norm_num)

/-- A number in range stays in range with a zero as its fraction or its exponent. -/
theorem WrittenNumeral.AddsZero.inRange {w w' : WrittenNumeral} (h : w.AddsZero w')
    (hw : w.numeral.InRange) : w'.numeral.InRange := by
  cases h with
  | fraction hfraction hexponent =>
    have hinteger : w.numeral.IsInteger := by
      simp [Numeral.IsInteger, WrittenNumeral.numeral, hfraction, hexponent]
    have hdecimal : (WrittenNumeral.numeral { w with fraction := some .zero }).decimal =
        ⟨Decimal.ofDigits (w.whole.chars ++ ['0']), -1⟩ := by
      simp [WrittenNumeral.numeral, Numeral.decimal, hexponent, Digits.zero]
    have hrat : (WrittenNumeral.numeral { w with fraction := some .zero }).decimal.toRat =
        Decimal.ofDigits w.whole.chars := by
      rw [hdecimal, Decimal.toRat, ofDigits_concat_zero]
      push_cast
      rw [zpow_neg_one]
      ring
    refine ⟨fun h => absurd h.1 (by simp [WrittenNumeral.numeral]), fun _ => ?_⟩
    rw [hrat]
    exact hw.ofDigits_lt hinteger
  | exponent hexponent letter sign =>
    have hdecimal : (WrittenNumeral.numeral
        { w with exponent := some ⟨letter, sign, .zero⟩ }).decimal = w.numeral.decimal := by
      have hzero : (WrittenExponent.exponent ⟨letter, sign, .zero⟩).value = 0 := by
        rw [Exponent.value]
        split <;> rfl
      simp [WrittenNumeral.numeral, Numeral.decimal, hexponent, hzero]
    refine ⟨fun h => absurd h.2 (by simp [WrittenNumeral.numeral]), fun _ => ?_⟩
    rw [hdecimal]
    by_cases hinteger : w.numeral.IsInteger
    · have hrat : w.numeral.decimal.toRat = Decimal.ofDigits w.numeral.whole := by
        rw [Decimal.toRat, Numeral.decimal, hinteger.1, hinteger.2]
        simp
      rw [hrat]
      exact hw.ofDigits_lt hinteger
    · exact hw.2 hinteger

/-- The numbers in range, as they are written. -/
def numbers : Language Char :=
  texts fun w : { w : WrittenNumeral // w.numeral.InRange } => w.1.text

/-- Zero is in range, with a minus sign or without. -/
theorem zero_mem_numbers (negative : Bool) :
    (if negative then ['-'] else []) ++ ['0'] ∈ numbers := by
  refine ⟨⟨⟨negative, .zero, none, none⟩, ?_⟩, by simp [WrittenNumeral.text, Digits.zero]⟩
  refine Numeral.exists_value?_iff.1 ⟨.integer 0, ?_⟩
  cases negative <;> rfl

/-- Where a number cannot be read there is no digit, and perhaps a minus sign. -/
theorem reach_numeral_of_none {t : List Char} (h : numeral.on t = none) :
    numeral.reach t = 1 ∨ numeral.reach t = 2 ∧ ∃ t', t = '-' :: t' := by
  -- Behind the digits nothing can fail, since all that follows may be missing.
  have hunsigned : ∀ negative t, (do
      let whole ← digits
      let fraction ← optional fraction
      return ⟨negative, whole, fraction, ← optional exponent⟩ : Reader Numeral).on t = none →
      (do
      let whole ← digits
      let fraction ← optional fraction
      return ⟨negative, whole, fraction, ← optional exponent⟩ : Reader Numeral).reach t = 1 := by
    intro negative t ht
    rw [on_bind] at ht
    cases hdigits : digits.on t with
    | none =>
      rw [reach_bind, reach_digits, hdigits, Option.elim_none, Option.elim_none, Nat.max_zero]
    | some r =>
      rw [hdigits, Option.bind_some, on_bind, on_optional] at ht
      cases fraction.on r.2 <;> simp at ht
  rw [numeral, on_bind, on_optional] at h
  rw [numeral, reach_bind, reach_optional, on_optional, reach_char]
  cases hminus : (char '-').on t with
  | none =>
    rw [hminus] at h
    left
    rw [Option.map_none, Option.none_or, Option.elim_none, Option.elim_some, hunsigned _ _ h,
      Nat.sub_self, zero_shift, Nat.max_self]
  | some r =>
    rw [hminus] at h
    obtain ⟨rfl, -⟩ := on_char_eq_some.1 hminus
    refine .inr ⟨?_, r.2, rfl⟩
    rw [Option.map_some, Option.some_or, Option.elim_some, Option.elim_some, hunsigned _ _ h,
      List.length_cons, Nat.add_sub_cancel_left]
    rfl

instance : HasWord numbers :=
  ⟨_, zero_mem_numbers false⟩

/-- A number that is in range. One that is out of range is blamed on its start. -/
theorem follows_number : Follows number numbers where
  reads := by
    intro t a rest h
    obtain ⟨⟨⟨w, n⟩, hw⟩, -, ht⟩ := spells_number.sound h
    exact ⟨w.text, ⟨⟨w, Numeral.exists_value?_iff.1 ⟨n, hw⟩⟩, rfl⟩, ht⟩
  viable := by
    intro t
    rw [number, reach_label, reach_checked]
    cases hn : numeral.on t with
    | none =>
      rw [Option.any_none, if_neg Bool.false_ne_true]
      rcases reach_numeral_of_none hn with hreach | ⟨hreach, t', rfl⟩
      · rw [hreach]
        exact .one
      · rw [hreach]
        exact Viable.of_append (w := ['-']) ⟨_, zero_mem_numbers true⟩ (Nat.le_refl 2)
    | some r =>
      obtain ⟨w, hw, rfl, hreach⟩ := reach_numeral_of_some hn
      rw [Option.any_some]
      cases hvalue : r.1.value? with
      | none => exact .one
      | some m =>
        have hrange : w.numeral.InRange := Numeral.exists_value?_iff.1 ⟨m, by rw [hw, hvalue]⟩
        rw [Option.isNone_some, if_neg Bool.false_ne_true]
        rcases hreach with hreach | ⟨w', x, hzero, ⟨rest', hx⟩, htext, hreach⟩
        · exact Viable.of_append ⟨[], ⟨w, hrange⟩, List.append_nil _⟩ hreach
        · rw [hreach, ← hx, ← List.append_assoc]
          exact Viable.of_append ⟨['0'], ⟨w', hzero.inRange hrange⟩, htext⟩ (Nat.le_refl _)

/-! ## Values -/

/-- The items of containers, with blanks around them. -/
def entries (k : Kind) : Language Char :=
  texts fun e : Entry k => e.text

/-- The literals, without the blanks around them. -/
def trees : Language Char :=
  texts Tree.text

/-- Lists of items, with blanks around them. -/
def itemLists (k : Kind) : Language Char :=
  texts fun l : Blanks × Items k × Blanks => l.1.chars ++ (l.2.1.text ++ l.2.2.chars)

/-- An item that is null, with a label and without blanks. -/
def Label.null {k : Kind} (label : Label k) : Entry k :=
  ⟨⟨[], List.all_nil⟩, label, .null, ⟨[], List.all_nil⟩⟩

instance : HasWord (entries .array) :=
  ⟨_, Label.none.null, rfl⟩

instance (k : Kind) : HasWord (itemLists k) :=
  ⟨_, (⟨[], List.all_nil⟩, .nil, ⟨[], List.all_nil⟩), rfl⟩

section Values

variable {v : Reader Value} [Steady v] [Tracked v]

instance : Tracked (member v) := by
  unfold member
  infer_instance

instance (k : Kind) : Tracked (k.item v) := by
  cases k with
  | array => assumption
  | object => exact inferInstanceAs (Tracked (member v))

instance (k : Kind) : Tracked (k.container v) := by
  unfold Kind.container
  infer_instance

instance : Tracked (object v) :=
  inferInstanceAs (Tracked (label _ (Kind.object.container v)))

instance : Tracked (array v) :=
  inferInstanceAs (Tracked (label _ (Kind.array.container v)))

instance : Tracked (core v) := by
  unfold core
  infer_instance

/-- A member of an object. -/
theorem follows_member (hv : Follows v (entries .array)) :
    Follows (member v) (entries .object) := by
  have hmember : Follows (member v) (texts Blanks.chars *
      (texts Key.text * (texts Blanks.chars * ({[':']} * entries .array)))) :=
    .label (follows_skipBlanks.bind fun _ => follows_key.bind fun name =>
      follows_skipBlanks.bind fun _ => (follows_char ':').bind fun _ => hv.map (Prod.mk name)) _
  refine hmember.mono ?_
  rintro _ ⟨_, ⟨lead, rfl⟩, _, ⟨_, ⟨key, rfl⟩, _, ⟨_, ⟨gap, rfl⟩, _, ⟨_, rfl, _, ⟨e, rfl⟩, rfl⟩,
    rfl⟩, rfl⟩, rfl⟩
  obtain ⟨lead', label, tree, trail⟩ := e
  cases label
  exact ⟨⟨lead, .key key gap lead', tree, trail⟩, by simp [Entry.text, Label.text]⟩

/-- An item of a container. -/
theorem follows_item (k : Kind) (hv : Follows v (entries .array)) :
    Follows (k.item v) (entries k) := by
  cases k with
  | array => exact hv
  | object => exact follows_member hv

/-- The items of a container. -/
theorem follows_items (k : Kind) (hv : Follows v (entries .array)) :
    Follows (commaSeparated (k.item v)) (itemLists k) := by
  refine (follows_item k hv).commaSeparated follows_comma ?_ ?_ ?_
  · exact ⟨(⟨[], List.all_nil⟩, .nil, ⟨[], List.all_nil⟩), rfl⟩
  · rintro _ ⟨e, rfl⟩
    exact ⟨(e.lead, .last e.label e.tree, e.trail), by simp [Entry.text, Items.text]⟩
  · rintro _ ⟨_, ⟨e, rfl⟩, _, ⟨_, ⟨comma, rfl⟩, _, ⟨l, rfl⟩, rfl⟩, rfl⟩
    refine ⟨(e.lead, .cons e.label e.tree (e.trail.append comma.1) (comma.2.append l.1) l.2.1,
      l.2.2), ?_⟩
    simp [Entry.text, Items.text, Blanks.append]

/-- A container. -/
theorem follows_container (k : Kind) (hv : Follows v (entries .array)) :
    Follows (k.container v) trees := by
  have hcontainer : Follows (k.container v) ({[k.opening]} *
      (texts Blanks.chars * (itemLists k * (texts Blanks.chars * {[k.closing]})))) :=
    (follows_char _).bind fun _ => follows_skipBlanks.bind fun _ => (follows_items k hv).bind
      fun items => follows_skipBlanks.bind fun _ => (follows_char _).map fun _ => k.value items
  refine hcontainer.mono ?_
  rintro _ ⟨_, rfl, _, ⟨_, ⟨lead, rfl⟩, _, ⟨_, ⟨l, rfl⟩, _, ⟨_, ⟨trail, rfl⟩, _, rfl, rfl⟩, rfl⟩,
    rfl⟩, rfl⟩
  refine ⟨.container k (lead.append l.1) l.2.1 (l.2.2.append trail), ?_⟩
  simp [Tree.text, Blanks.append]

/-- A value without the blanks around it. -/
theorem follows_core (hv : Follows v (entries .array)) : Follows (core v) trees := by
  have hobject : Follows (object v) trees := (follows_container .object hv).label _
  have harray : Follows (array v) trees := (follows_container .array hv).label _
  have hstring : Follows (Value.string <$> string) trees := by
    refine (follows_string.map _).mono ?_
    rintro _ ⟨q, rfl⟩
    exact ⟨.string q, rfl⟩
  have hnumber : Follows (Value.number <$> number) trees := by
    refine (follows_number.map _).mono ?_
    rintro _ ⟨⟨w, hw⟩, rfl⟩
    obtain ⟨n, hn⟩ := Numeral.exists_value?_iff.2 hw
    exact ⟨.number w n hn, rfl⟩
  have hword : ∀ (t : Tree) (a : Value),
      Follows (do keyword t.text; return a : Reader Value) trees := by
    intro t a
    refine ((follows_keyword t.text).map fun _ => a).mono ?_
    rintro _ rfl
    exact ⟨t, rfl⟩
  exact hobject.firstOf_cons <| harray.firstOf_cons <| hstring.firstOf_cons <|
    hnumber.firstOf_cons <| (hword (.bool true) _).firstOf_cons <|
    (hword (.bool false) _).firstOf_cons <| (hword .null _).firstOf_cons .fail

end Values

instance : HasWord trees :=
  ⟨_, .null, rfl⟩

instance (n : Nat) : Tracked (value n) := by
  induction n with
  | zero => exact inferInstanceAs (Tracked fail)
  | succ n _ =>
    rw [value_succ]
    infer_instance

/-- The grammar follows the literals, with blanks around them. -/
theorem follows_value (n : Nat) : Follows (value n) (entries .array) := by
  induction n with
  | zero => exact .fail
  | succ n ih =>
    have hvalue : Follows (value (n + 1)) (texts Blanks.chars * (trees * texts Blanks.chars)) := by
      rw [value_succ]
      exact follows_skipBlanks.bind fun _ => (follows_core ih).bind fun a =>
        follows_skipBlanks.map fun _ => a
    refine hvalue.mono ?_
    rintro _ ⟨_, ⟨lead, rfl⟩, _, ⟨_, ⟨t, rfl⟩, _, ⟨trail, rfl⟩, rfl⟩, rfl⟩
    exact ⟨⟨lead, .none, t, trail⟩, rfl⟩

end FindSelect.Literal
