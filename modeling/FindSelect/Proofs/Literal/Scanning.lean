import FindSelect.Literal.Depth
import FindSelect.Proofs.Literal.Derivation
import FindSelect.Shell.Arguments

/-!
# Brackets and quotes in literals

Two scans go over a text before it is read: one counts brackets, the other looks for the commas
between arguments. Neither knows the grammar, but both leave out what stands between quotes. That is
enough for literals, whose brackets come in pairs outside of quotes (`Nested`): the first scan finds
out how deep containers stand inside one another, and the second one finds no comma in them.
-/

namespace FindSelect.Literal

/-! ## Nested texts -/

/-- The characters that mean something to the scans: quotes, brackets and the comma. -/
def marks : List Char :=
  ['\'', '"', '{', '[', '}', ']', ',']

/-- Whether a character means nothing to the scans. -/
def isPlain (c : Char) : Bool :=
  !marks.contains c

/-- Characters of a class without marks mean nothing to the scans. -/
theorem all_isPlain {accepts : Char → Bool} (h : marks.any accepts = false) {w : List Char}
    (hw : w.all accepts = true) : w.all isPlain = true := by
  rw [List.all_eq_true] at hw ⊢
  intro c hc
  by_contra hmark
  have hmem : c ∈ marks := by simpa [isPlain] using hmark
  rw [List.any_eq_false] at h
  exact h c hmem (hw c hc)

/-- Texts whose brackets come in pairs outside of quotes, with the number of brackets that stand
inside one another. Commas outside of brackets and quotes are allowed or not. -/
inductive Nested : Bool → Nat → List Char → Prop where
  /-- The empty text. -/
  | nil {commas : Bool} : Nested commas 0 []
  /-- A character of no meaning. -/
  | plain {commas : Bool} {m : Nat} {w : List Char} {c : Char} (hc : isPlain c = true)
      (h : Nested commas m w) : Nested commas m (c :: w)
  /-- A comma. -/
  | comma {m : Nat} {w : List Char} (h : Nested true m w) : Nested true m (',' :: w)
  /-- A string. -/
  | quoted {commas : Bool} {m : Nat} {w : List Char} (q : Quoted) (h : Nested commas m w) :
      Nested commas m (q.text ++ w)
  /-- A container, in which commas are allowed. -/
  | container {commas : Bool} {m m' : Nat} {inner w : List Char} (k : Kind)
      (hinner : Nested true m' inner) (h : Nested commas m w) :
      Nested commas (max (m' + 1) m) (k.opening :: (inner ++ k.closing :: w))

/-- Two nested texts, one behind the other. -/
theorem Nested.append {commas : Bool} {m m' : Nat} {w w' : List Char} (h : Nested commas m w)
    (h' : Nested commas m' w') : Nested commas (max m m') (w ++ w') := by
  induction h with
  | nil => simpa using h'
  | plain hc _ ih => exact .plain hc (ih h')
  | comma _ ih => exact .comma (ih h')
  | quoted q _ ih =>
    rw [List.append_assoc]
    exact .quoted q (ih h')
  | container k hinner _ _ ih =>
    have hall := Nested.container k hinner (ih h')
    rw [← Nat.max_assoc] at hall
    simpa using hall

/-- A text of characters without meaning is nested. -/
theorem Nested.of_all_isPlain {commas : Bool} {w : List Char} (h : w.all isPlain = true) :
    Nested commas 0 w := by
  induction w with
  | nil => exact .nil
  | cons c w ih =>
    rw [List.all_cons, Bool.and_eq_true] at h
    exact .plain h.1 (ih h.2)

/-- Where commas are forbidden, they may as well be allowed. -/
theorem Nested.allowCommas {commas : Bool} {m : Nat} {w : List Char} (h : Nested commas m w) :
    Nested true m w := by
  induction h with
  | nil => exact .nil
  | plain hc _ ih => exact .plain hc ih
  | comma _ ih => exact .comma ih
  | quoted q _ ih => exact .quoted q ih
  | container k hinner _ _ ih => exact .container k hinner ih

/-! ## Counting brackets -/

/-- A character of no meaning changes nothing. -/
theorem after_of_isPlain {c : Char} (h : isPlain c = true) :
    Quoting.outside.after c = .outside ∧ isOpening c = false ∧ isClosing c = false ∧ c ≠ ',' := by
  simp only [isPlain, marks, Bool.not_eq_true', List.contains_eq_mem, decide_eq_false_iff_not,
    List.mem_cons, List.not_mem_nil, or_false, not_or] at h
  obtain ⟨h₁, h₂, h₃, h₄, h₅, h₆, h₇⟩ := h
  simp [Quoting.after, isOpening, isClosing, h₁, h₂, h₃, h₄, h₅, h₆, h₇]

/-- Whether a string that has been opened is closed exactly at the end of a text. -/
def Closes (q : Quoting) : List Char → Prop
  | [] => q = .outside
  | c :: w => q ≠ .outside ∧ Closes (q.after c) w

/-- A string is closed by its second quote and not before. -/
theorem Quoted.closes (q : Quoted) :
    Closes (.inside q.quote.1) (q.pieces.flatMap Piece.text ++ [q.quote.1]) := by
  obtain ⟨⟨quote, hquote⟩, ps⟩ := q
  have hbackslash : quote ≠ '\\' := by
    rintro rfl
    exact absurd hquote (by decide)
  induction ps with
  | nil => simp [Closes, Quoting.after, hbackslash]
  | cons p ps ih =>
    cases p with
    | plain c hc =>
      obtain ⟨hc, hquote'⟩ : c ≠ '\\' ∧ c ≠ quote := by simpa using hc
      have hstep : (Quoting.inside quote).after c = .inside quote := by
        simp [Quoting.after, hc, hquote']
      refine ⟨by simp, ?_⟩
      rw [hstep]
      exact ih
    | escape e =>
      -- The backslash hides the character behind it, whatever that is.
      have hstep : (Quoting.inside quote).after '\\' = .escaped quote := by simp [Quoting.after]
      refine ⟨by simp, ?_⟩
      rw [hstep]
      exact ⟨by simp, ih⟩

/-- A quote opens a string. -/
theorem Quoted.after_quote (q : Quoted) :
    Quoting.outside.after q.quote.1 = .inside q.quote.1 ∧ isOpening q.quote.1 = false ∧
      isClosing q.quote.1 = false ∧ q.quote.1 ≠ ',' := by
  have hquote := q.quote.2
  generalize q.quote.1 = c at hquote
  rcases List.mem_cons.1 hquote with rfl | hquote
  · decide
  · obtain rfl := List.mem_singleton.1 hquote
    decide

/-- What stands between quotes is not counted. -/
theorem staysWithin_of_closes {q : Quoting} {w : List Char} (h : Closes q w) (limit depth : Nat)
    (rest : List Char) :
    staysWithin limit q depth (w ++ rest) = staysWithin limit .outside depth rest := by
  induction w generalizing q with
  | nil => rw [show q = .outside from h, List.nil_append]
  | cons c w ih =>
    obtain ⟨hq, hw⟩ := h
    rw [← ih hw, List.cons_append]
    cases q with
    | outside => exact absurd rfl hq
    | inside quote => rfl
    | escaped quote => rfl

/-- The count of brackets goes past a nested text, and back to where it was, if the brackets stay
within the limit. -/
theorem Nested.staysWithin {commas : Bool} {m : Nat} {w : List Char} (h : Nested commas m w)
    {limit depth : Nat} (hdepth : depth ≤ limit) (rest : List Char) :
    Literal.staysWithin limit .outside depth (w ++ rest) =
      (decide (depth + m ≤ limit) && Literal.staysWithin limit .outside depth rest) := by
  induction h generalizing depth rest with
  | nil => simp [hdepth]
  | plain hc _ ih =>
    obtain ⟨hafter, hopening, hclosing, -⟩ := after_of_isPlain hc
    rw [← ih hdepth, List.cons_append, Literal.staysWithin, hopening, hclosing, hafter]
    rfl
  | comma _ ih => exact ih hdepth rest
  | @quoted _ m w q _ ih =>
    obtain ⟨hafter, hopening, hclosing, -⟩ := q.after_quote
    have hclose := staysWithin_of_closes q.closes limit depth (w ++ rest)
    rw [← ih hdepth, ← hclose, List.append_assoc, Quoted.text, List.cons_append,
      Literal.staysWithin, hopening, hclosing, hafter]
    rfl
  | @container _ m m' inner w k _ _ ihinner ih =>
    have hopening : isOpening k.opening = true := by cases k <;> decide
    have hclosing : isOpening k.closing = false ∧ isClosing k.closing = true := by
      cases k <;> decide
    have hclose : ∀ depth rest, Literal.staysWithin limit .outside (depth + 1) (k.closing :: rest) =
        Literal.staysWithin limit .outside depth rest := by
      intro depth rest
      rw [Literal.staysWithin, hclosing.1, hclosing.2]
      rfl
    rw [List.cons_append, Literal.staysWithin, hopening, if_pos rfl, List.append_assoc,
      List.cons_append]
    -- The limit may be reached at the opening bracket, or inside, or behind the container.
    by_cases hlimit : depth < limit
    · rw [ihinner hlimit, hclose, ih hdepth, ← Bool.and_assoc, ← Bool.and_assoc]
      refine congrArg (· && _) ?_
      rw [← Bool.decide_and, ← Bool.decide_and, decide_eq_decide]
      omega
    · have hmax : ¬ depth + max (m' + 1) m ≤ limit := by omega
      simp [hlimit, hmax]

/-! ## Looking for commas -/

open Shell (pieces bracketStep)

/-- The pieces of a text behind which others follow. -/
def prepend (w : List Char) : List (List Char) → List (List Char)
  | [] => [w]
  | p :: ps => (w ++ p) :: ps

@[simp] theorem prepend_append (v w : List Char) (ps : List (List Char)) :
    prepend v (prepend w ps) = prepend (v ++ w) ps := by
  cases ps <;> simp [prepend]

/-- A character that separates nothing belongs to the first piece. -/
theorem pieces_cons {q : Quoting} {depth : Int} {c : Char}
    (h : ¬ (q = .outside ∧ c = ',' ∧ depth = 0)) (rest : List Char) :
    pieces q depth (c :: rest) = prepend [c]
      (pieces (q.after c) (if q = .outside then depth + bracketStep c else depth) rest) := by
  rw [pieces, if_neg h]
  dsimp only
  cases pieces (q.after c) (if q = .outside then depth + bracketStep c else depth) rest <;> rfl

/-- A text has at least one piece. -/
theorem pieces_ne_nil (q : Quoting) (depth : Int) (text : List Char) :
    pieces q depth text ≠ [] := by
  cases text with
  | nil => simp [pieces]
  | cons c rest =>
    by_cases h : q = .outside ∧ c = ',' ∧ depth = 0
    · simp [pieces, h]
    · rw [pieces_cons h]
      cases pieces (q.after c) (if q = .outside then depth + bracketStep c else depth) rest <;>
        simp [prepend]

/-- Nothing before a text leaves its pieces as they are. -/
theorem prepend_nil_pieces (q : Quoting) (depth : Int) (text : List Char) :
    prepend [] (pieces q depth text) = pieces q depth text := by
  cases hps : pieces q depth text with
  | nil => exact absurd hps (pieces_ne_nil q depth text)
  | cons p ps => rfl

/-- What stands between quotes separates nothing. -/
theorem pieces_of_closes {q : Quoting} {w : List Char} (h : Closes q w) (depth : Int)
    (rest : List Char) : pieces q depth (w ++ rest) = prepend w (pieces .outside depth rest) := by
  induction w generalizing q with
  | nil => rw [show q = .outside from h, List.nil_append, prepend_nil_pieces]
  | cons c w ih =>
    obtain ⟨hq, hw⟩ := h
    rw [List.cons_append, pieces_cons (fun h => hq h.1), if_neg hq, ih hw, prepend_append]
    rfl

/-- A nested text belongs to one piece, if it stands inside of a bracket or has no commas. -/
theorem Nested.pieces {commas : Bool} {m : Nat} {w : List Char} (h : Nested commas m w)
    {depth : Int} (hdepth : 0 ≤ depth) (hcommas : commas = true → 0 < depth) (rest : List Char) :
    Shell.pieces .outside depth (w ++ rest) = prepend w (Shell.pieces .outside depth rest) := by
  induction h generalizing depth rest with
  | nil => rw [List.nil_append, prepend_nil_pieces]
  | @plain _ m w c hc _ ih =>
    obtain ⟨hafter, hopening, hclosing, hcomma⟩ := after_of_isPlain hc
    have hstep : bracketStep c = 0 := by simp [bracketStep, hopening, hclosing]
    rw [List.cons_append, pieces_cons (fun h => hcomma h.2.1), if_pos rfl, hstep, Int.add_zero,
      hafter, ih hdepth hcommas, prepend_append]
    rfl
  | @comma m w _ ih =>
    -- Where commas are allowed, a bracket is open.
    have hpos := hcommas rfl
    have hstep : bracketStep ',' = 0 := by decide
    rw [List.cons_append, pieces_cons (fun h => by omega), if_pos rfl, hstep, Int.add_zero,
      show Quoting.outside.after ',' = .outside by decide, ih hdepth hcommas, prepend_append]
    rfl
  | @quoted _ m w q _ ih =>
    obtain ⟨hafter, hopening, hclosing, hcomma⟩ := q.after_quote
    have hstep : bracketStep q.quote.1 = 0 := by simp [bracketStep, hopening, hclosing]
    rw [Quoted.text, List.append_assoc, List.cons_append, pieces_cons (fun h => hcomma h.2.1),
      if_pos rfl, hstep, Int.add_zero, hafter,
      pieces_of_closes q.closes, ih hdepth hcommas, prepend_append, prepend_append]
    simp
  | @container _ m m' inner w k _ _ ihinner ih =>
    have hopening : bracketStep k.opening = 1 ∧ Quoting.outside.after k.opening = .outside ∧
        k.opening ≠ ',' := by cases k <;> decide
    have hclosing : bracketStep k.closing = -1 ∧ Quoting.outside.after k.closing = .outside ∧
        k.closing ≠ ',' := by cases k <;> decide
    -- One more bracket is open up to the closing one, and behind it as many as before.
    rw [List.cons_append, List.append_assoc, List.cons_append,
      pieces_cons (fun h => hopening.2.2 h.2.1), if_pos rfl, hopening.1, hopening.2.1,
      ihinner (by omega) (fun _ => by omega), pieces_cons (fun h => hclosing.2.2 h.2.1), if_pos rfl,
      hclosing.1, hclosing.2.1, show depth + 1 + -1 = depth by omega, ih hdepth hcommas]
    simp

/-! ## Phrases and trees -/

mutual
/-- The number of containers of a tree that stand inside one another. -/
def Tree.depth : Tree → Nat
  | .container _ _ items _ => items.depth + 1
  | _ => 0

/-- The number of containers among the items of a container that stand inside one another. -/
def Items.depth {k : Kind} : Items k → Nat
  | .nil => 0
  | .last _ t => t.depth
  | .cons _ t _ _ rest => max t.depth rest.depth
end

/-- Blanks mean nothing to the scans. -/
theorem Blanks.nested {commas : Bool} (b : Blanks) : Nested commas 0 b.chars :=
  .of_all_isPlain (all_isPlain (by decide) b.all)

/-- Digits mean nothing to the scans. -/
theorem Digits.all_isPlain (d : Digits) : d.chars.all isPlain = true :=
  Literal.all_isPlain (by decide) d.all

/-- A number means nothing to the scans. -/
theorem WrittenNumeral.nested {commas : Bool} (w : WrittenNumeral) : Nested commas 0 w.text := by
  have hexponent : ∀ e : WrittenExponent, e.text.all isPlain = true := by
    rintro ⟨⟨letter, hletter⟩, sign, d⟩
    have hletter' : isPlain letter = true := by
      simp only [List.mem_cons, List.not_mem_nil, or_false] at hletter
      rcases hletter with rfl | rfl <;> decide
    have hsign : (sign.elim [] fun c => [c.1]).all isPlain = true := by
      cases sign with
      | none => rfl
      | some c =>
        obtain ⟨c, hc⟩ := c
        simp only [List.mem_cons, List.not_mem_nil, or_false] at hc
        rcases hc with rfl | rfl <;> rfl
    simp only [WrittenExponent.text, List.all_append, hsign, d.all_isPlain, Bool.and_true]
    simpa using hletter'
  apply Nested.of_all_isPlain
  unfold WrittenNumeral.text
  simp only [List.all_append, Bool.and_eq_true]
  refine ⟨⟨⟨?_, w.whole.all_isPlain⟩, ?_⟩, ?_⟩
  · cases w.negative <;> decide
  · cases w.fraction with
    | none => rfl
    | some d =>
      rw [Option.elim_some, List.all_cons, d.all_isPlain]
      decide
  · cases w.exponent with
    | none => rfl
    | some e => exact hexponent e

/-- A string stands for itself. -/
theorem Quoted.nested {commas : Bool} (q : Quoted) : Nested commas 0 q.text := by
  have h : Nested commas 0 (q.text ++ []) := .quoted q .nil
  rwa [List.append_nil] at h

/-- A key means nothing to the scans. -/
theorem Key.nested {commas : Bool} (key : Key) : Nested commas 0 key.text := by
  cases key with
  | quoted q => exact q.nested
  | bare run => exact .of_all_isPlain (all_isPlain (by decide +kernel) run.all)

/-- A label means nothing to the scans. -/
theorem Label.nested {commas : Bool} {k : Kind} (label : Label k) : Nested commas 0 label.text := by
  cases label with
  | none => exact .nil
  | key key gap lead =>
    have hcolon : Nested commas 0 (':' :: lead.chars) := .plain (by decide) lead.nested
    exact key.nested.append (gap.nested.append hcolon)

/-- Whether commas stand outside of the brackets of a phrase: between items they do. -/
def Category.commas : Category → Bool
  | value => false
  | items _ => true

/-- The brackets of what is derived come in pairs, as many of them inside one another as
containers. -/
theorem Derives.nested {c : Category} {p : Phrase c} {w : List Char} (h : Derives p w) :
    Nested c.commas p.depth w := by
  induction h with
  | null => exact .of_all_isPlain (by decide)
  | bool b => cases b <;> exact .of_all_isPlain (by decide)
  | number w => exact w.nested
  | string q => exact q.nested
  | container k lead trail _ ih =>
    have hinner := lead.nested.append (ih.append trail.nested)
    have hall := Nested.container k hinner (show Nested false 0 [] from .nil)
    simpa [Phrase.depth, Category.commas] using hall
  | nil => exact .nil
  | last label _ ih =>
    have hitem := label.nested.append ih.allowCommas
    simpa [Phrase.depth, Category.commas] using hitem
  | cons label gap lead _ _ ih ihrest =>
    have hcomma := Nested.comma (lead.nested.append ihrest)
    have hitem := label.nested.append (ih.allowCommas.append (gap.nested.append hcomma))
    simpa [Phrase.depth, Category.commas] using hitem

/-- The scan of brackets lets what is derived pass, with blanks around it, if it is not too deep. -/
theorem Phrase.Writes.staysWithin {p : Phrase .value} {text : List Char} (h : p.Writes text)
    (limit : Nat) : Literal.staysWithin limit .outside 0 text = decide (p.depth ≤ limit) := by
  obtain ⟨lead, trail, w, hw, rfl⟩ := h
  have hnested := lead.nested.append (hw.nested.append trail.nested)
  have hscan := hnested.staysWithin (Nat.zero_le limit) []
  simpa [Literal.staysWithin] using hscan

mutual
/-- A tree is as deep as its phrase. -/
theorem Tree.depth_phrase (t : Tree) : t.phrase.depth = t.depth := by
  cases t with
  | null | bool b | number w n h | string q => rfl
  | container k lead items trail => exact congrArg (· + 1) items.depth_phrase

/-- The items of a container are as deep as their phrase. -/
theorem Items.depth_phrase {k : Kind} : (is : Items k) → is.phrase.depth = is.depth
  | .nil => rfl
  | .last label t => by
    rw [Items.phrase, Phrase.depth, t.depth_phrase, Phrase.depth, Items.depth, Nat.max_zero]
  | .cons label t gap lead others => by
    rw [Items.phrase, Phrase.depth, t.depth_phrase, others.depth_phrase, Items.depth]
end

/-- The brackets of a tree come in pairs, as many of them inside one another as containers. -/
theorem Tree.nested (t : Tree) : Nested false t.depth t.text :=
  t.depth_phrase ▸ t.derives.nested

end FindSelect.Literal
