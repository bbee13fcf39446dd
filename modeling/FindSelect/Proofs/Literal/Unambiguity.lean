import FindSelect.Proofs.Literal.Acceptance

/-!
# A text is derived in one way

No text can be derived as two phrases (`Phrase.Writes.unique`), so it makes sense to speak of the
value that a text denotes. `parse_accepts_grammar` says that this is the value a text is read as,
and which texts are accepted.

The first character tells by which rule a value is derived (`Derives.shape`). In a list of items the
comma and the bracket behind a value tell whether further ones follow. Blanks do not matter for
that, and are skipped before two texts are compared.
-/

namespace FindSelect.Literal

/-! ## Labels -/

/-- A label is told from the text that starts with it. -/
theorem Label.unique {k : Kind} {label label' : Label k} {t t' : List Char} (ht : StartsLiteral t)
    (ht' : StartsLiteral t') (heq : label.text ++ t = label'.text ++ t') :
    label.name = label'.name ∧ t = t' := by
  cases label with
  | none =>
    cases label'
    exact ⟨rfl, heq⟩
  | key key gap lead =>
    cases label' with
    | key key' gap' lead' =>
      simp only [Label.text, List.append_assoc, List.cons_append] at heq
      -- The key ends before the colon, and the blanks behind the colon before the value.
      have hcolon : Text.isBlank ':' = false := by decide
      have hends : ∀ (b : Blanks) (tail : List Char),
          (b.chars ++ ':' :: tail).head?.any isKeyChar = false :=
        fun b tail => b.not_key (show isKeyChar ':' = false by decide +kernel)
      obtain ⟨hname, hgap⟩ := spells_key.unique (hends gap _) (hends gap' _) heq
      have hlead := congrArg (List.dropWhile Text.isBlank) hgap
      rw [gap.dropWhile_append_cons hcolon, gap'.dropWhile_append_cons hcolon,
        List.cons.injEq] at hlead
      have hvalue := congrArg (List.dropWhile Text.isBlank) hlead.2
      rw [lead.dropWhile_append, lead'.dropWhile_append, ht.dropWhile_eq, ht'.dropWhile_eq]
        at hvalue
      exact ⟨hname, hvalue⟩

/-! ## The shape of a value -/

/-- What the first character tells of a value. -/
inductive Shape where
  /-- The null value. -/
  | null
  /-- A truth value. -/
  | bool (b : Bool)
  /-- A number. -/
  | number
  /-- A string. -/
  | string
  /-- A container. -/
  | container (k : Kind)

/-- The shape of a phrase. -/
def Phrase.shape : Phrase .value → Shape
  | .null => .null
  | .bool b => .bool b
  | .number _ => .number
  | .string _ => .string
  | .container k _ => .container k

/-- The shape of the value that starts with a character, if one does. -/
def shapeOf (c : Char) : Option Shape :=
  if c = '-' ∨ Text.isAsciiDigit c then some .number
  else if c = 'n' then some .null
  else if c = 't' then some (.bool true)
  else if c = 'f' then some (.bool false)
  else if c = '[' then some (.container .array)
  else if c = '{' then some (.container .object)
  else if c = '\'' ∨ c = '"' then some .string
  else none

/-- The first character of a value tells its shape. -/
theorem Derives.shape {p : Phrase .value} {w : List Char} (h : Derives p w) (rest : List Char) :
    (w ++ rest).head?.bind shapeOf = some p.shape := by
  cases h with
  | null => rfl
  | bool b => cases b <;> rfl
  | number w =>
    -- A number starts with its sign or its first digit.
    unfold WrittenNumeral.text
    cases w.negative with
    | true => rfl
    | false =>
      obtain ⟨chars, hne, hall⟩ := w.whole
      obtain ⟨c, chars, rfl⟩ := List.exists_cons_of_ne_nil hne
      rw [List.all_cons, Bool.and_eq_true] at hall
      exact if_pos (.inr hall.1)
  | string q =>
    obtain ⟨⟨quote, hquote⟩, pieces⟩ := q
    simp only [List.mem_cons, List.not_mem_nil, or_false] at hquote
    rcases hquote with rfl | rfl <;> rfl
  | container k lead trail _ => cases k <;> rfl

/-! ## Derivations -/

/-- Whether a text can stand behind a phrase: what does not go on with a number, and for the items
of a container the bracket that closes it, with blanks before it. -/
def Category.Ends : Category → List Char → Prop
  | value, rest => EndsNumeral rest
  | items k, rest => ∃ (trail : Blanks) (tail : List Char), rest = trail.chars ++ k.closing :: tail

/-- Whether a text that starts with `w` can only be derived as the phrase `p`, and only up to the
end of `w`, apart from blanks. -/
def Determines {c : Category} (p : Phrase c) (w : List Char) : Prop :=
  ∀ ⦃p' : Phrase c⦄ ⦃w' rest rest' : List Char⦄, Derives p' w' → c.Ends rest → c.Ends rest' →
    (w ++ rest).dropWhile Text.isBlank = (w' ++ rest').dropWhile Text.isBlank →
    p = p' ∧ rest.dropWhile Text.isBlank = rest'.dropWhile Text.isBlank

/-- A value starts at once, and two values that start with the same character have one shape. -/
theorem Derives.same_shape {p p' : Phrase .value} {w w' rest rest' : List Char} (h : Derives p w)
    (h' : Derives p' w')
    (heq : (w ++ rest).dropWhile Text.isBlank = (w' ++ rest').dropWhile Text.isBlank) :
    w ++ rest = w' ++ rest' ∧ p.shape = p'.shape := by
  have hstart := h.startsLiteral.append rest
  have hstart' := h'.startsLiteral.append rest'
  rw [hstart.dropWhile_eq, hstart'.dropWhile_eq] at heq
  have hshape := h.shape rest
  rw [heq, h'.shape rest', Option.some.injEq] at hshape
  exact ⟨heq, hshape.symm⟩

section Items

variable {k : Kind}

/-- A number ends before the bracket behind it. -/
theorem Kind.endsNumeral_closing (k : Kind) (trail : Blanks) (tail : List Char) :
    EndsNumeral (trail.chars ++ k.closing :: tail) :=
  (k.endsValue_closing tail).endsNumeral trail

/-- A number ends before the comma behind it. -/
theorem endsNumeral_comma (gap : Blanks) (tail : List Char) :
    EndsNumeral (gap.chars ++ ',' :: tail) :=
  (endsValue_comma tail).endsNumeral gap

/-- A closing bracket is not a comma, whatever blanks come before either. -/
theorem Kind.dropWhile_closing_ne_comma (k : Kind) (trail gap : Blanks) (tail tail' : List Char) :
    (trail.chars ++ k.closing :: tail).dropWhile Text.isBlank ≠
      (gap.chars ++ ',' :: tail').dropWhile Text.isBlank := by
  rw [k.dropWhile_closing, gap.dropWhile_append_cons (by decide)]
  intro heq
  cases k <;> exact absurd (List.cons.inj heq).1 (by decide)

/-- A closing bracket does not start an item. -/
theorem Kind.dropWhile_closing_ne_item (k : Kind) (trail : Blanks) (tail : List Char)
    (label : Label k) {t : List Char} (ht : StartsLiteral t) :
    ([] ++ (trail.chars ++ k.closing :: tail)).dropWhile Text.isBlank ≠
      (label.text ++ t).dropWhile Text.isBlank := by
  have hstart := label.startsLiteral ht
  rw [List.nil_append, k.dropWhile_closing, hstart.dropWhile_eq]
  obtain ⟨c, rest, htext, -, hc⟩ := hstart
  rw [htext]
  intro heq
  rw [← (List.cons.inj heq).1] at hc
  cases k <;> exact hc (by decide)

/-- The first item is told from the text behind it. -/
theorem Determines.first {label label' : Label k} {p p' : Phrase .value} {w w' t t' : List Char}
    (hunique : Determines p w) (h : Derives p w) (h' : Derives p' w') (ht : EndsNumeral t)
    (ht' : EndsNumeral t')
    (heq : (label.text ++ (w ++ t)).dropWhile Text.isBlank =
      (label'.text ++ (w' ++ t')).dropWhile Text.isBlank) :
    label.name = label'.name ∧ p = p' ∧ t.dropWhile Text.isBlank = t'.dropWhile Text.isBlank := by
  have hstart := h.startsLiteral.append t
  have hstart' := h'.startsLiteral.append t'
  rw [(label.startsLiteral hstart).dropWhile_eq, (label'.startsLiteral hstart').dropWhile_eq] at heq
  obtain ⟨hname, hvalue⟩ := Label.unique hstart hstart' heq
  exact ⟨hname, hunique h' ht ht' (congrArg _ hvalue)⟩

end Items

namespace Determines

variable {k : Kind}

/-- The null value is determined by its text. -/
theorem null : Determines .null ['n', 'u', 'l', 'l'] := by
  intro p' w' rest rest' h' _ _ heq
  obtain ⟨htext, hshape⟩ := Derives.null.same_shape h' heq
  cases h' with
  | null => exact ⟨rfl, congrArg _ (List.append_cancel_left htext)⟩
  | _ => exact nomatch hshape

/-- A truth value is determined by its text. -/
theorem bool (b : Bool) :
    Determines (.bool b) (if b then ['t', 'r', 'u', 'e'] else ['f', 'a', 'l', 's', 'e']) := by
  intro p' w' rest rest' h' _ _ heq
  obtain ⟨htext, hshape⟩ := (Derives.bool b).same_shape h' heq
  cases h' with
  | bool b' =>
    obtain rfl : b = b' := by simpa [Phrase.shape] using hshape
    exact ⟨rfl, congrArg _ (List.append_cancel_left htext)⟩
  | _ => exact nomatch hshape

/-- A number is determined by its text. -/
theorem number (v : WrittenNumeral) : Determines (.number v.numeral) v.text := by
  intro p' w' rest rest' h' hrest hrest' heq
  obtain ⟨htext, hshape⟩ := (Derives.number v).same_shape h' heq
  cases h' with
  | number v' =>
    obtain ⟨hnumeral, htail⟩ := spells_numeral.unique hrest hrest' htext
    exact ⟨congrArg _ hnumeral, congrArg _ htail⟩
  | _ => exact nomatch hshape

/-- A string is determined by its text. -/
theorem string (q : Quoted) : Determines (.string q.content) q.text := by
  intro p' w' rest rest' h' _ _ heq
  obtain ⟨htext, hshape⟩ := (Derives.string q).same_shape h' heq
  cases h' with
  | string q' =>
    obtain ⟨hcontent, htail⟩ := spells_string.unique trivial trivial htext
    exact ⟨congrArg _ hcontent, congrArg _ htail⟩
  | _ => exact nomatch hshape

/-- A container is determined by its text if its items are. -/
theorem container (lead trail : Blanks) {items : Phrase (.items k)} {w : List Char}
    (h : Derives items w) (hunique : Determines items w) :
    Determines (.container k items)
      (k.opening :: (lead.chars ++ (w ++ (trail.chars ++ [k.closing])))) := by
  intro p' w' rest rest' h' _ _ heq
  obtain ⟨htext, hshape⟩ := (Derives.container k lead trail h).same_shape h' heq
  cases h' with
  | container k' lead' trail' h' =>
    obtain rfl : k = k' := by simpa [Phrase.shape] using hshape
    -- Behind the opening bracket, the blanks and the items come the closing bracket and the rest.
    simp only [List.cons_append, List.append_assoc, List.nil_append, List.cons.injEq, true_and]
      at htext
    have hitems := congrArg (List.dropWhile Text.isBlank) htext
    rw [lead.dropWhile_append, lead'.dropWhile_append] at hitems
    obtain ⟨hphrase, htail⟩ := hunique h' ⟨trail, rest, rfl⟩ ⟨trail', rest', rfl⟩ hitems
    rw [k.dropWhile_closing, k.dropWhile_closing, List.cons.injEq] at htail
    exact ⟨congrArg _ hphrase, congrArg _ htail.2⟩
  | _ => exact nomatch hshape

/-- Where the closing bracket stands, there is no item. -/
theorem nil : Determines (.nil : Phrase (.items k)) [] := by
  intro p' w' rest rest' h' hrest _ heq
  obtain ⟨trail, tail, rfl⟩ := hrest
  cases h' with
  | nil => exact ⟨rfl, heq⟩
  | last label h =>
    rw [List.append_assoc] at heq
    exact absurd heq (k.dropWhile_closing_ne_item trail tail label (h.startsLiteral.append _))
  | cons label gap lead h _ =>
    rw [List.append_assoc, List.append_assoc] at heq
    exact absurd heq (k.dropWhile_closing_ne_item trail tail label (h.startsLiteral.append _))

/-- The last item is determined by its text if its value is. -/
theorem last (label : Label k) {p : Phrase .value} {w : List Char} (h : Derives p w)
    (hunique : Determines p w) : Determines (.cons label.name p .nil) (label.text ++ w) := by
  intro p' w' rest rest' h' hrest hrest' heq
  obtain ⟨trail, tail, rfl⟩ := hrest
  obtain ⟨trail', tail', rfl⟩ := hrest'
  have hends := k.endsNumeral_closing trail tail
  rw [List.append_assoc] at heq
  cases h' with
  | nil =>
    exact absurd heq.symm
      (k.dropWhile_closing_ne_item trail' tail' label (h.startsLiteral.append _))
  | last label' h' =>
    rw [List.append_assoc] at heq
    obtain ⟨hname, rfl, htail⟩ := hunique.first h h' hends (k.endsNumeral_closing trail' tail') heq
    exact ⟨by rw [hname], htail⟩
  | cons label' gap' lead' h' _ =>
    simp only [List.append_assoc, List.cons_append] at heq
    obtain ⟨-, -, htail⟩ := hunique.first h h' hends (endsNumeral_comma gap' _) heq
    exact absurd htail (k.dropWhile_closing_ne_comma trail gap' tail _)

/-- An item with a comma behind it is determined by its text if its value and the further items
are. -/
theorem cons (label : Label k) (gap lead : Blanks) {p : Phrase .value}
    {others : Phrase (.items k)} {w ws : List Char} (h : Derives p w) (hunique : Determines p w)
    (hothers : Determines others ws) :
    Determines (.cons label.name p others)
      (label.text ++ (w ++ (gap.chars ++ ',' :: (lead.chars ++ ws)))) := by
  intro p' w' rest rest' h' hrest hrest' heq
  simp only [List.append_assoc, List.cons_append] at heq
  have hends := endsNumeral_comma gap (lead.chars ++ (ws ++ rest))
  cases h' with
  | nil =>
    obtain ⟨trail', tail', rfl⟩ := hrest'
    exact absurd heq.symm
      (k.dropWhile_closing_ne_item trail' tail' label (h.startsLiteral.append _))
  | last label' h' =>
    obtain ⟨trail', tail', rfl⟩ := hrest'
    rw [List.append_assoc] at heq
    obtain ⟨-, -, htail⟩ := hunique.first h h' hends (k.endsNumeral_closing trail' tail') heq
    exact absurd htail.symm (k.dropWhile_closing_ne_comma trail' gap tail' _)
  | cons label' gap' lead' h' hothers' =>
    simp only [List.append_assoc, List.cons_append] at heq
    obtain ⟨hname, rfl, hcomma⟩ := hunique.first h h' hends (endsNumeral_comma gap' _) heq
    rw [gap.dropWhile_append_cons (by decide), gap'.dropWhile_append_cons (by decide),
      List.cons.injEq] at hcomma
    have hitems := congrArg (List.dropWhile Text.isBlank) hcomma.2
    rw [lead.dropWhile_append, lead'.dropWhile_append] at hitems
    obtain ⟨rfl, htail⟩ := hothers hothers' hrest hrest' hitems
    exact ⟨by rw [hname], htail⟩

end Determines

/-- What is derived is determined by its text. -/
theorem Derives.determines {c : Category} {p : Phrase c} {w : List Char} (h : Derives p w) :
    Determines p w := by
  induction h with
  | null => exact .null
  | bool b => exact .bool b
  | number v => exact .number v
  | string q => exact .string q
  | container k lead trail h ih => exact .container lead trail h ih
  | nil => exact .nil
  | last label h ih => exact .last label h ih
  | cons label gap lead h _ ih ihrest => exact .cons label gap lead h ih ihrest

/-- A text is derived as one phrase only. -/
theorem Phrase.Writes.unique {p p' : Phrase .value} {text : List Char} (h : p.Writes text)
    (h' : p'.Writes text) : p = p' := by
  obtain ⟨lead, trail, w, hw, rfl⟩ := h
  obtain ⟨lead', trail', w', hw', heq⟩ := h'
  have hend : EndsValue [] := by simp [EndsValue]
  have hskip := congrArg (List.dropWhile Text.isBlank) heq
  rw [lead.dropWhile_append, lead'.dropWhile_append] at hskip
  have hends : ∀ b : Blanks, EndsNumeral b.chars := by
    intro b
    have hb := hend.endsNumeral b
    rwa [List.append_nil] at hb
  exact (hw.determines hw' (hends trail) (hends trail') hskip).1

/-! ## The texts that are accepted -/

/-- A text is accepted if and only if it can be derived as a phrase whose numbers can be represented
and whose containers are not too deep. It is then read as the value that the phrase stands for. -/
theorem parse_accepts_grammar (text : String) :
    ((∃ v, parse text = .ok v) ↔
      ∃ p : Phrase .value, p.Writes text.toList ∧ p.InRange ∧ p.depth ≤ maxDepth) ∧
    ∀ p : Phrase .value, p.Writes text.toList → ∀ v,
      (parse text = .ok v ↔ p.InRange ∧ p.depth ≤ maxDepth ∧ p.Denotes v) := by
  -- What is accepted is the text of a tree, and the phrase of the tree has all the properties.
  have hsound : ∀ {v}, parse text = .ok v → ∃ p : Phrase .value,
      p.Writes text.toList ∧ p.InRange ∧ p.depth ≤ maxDepth ∧ p.Denotes v := by
    intro v h
    obtain ⟨e, rfl, htext, hdepth⟩ := parse_eq_ok.1 h
    exact ⟨e.tree.phrase, htext ▸ e.writes, e.tree.inRange, e.tree.depth_phrase ▸ hdepth,
      e.tree.denotes⟩
  have hcomplete : ∀ {p : Phrase .value}, p.Writes text.toList → p.InRange → p.depth ≤ maxDepth →
      ∃ v, p.Denotes v ∧ parse text = .ok v := by
    intro p hwrites hrange hdepth
    obtain ⟨e, rfl, htext⟩ := hwrites.exists_entry hrange
    rw [e.tree.depth_phrase] at hdepth
    exact ⟨e.tree.value, e.tree.denotes, parse_eq_ok.2 ⟨e, rfl, htext.symm, hdepth⟩⟩
  constructor
  · constructor
    · rintro ⟨v, h⟩
      obtain ⟨p, hwrites, hrange, hdepth, -⟩ := hsound h
      exact ⟨p, hwrites, hrange, hdepth⟩
    · rintro ⟨p, hwrites, hrange, hdepth⟩
      obtain ⟨v, -, h⟩ := hcomplete hwrites hrange hdepth
      exact ⟨v, h⟩
  · intro p hwrites v
    constructor
    · intro h
      obtain ⟨p', hwrites', hproperties⟩ := hsound h
      exact hwrites.unique hwrites' ▸ hproperties
    · rintro ⟨hrange, hdepth, hdenotes⟩
      obtain ⟨v', hdenotes', h⟩ := hcomplete hwrites hrange hdepth
      rwa [hdenotes.unique hdenotes']

/-- An object with a repeated key, keys with and without quotes, an escape sequence, blanks, commas
behind the last items, and a number with all its parts. -/
def repeatingText : String :=
  "\x7b a :-1, 'b\\n': [true, 2.5e+0 ,], a: null, \x7d"

/-- The object as it is written. -/
def repeatingTree : Tree :=
  let space : Blanks := ⟨[' '], rfl⟩
  let nothing : Blanks := ⟨[], rfl⟩
  let digit (c : Char) (h : Text.isAsciiDigit c = true) : Digits := ⟨[c], by simp, by simp [h]⟩
  let a : Key := .bare ⟨['a'], by simp, by decide +kernel⟩
  let b : Key :=
    .quoted ⟨⟨'\'', by simp⟩, [.plain 'b' (by decide), .escape ⟨('n', '\n'), by decide⟩]⟩
  let minusOne : Tree := .number ⟨true, digit '1' rfl, none, none⟩ (.integer (-1)) rfl
  let fraction : Tree :=
    .number ⟨false, digit '2' rfl, some (digit '5' rfl),
        some ⟨⟨'e', by simp⟩, some ⟨'+', by simp⟩, digit '0' rfl⟩⟩
      (.binary ⟨false, 0x4004000000000000, by decide⟩) (by decide +kernel)
  let items : Items .array :=
    .cons .none (.bool true) nothing space (.cons .none fraction space nothing .nil)
  .container .object space
    (.cons (.key a space nothing) minusOne nothing space
      (.cons (.key b nothing space) (.container .array nothing items nothing) nothing space
        (.cons (.key a nothing space) .null nothing nothing .nil)))
    space

/-- The repeated key keeps its first place and its last value. -/
theorem parse_accepts_grammar_repeatingText :
    repeatingTree.phrase.Writes repeatingText.toList ∧
      parse repeatingText = .ok (.object [("a", .null), ("b\n", .array [.bool true,
        .number (.binary ⟨false, 0x4004000000000000, by decide⟩)])]) := by
  have hwrites : repeatingTree.phrase.Writes repeatingText.toList :=
    ⟨⟨[], rfl⟩, ⟨[], rfl⟩, repeatingTree.text, repeatingTree.derives, by decide +kernel⟩
  have hdepth : repeatingTree.phrase.depth ≤ maxDepth := by decide +kernel
  exact ⟨hwrites, ((parse_accepts_grammar repeatingText).2 _ hwrites _).2
    ⟨repeatingTree.inRange, hdepth, repeatingTree.denotes⟩⟩

end FindSelect.Literal
