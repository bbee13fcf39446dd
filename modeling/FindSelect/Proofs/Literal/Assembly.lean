import FindSelect.Proofs.Literal.Unambiguity
import FindSelect.Proofs.Text.Trim

/-!
# Literals that are put together

An array written from the texts of its items, and an object written from a key and the text of its
value. `WritesValue` says of a text all that it takes to know what becomes of it: that it is a
literal, how deep it is at most, which value it stands for, and whether its numbers can be
represented. `WritesItems.cons` and `WritesValue.member` are the steps by which this is known of
what is put together, and `WritesValue.parse` and `WritesValue.parse_of_not` say what it is read as.

A text with a number that cannot be represented is still a literal by the rules, and since a text is
derived as one phrase only, there is no other way to read it.
-/

namespace FindSelect.Literal

/-- The text of a run. -/
def Run.text {accepts : Char → Bool} (run : Run accepts) : String :=
  String.ofList run.chars

/-- An object with one member, under a key without quotes. -/
def memberText (key text : String) : String :=
  "\x7b" ++ key ++ ": " ++ text ++ "\x7d"

/-- An array of items. -/
def arrayText (texts : List String) : String :=
  "[" ++ ", ".intercalate texts ++ "]"

/-! ## Items -/

/-- Whether texts with commas between them are the items of an array, of at most the given depth and
with the given values. Their numbers can be represented exactly if `fits` holds. -/
def WritesItems (texts : List String) (depth : Nat) (values : List Value) (fits : Prop) : Prop :=
  ∃ (items : Phrase (.items .array)) (lead trail : Blanks) (w : List Char), Derives items w ∧
    (", ".intercalate texts).toList = lead.chars ++ (w ++ trail.chars) ∧
    items.depth ≤ depth ∧ items.Denotes values ∧ (items.InRange ↔ fits)

/-- Whether a text is a literal of at most the given depth that stands for a value. Its numbers can
be represented exactly if `fits` holds. -/
def WritesValue (text : String) (depth : Nat) (v : Value) (fits : Prop) : Prop :=
  ∃ p : Phrase .value, p.Writes text.toList ∧ p.depth ≤ depth ∧ p.Denotes v ∧ (p.InRange ↔ fits)

section

variable {text : String} {texts : List String} {depth : Nat} {v : Value} {values : List Value}
  {fits fits' : Prop}

/-- No texts are no items. -/
theorem writesItems_nil (depth : Nat) : WritesItems [] depth [] True := by
  refine ⟨.nil, ⟨[], List.all_nil⟩, ⟨[], List.all_nil⟩, [], .nil, by simp, Nat.zero_le _, rfl, ?_⟩
  simp [Phrase.InRange, Phrase.numerals]

/-- The numbers of an item and of those behind it can be represented if all of them can be. -/
theorem Phrase.inRange_cons {k : Kind} (name : k.Name) (p : Phrase .value)
    (items : Phrase (.items k)) : (Phrase.cons name p items).InRange ↔ p.InRange ∧ items.InRange :=
  List.forall_mem_append

/-- No item is derived as the empty text. -/
theorem Derives.eq_nil {k : Kind} {items : Phrase (.items k)} {w : List Char}
    (h : Derives items w) (hw : w = []) : items = .nil := by
  have hne : ∀ {u : List Char}, StartsLiteral u → u ≠ [] := by
    rintro _ ⟨c, rest, rfl, -⟩
    exact List.cons_ne_nil _ _
  cases h with
  | nil => rfl
  | last label h => exact absurd hw (hne (label.startsLiteral h.startsLiteral))
  | cons label gap lead h _ =>
    exact absurd hw (hne (label.startsLiteral (h.startsLiteral.append _)))

/-- A literal before items is one more of them. -/
theorem WritesItems.cons (h : WritesValue text depth v fits)
    (hrest : WritesItems texts depth values fits') :
    WritesItems (text :: texts) depth (v :: values) (fits ∧ fits') := by
  obtain ⟨p, ⟨lead, trail, w, hw, htext⟩, hdepth, hdenotes, hrange⟩ := h
  obtain ⟨items, lead', trail', w', hw', htexts, hdepth', hdenotes', hrange'⟩ := hrest
  have hmax : (Phrase.cons Label.none.name p items).depth ≤ depth := Nat.max_le.2 ⟨hdepth, hdepth'⟩
  have hvalues : (Phrase.cons Label.none.name p items).Denotes (v :: values) :=
    ⟨v, values, hdenotes, hdenotes', rfl⟩
  have hboth : (Phrase.cons Label.none.name p items).InRange ↔ fits ∧ fits' := by
    rw [Phrase.inRange_cons, hrange, hrange']
  cases texts with
  | nil =>
    -- Without further texts there is no comma.
    have hempty : lead'.chars ++ (w' ++ trail'.chars) = [] := by simpa using htexts.symm
    obtain rfl : items = .nil :=
      hw'.eq_nil (List.append_eq_nil_iff.1 (List.append_eq_nil_iff.1 hempty).2).1
    exact ⟨_, lead, trail, w, .last .none hw, by simp [htext], hmax, hvalues, hboth⟩
  | cons text' texts =>
    have hspace : [' '].all Text.isBlank = true := by decide
    refine ⟨_, lead, trail', _, .cons .none trail (Blanks.append ⟨[' '], hspace⟩ lead') hw hw', ?_,
      hmax, hvalues, hboth⟩
    rw [String.toList_intercalate] at htexts ⊢
    rw [List.map_cons, List.map_cons, List.intercalate_cons_cons, ← List.map_cons, htexts, htext]
    simp [Label.text, Blanks.append]

/-- Literals whose numbers can be represented, before items, make no difference to the numbers. -/
theorem WritesItems.prepend {before : List (String × Value)}
    (hbefore : ∀ i ∈ before, WritesValue i.1 depth i.2 True)
    (h : WritesItems texts depth values fits) :
    WritesItems (before.map Prod.fst ++ texts) depth (before.map Prod.snd ++ values) fits := by
  induction before with
  | nil => exact h
  | cons i before ih =>
    rw [List.forall_mem_cons] at hbefore
    simpa using WritesItems.cons hbefore.1 (ih hbefore.2)

/-! ## Values -/

/-- What is derived as a value is a literal without blanks around it. -/
theorem Derives.writes {p : Phrase .value} {w w' : List Char} (h : Derives p w) (hw : w' = w) :
    p.Writes w' :=
  ⟨⟨[], List.all_nil⟩, ⟨[], List.all_nil⟩, w, h, by simp [hw]⟩

/-- Items between brackets are an array. -/
theorem WritesItems.array (h : WritesItems texts depth values fits) :
    WritesValue (arrayText texts) (depth + 1) (.array values) fits := by
  obtain ⟨items, lead, trail, w, hw, htexts, hdepth, hdenotes, hrange⟩ := h
  have hderives := Derives.container .array lead trail hw
  refine ⟨.container .array items, hderives.writes ?_, Nat.succ_le_succ hdepth,
    ⟨values, hdenotes, rfl⟩, hrange⟩
  simp [arrayText, htexts, Kind.opening, Kind.closing]

/-- A literal behind a key, between braces, is an object with one member. -/
theorem WritesValue.member (key : Run isKeyChar) (h : WritesValue text depth v fits) :
    WritesValue (memberText key.text text) (depth + 1) (.object [(key.text, v)]) fits := by
  obtain ⟨p, ⟨lead, trail, w, hw, htext⟩, hdepth, hdenotes, hrange⟩ := h
  have hspace : [' '].all Text.isBlank = true := by decide
  let label : Label .object :=
    .key (.bare key) ⟨[], List.all_nil⟩ (Blanks.append ⟨[' '], hspace⟩ lead)
  have hderives := Derives.container .object ⟨[], List.all_nil⟩ trail (.last label hw)
  refine ⟨.container .object (.cons label.name p .nil), hderives.writes ?_, ?_, ?_, ?_⟩
  · simp [memberText, htext, label, Label.text, Key.text, Run.text, Blanks.append, Kind.opening,
      Kind.closing]
  · simpa [Phrase.depth] using hdepth
  · exact ⟨[(key.text, v)], ⟨v, [], hdenotes, rfl, rfl⟩, Kind.makesUp_iff.2 rfl⟩
  · rw [← hrange]
    simp [Phrase.InRange, Phrase.numerals]

/-! ## Reading -/

/-- A literal that is not too deep and whose numbers can be represented is read as its value. -/
theorem WritesValue.parse (h : WritesValue text depth v fits) (hdepth : depth ≤ maxDepth)
    (hfits : fits) : Literal.parse text = .ok v := by
  obtain ⟨p, hwrites, hp, hdenotes, hrange⟩ := h
  obtain ⟨e, rfl, htext⟩ := hwrites.exists_entry (hrange.2 hfits)
  refine parse_eq_ok.2 ⟨e, e.tree.denotes.unique hdenotes, htext.symm, ?_⟩
  exact e.tree.depth_phrase ▸ hp.trans hdepth

/-- A literal that is not too deep is refused if one of its numbers cannot be represented. -/
theorem WritesValue.parse_of_not (h : WritesValue text depth v fits) (hdepth : depth ≤ maxDepth)
    (hfits : ¬ fits) :
    ∃ diagnosis, Literal.parse text = .error (.format (.notALiteral diagnosis)) := by
  obtain ⟨p, hwrites, hp, -, hrange⟩ := h
  have hscan : staysWithin maxDepth .outside 0 text.toList = true := by
    rw [hwrites.staysWithin, decide_eq_true (hp.trans hdepth)]
  cases hread : read text with
  | ok v' =>
    -- What is read has the same phrase, with numbers that can be represented.
    obtain ⟨e, -, htext⟩ := read_eq_ok.1 hread
    have hphrase : p = e.tree.phrase := hwrites.unique (htext ▸ e.writes)
    exact absurd (hrange.1 (hphrase ▸ e.tree.inRange)) hfits
  | error diagnosis =>
    refine ⟨diagnosis, ?_⟩
    rw [Literal.parse, if_pos hscan, hread]
    rfl

/-- A literal that is read stands for its value, and is as deep as it is written. -/
theorem writesValue_of_read (h : read text = .ok v) {p : Phrase .value}
    (hp : p.Writes text.toList) : WritesValue text p.depth v True := by
  obtain ⟨e, rfl, htext⟩ := read_eq_ok.1 h
  obtain rfl : p = e.tree.phrase := hp.unique (htext ▸ e.writes)
  exact ⟨_, hp, Nat.le_refl _, e.tree.denotes, iff_true_intro e.tree.inRange⟩

/-- A literal is a literal by the rules of the grammar. -/
theorem WritesValue.exists_writes (h : WritesValue text depth v fits) :
    ∃ p : Phrase .value, p.Writes text.toList := by
  obtain ⟨p, hp, -⟩ := h
  exact ⟨p, hp⟩

/-- What is left of an object without the blanks around it is the same object. -/
theorem WritesValue.trim {members : List (String × Value)}
    (h : WritesValue text depth (.object members) fits) :
    WritesValue (String.ofList (Text.trim text.toList)) depth (.object members) fits := by
  obtain ⟨p, ⟨lead, trail, w, hw, htext⟩, hdepth, hdenotes, hrange⟩ := h
  -- An object starts and ends with a brace, which is not blank.
  have hends : Text.trim w = w := by
    cases hw with
    | container k lead trail h =>
      cases k with
      | array =>
        obtain ⟨_, _, hv⟩ := hdenotes
        exact absurd hv (by simp [Kind.MakesUp])
      | object =>
        have hbody : ∀ s, Text.trim ('{' :: (s ++ ['}'])) = '{' :: (s ++ ['}']) :=
          Text.trim_of_ends (by decide) (by decide)
        simpa [Kind.opening, Kind.closing] using hbody (lead.chars ++ (_ ++ trail.chars))
    | null => exact absurd hdenotes (by simp [Phrase.Denotes])
    | bool b => exact absurd hdenotes (by simp [Phrase.Denotes])
    | string q => exact absurd hdenotes (by simp [Phrase.Denotes])
    | number n =>
      obtain ⟨_, _, hv⟩ := hdenotes
      exact absurd hv (by simp)
  refine ⟨p, hw.writes ?_, hdepth, hdenotes, hrange⟩
  rw [String.toList_ofList, htext, Text.trim_append_left lead.all, Text.trim_append_right trail.all,
    hends]

end

end FindSelect.Literal
