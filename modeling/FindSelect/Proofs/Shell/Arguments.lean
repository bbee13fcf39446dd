import FindSelect.Proofs.Literal.Acceptance
import FindSelect.Proofs.Text.Trim

/-!
# Argument lists and literals

The scan that separates arguments knows nothing of literals, it only keeps count of brackets and
skips what stands between quotes. It agrees with the grammar all the same:
`arguments_separate_literals` says that literals with commas between them are separated at these
commas and at no other, whatever commas, brackets and quotes they hold themselves.

Of a text that is no list of literals it is still known that nothing gets lost: its pieces with
commas between them are the text (`intercalate_pieces`). The blanks at both ends of an argument list
belong to its first and its last argument, which are trimmed, so they make no difference to the
arguments (`arguments_eq_of_trim_eq`).
-/

namespace FindSelect

namespace Literal

/-- Whether a text is a literal by the rules of the grammar, with blanks around it. Its numbers need
not be in range, and it may be of any depth. -/
def IsLiteral (text : List Char) : Prop :=
  ∃ p : Phrase .value, p.Writes text

/-- A text that is read is a literal. -/
theorem isLiteral_of_read {text : String} {v : Value} (h : read text = .ok v) :
    IsLiteral text.toList := by
  obtain ⟨e, -, htext⟩ := read_eq_ok.1 h
  rw [htext]
  exact ⟨_, e.writes⟩

/-- A literal is not blank. -/
theorem IsLiteral.not_blank {text : List Char} (h : IsLiteral text) :
    text.all Text.isBlank = false := by
  obtain ⟨p, lead, trail, w, hw, rfl⟩ := h
  obtain ⟨c, rest, rfl, hc, -⟩ := hw.startsLiteral
  simp [hc]

/-- The brackets of a literal come in pairs, and no comma stands outside of them. -/
theorem IsLiteral.nested {text : List Char} (h : IsLiteral text) :
    ∃ depth, Nested false depth text := by
  obtain ⟨p, lead, trail, w, hw, rfl⟩ := h
  exact ⟨_, lead.nested.append (hw.nested.append trail.nested)⟩

end Literal

namespace Shell

open Literal

/-! ## Pieces of any text -/

/-- What stands before the first piece stands before them all. -/
theorem intercalate_prepend (w : List Char) {ps : List (List Char)} (hps : ps ≠ []) :
    [','].intercalate (prepend w ps) = w ++ [','].intercalate ps := by
  obtain ⟨p, ps, rfl⟩ := List.exists_cons_of_ne_nil hps
  cases ps with
  | nil => simp [prepend]
  | cons p' ps => simp [prepend, List.intercalate_cons_cons]

/-- The pieces of a text, with commas between them, are the text. -/
theorem intercalate_pieces (q : Quoting) (depth : Int) (text : List Char) :
    [','].intercalate (pieces q depth text) = text := by
  induction text generalizing q depth with
  | nil => rfl
  | cons c rest ih =>
    by_cases h : q = .outside ∧ c = ',' ∧ depth = 0
    · -- The comma that the scan took away is one of those put between the pieces.
      obtain ⟨p, ps, hps⟩ := List.exists_cons_of_ne_nil (pieces_ne_nil q depth rest)
      have hrest := ih q depth
      rw [hps] at hrest
      rw [pieces, if_pos h, hps, List.intercalate_cons_cons, hrest, h.2.1]
      rfl
    · rw [pieces_cons h, intercalate_prepend _ (pieces_ne_nil _ _ _), ih]
      rfl

/-- A text without commas is one piece, however it stands with quotes and brackets. -/
theorem pieces_of_comma_notMem {text : List Char} (h : ',' ∉ text) (q : Quoting) (depth : Int) :
    pieces q depth text = [text] := by
  induction text generalizing q depth with
  | nil => rfl
  | cons c rest ih =>
    rw [List.mem_cons, not_or] at h
    rw [pieces_cons (fun hsplit => h.1 hsplit.2.1.symm), ih h.2]
    rfl

/-- Blanks are not commas. -/
theorem comma_notMem_of_all_isBlank {w : List Char} (h : w.all Text.isBlank = true) : ',' ∉ w :=
  fun hcomma => absurd (List.all_eq_true.1 h ',' hcomma) (by decide)

/-! ## Blanks around an argument list -/

/-- The blanks at the end of a first piece do not depend on what is put before it. -/
theorem map_trimRight_prepend (w : List Char) (ps : List (List Char)) :
    (prepend w (ps.map Text.trimRight)).map Text.trimRight =
      (prepend w ps).map Text.trimRight := by
  have hidem : Text.trimRight ∘ Text.trimRight = Text.trimRight :=
    funext fun p => Text.trimRight_append_trimRight [] p
  cases ps with
  | nil => rfl
  | cons p ps =>
    simp only [prepend, List.map_cons, List.map_map, hidem, Text.trimRight_append_trimRight]

/-- Blanks behind a text go to the end of its last piece. The scan may end anywhere, also between
quotes. -/
theorem map_trimRight_pieces_append (q : Quoting) (depth : Int) (text : List Char)
    {trail : List Char} (h : trail.all Text.isBlank = true) :
    (pieces q depth (text ++ trail)).map Text.trimRight =
      (pieces q depth text).map Text.trimRight := by
  induction text generalizing q depth with
  | nil =>
    have htrail : Text.trimRight trail = Text.trimRight [] := Text.trimRight_append h []
    rw [List.nil_append, pieces_of_comma_notMem (comma_notMem_of_all_isBlank h), pieces,
      List.map_singleton, htrail, List.map_singleton]
  | cons c rest ih =>
    rw [List.cons_append]
    by_cases hsplit : q = .outside ∧ c = ',' ∧ depth = 0
    · rw [pieces, pieces, if_pos hsplit, if_pos hsplit, List.map_cons, List.map_cons, ih]
    · rw [pieces_cons hsplit, pieces_cons hsplit, ← map_trimRight_prepend, ih,
        map_trimRight_prepend]

/-- Blanks around a text make no difference to what is left of its pieces. -/
theorem map_trim_pieces_append {lead trail : List Char} (hlead : lead.all Text.isBlank = true)
    (htrail : trail.all Text.isBlank = true) (text : List Char) :
    (pieces .outside 0 (lead ++ (text ++ trail))).map Text.trim =
      (pieces .outside 0 text).map Text.trim := by
  have hnested : Nested false 0 lead := (Blanks.mk lead hlead).nested
  have hfirst : pieces .outside 0 (lead ++ (text ++ trail)) =
      prepend lead (pieces .outside 0 (text ++ trail)) :=
    hnested.pieces (Int.le_refl 0) (by simp) _
  have hskip : ∀ ps : List (List Char), ps ≠ [] →
      (prepend lead ps).map Text.trim = ps.map Text.trim := by
    intro ps hps
    obtain ⟨p, ps, rfl⟩ := List.exists_cons_of_ne_nil hps
    rw [prepend, List.map_cons, Text.trim_append_left hlead, List.map_cons]
  have hright : ∀ ps : List (List Char),
      (ps.map Text.trimRight).map Text.trim = ps.map Text.trim := by
    intro ps
    rw [List.map_map]
    exact List.map_congr_left fun p _ => Text.trim_trimRight p
  rw [hfirst, hskip _ (pieces_ne_nil _ _ _), ← hright, map_trimRight_pieces_append _ _ _ htrail,
    hright]

/-- Argument lists that differ only in the blanks at their ends have the same arguments. -/
theorem arguments_eq_of_trim_eq {text text' : List Char} (h : Text.trim text = Text.trim text') :
    arguments text = arguments text' := by
  have htrim : ∀ s, (pieces .outside 0 s).map Text.trim =
      (pieces .outside 0 (Text.trim s)).map Text.trim := by
    intro s
    obtain ⟨lead, trail, hlead, htrail, hs⟩ := Text.exists_trim s
    rw [← map_trim_pieces_append hlead htrail (Text.trim s), ← hs]
  unfold arguments
  rw [htrim text, h, ← htrim text']

/-! ## Arguments -/

/-- The arguments are the pieces without the blanks around them, unless there is nothing but
blanks. -/
theorem arguments_eq (text : List Char) :
    arguments text = if text.all Text.isBlank then []
      else (pieces .outside 0 text).map Text.trim := by
  unfold arguments
  by_cases h : text.all Text.isBlank = true
  · have hnone := pieces_of_comma_notMem (comma_notMem_of_all_isBlank h) .outside 0
    rw [if_pos h, hnone, List.map_singleton, Text.trim_eq_nil.2 h]
  · rw [if_neg h]
    split
    · -- One piece of which nothing is left would be a text of blanks.
      next hempty =>
      obtain ⟨p, hp, hblank⟩ := List.map_eq_singleton_iff.1 hempty
      have htext := intercalate_pieces .outside 0 text
      rw [hp, List.intercalate_singleton] at htext
      exact absurd (Text.trim_eq_nil.1 hblank) (htext ▸ h)
    · rfl

/-- There are no arguments if and only if there is nothing but blanks. -/
theorem arguments_eq_nil {text : List Char} :
    arguments text = [] ↔ text.all Text.isBlank = true := by
  rw [arguments_eq]
  split
  · next h => simp [h]
  · next h => simp [h, pieces_ne_nil]

/-- Texts whose brackets come in pairs, without commas outside of them, are the pieces of what they
make up with commas between them. -/
theorem pieces_intercalate {texts : List (List Char)} (hne : texts ≠ [])
    (h : ∀ text ∈ texts, ∃ depth, Nested false depth text) :
    pieces .outside 0 ([','].intercalate texts) = texts := by
  induction texts with
  | nil => exact absurd rfl hne
  | cons text texts ih =>
    rw [List.forall_mem_cons] at h
    obtain ⟨⟨depth, hnested⟩, hrest⟩ := h
    have hfirst : ∀ rest, pieces .outside 0 (text ++ rest) =
        prepend text (pieces .outside 0 rest) := hnested.pieces (Int.le_refl 0) (by simp)
    cases texts with
    | nil =>
      have hwhole := hfirst []
      rw [List.append_nil] at hwhole
      rw [List.intercalate_singleton, hwhole]
      simp [pieces, prepend]
    | cons text' texts =>
      have hcomma : ∀ rest, pieces .outside 0 (',' :: rest) = [] :: pieces .outside 0 rest :=
        fun rest => if_pos ⟨rfl, rfl, rfl⟩
      rw [List.intercalate_cons_cons, List.append_assoc, hfirst, List.singleton_append, hcomma,
        ih (by simp) hrest]
      simp [prepend]

/-- Literals with commas between them are separated at these commas. -/
theorem arguments_intercalate {texts : List (List Char)} (h : ∀ text ∈ texts, IsLiteral text) :
    arguments ([','].intercalate texts) = texts.map Text.trim := by
  cases texts with
  | nil => rfl
  | cons text texts =>
    have hpieces := pieces_intercalate (by simp) fun t ht => (h t ht).nested
    -- The first literal has a character that is not blank, so the list is not empty.
    have hblank : ¬ ([','].intercalate (text :: texts)).all Text.isBlank = true := by
      have hfirst := (h text List.mem_cons_self).not_blank
      cases texts with
      | nil => simp [hfirst]
      | cons text' texts => simp [List.intercalate_cons_cons, hfirst]
    rw [arguments_eq, if_neg hblank, hpieces]

/-- The scan for arguments agrees with the grammar of literals: literals, as many as there are, with
commas between them are separated into these literals, without the blanks around them. All texts
that are read are literals in this sense. Any text has no argument if and only if it is blank, and
its arguments are what stands between some of its commas, without the blanks around it. -/
theorem arguments_separate_literals :
    (∀ texts : List (List Char), (∀ text ∈ texts, IsLiteral text) →
      arguments ([','].intercalate texts) = texts.map Text.trim) ∧
    (∀ (text : String) (v : Value), Literal.read text = .ok v → IsLiteral text.toList) ∧
    ∀ text : List Char,
      (arguments text = [] ↔ text.all Text.isBlank = true) ∧
      (arguments text ≠ [] → ∃ cut : List (List Char),
        [','].intercalate cut = text ∧ arguments text = cut.map Text.trim) := by
  refine ⟨fun _ => arguments_intercalate, fun _ _ => isLiteral_of_read, fun text => ?_⟩
  refine ⟨arguments_eq_nil, fun h => ?_⟩
  have hblank : ¬ text.all Text.isBlank = true := fun hblank => h (arguments_eq_nil.2 hblank)
  exact ⟨pieces .outside 0 text, intercalate_pieces .outside 0 text, by
    rw [arguments_eq, if_neg hblank]⟩

/-- Literals with blanks around them, and with commas, brackets, escape sequences and the other kind
of quotes inside of their strings. -/
def awkwardLiterals : List String :=
  [" \x7ba: 'x, ]\\'\"', \"b\x7d\": [1, \x7bc: 2\x7d ,]\x7d\n",
    "\"it's, \\\"[\\\" \\\\\"", "\t-1.5e3"]

/-- The awkward literals are separated where they are joined. In a text that is no list of literals
a bracket that closes nothing hides the first comma. -/
theorem arguments_separate_literals_awkwardLiterals :
    (∀ text ∈ awkwardLiterals, ∃ v, Literal.read text = .ok v) ∧
    arguments ([','].intercalate (awkwardLiterals.map String.toList)) =
      (awkwardLiterals.map String.toList).map Text.trim ∧
    arguments "], [, 'a".toList ≠ [] ∧ ∃ cut : List (List Char),
      [','].intercalate cut = "], [, 'a".toList ∧
        arguments "], [, 'a".toList = cut.map Text.trim := by
  obtain ⟨hliterals, hread, htexts⟩ := arguments_separate_literals
  have hok : ∀ text ∈ awkwardLiterals, ∃ v, Literal.read text = .ok v := by
    have hchecked : ∀ text ∈ awkwardLiterals, (Literal.read text).isOk = true := by decide +kernel
    intro text htext
    have hisOk := hchecked text htext
    cases hv : Literal.read text with
    | ok v => exact ⟨v, rfl⟩
    | error e =>
      rw [hv] at hisOk
      exact absurd hisOk Bool.false_ne_true
  have hne : arguments "], [, 'a".toList ≠ [] := by decide
  refine ⟨hok, hliterals _ ?_, hne, (htexts _).2 hne⟩
  intro text htext
  obtain ⟨s, hs, rfl⟩ := List.mem_map.1 htext
  obtain ⟨v, hv⟩ := hok s hs
  exact hread s v hv

end Shell

end FindSelect
