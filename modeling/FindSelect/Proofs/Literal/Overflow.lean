import FindSelect.Proofs.Literal.Completion

/-!
# Numbers out of range

A text may be refused for a number that has no value though it is well written. The failure then
lies at the first character of the number, whatever stands behind it. `Due` says where a value is
looked for: at the start, and inside of a container where the items before are complete. So the
number that a text is refused for is the one that stands where a value is due (`stops_of_due`).

What stands before such a place was read, but reading it may have left a failure behind it: behind a
key or an item something else could have stood. That failure does not lie further than the character
which ends the key or the item.
-/

namespace FindSelect.Literal

open Reader

variable {α β : Type}

/-! ## Readers that stop -/

/-- Whether a reader fails on a text, with its furthest failure at the `k`-th character. -/
structure Stops (p : Reader α) (t : List Char) (k : Nat) : Prop where
  /-- The reader fails. -/
  on_eq : p.on t = none
  /-- That is how far it looks. -/
  reach_eq : p.reach t = k

namespace Stops

variable {j k : Nat} {t : List Char}

/-- The first part of a sequence. -/
theorem bind_first {p : Reader α} [Steady p] [Tracked p] (h : Stops p t k) (f : α → Reader β)
    [∀ a, Steady (f a)] [∀ a, Tracked (f a)] : Stops (p >>= f) t k where
  on_eq := by rw [on_bind, h.on_eq, Option.bind_none]
  reach_eq := by rw [reach_bind, h.on_eq, h.reach_eq, Option.elim_none, Nat.max_zero]

/-- What follows the first part of a sequence. -/
theorem bind_next {p : Reader α} [Steady p] [Tracked p] {f : α → Reader β} [∀ a, Steady (f a)]
    [∀ a, Tracked (f a)] {w : List Char} {a : α} (hp : p.on (w ++ t) = some (a, t))
    (h : Stops (f a) t k) (hk : 0 < k) :
    Stops (p >>= f) (w ++ t) (max (p.reach (w ++ t)) (w.length + k)) where
  on_eq := by rw [on_bind, hp, Option.bind_some, h.on_eq]
  reach_eq := by
    rw [reach_bind, hp, Option.elim_some, h.reach_eq, shift_of_pos _ hk, List.length_append,
      Nat.add_sub_cancel]

/-- What follows the first part of a sequence, if that does not look further. -/
theorem bind_last {p : Reader α} [Steady p] [Tracked p] {f : α → Reader β} [∀ a, Steady (f a)]
    [∀ a, Tracked (f a)] {w : List Char} {a : α} (hp : p.on (w ++ t) = some (a, t))
    (hreach : p.reach (w ++ t) ≤ w.length + 1) (h : Stops (f a) t k) (hk : 0 < k) :
    Stops (p >>= f) (w ++ t) (w.length + k) := by
  have hstops := bind_next hp h hk
  rwa [Nat.max_eq_right (by omega)] at hstops

/-- The value of a part does not matter. -/
theorem map {p : Reader α} [Steady p] [Tracked p] (h : Stops p t k) (f : α → β) :
    Stops (f <$> p) t k := by
  show Stops (p >>= fun a => pure (f a)) t k
  exact h.bind_first _

/-- A part with a name. -/
theorem label {p : Reader α} [Tracked p] (h : Stops p t k) (name : String) :
    Stops (label name p) t k :=
  ⟨h.on_eq, (reach_label name p t).trans h.reach_eq⟩

/-- Alternatives. -/
theorem orElse {p q : Reader α} [Steady p] [Tracked p] [Steady q] [Tracked q] (hp : Stops p t j)
    (hq : Stops q t k) : Stops (orElse p q) t (max j k) where
  on_eq := by rw [on_orElse, hp.on_eq, hq.on_eq, Option.none_or]
  reach_eq := by rw [reach_orElse, hp.on_eq, hp.reach_eq, Option.elim_none, hq.reach_eq]

/-- Several alternatives. -/
theorem firstOf_cons {p : Reader α} {ps : List (Reader α)} [Steady p] [Tracked p]
    [Steady (firstOf ps)] [Tracked (firstOf ps)] (hp : Stops p t j) (hps : Stops (firstOf ps) t k) :
    Stops (firstOf (p :: ps)) t (max j k) :=
  hp.orElse hps

/-- No alternative. -/
theorem firstOf_nil : Stops (firstOf ([] : List (Reader α))) t 0 :=
  ⟨rfl, rfl⟩

/-- A character that is not the one looked for. -/
theorem char {x : Char} (h : t.head? ≠ some x) : Stops (char x) t 1 where
  on_eq := on_char_eq_none h
  reach_eq := by rw [reach_char, on_char_eq_none h, Option.elim_none]

/-- What follows a character. -/
theorem behind_char {x : Char} {f : Char → Reader β} [∀ a, Steady (f a)] [∀ a, Tracked (f a)]
    (h : Stops (f x) t k) (hk : 0 < k) : Stops (Reader.char x >>= f) (x :: t) (1 + k) := by
  have hreach : (Reader.char x).reach ([x] ++ t) ≤ 1 + 1 := by
    rw [reach_char, List.singleton_append, on_char_cons]
    exact Nat.zero_le _
  exact bind_last (w := [x]) (on_char_cons x t) hreach h hk

/-- What follows blanks. -/
theorem skip {f : Unit → Reader β} [∀ a, Steady (f a)] [∀ a, Tracked (f a)]
    (h : Stops (f ()) t k) (hk : 0 < k) (lead : Blanks) (ht : t.head?.any Text.isBlank = false) :
    Stops (skipBlanks >>= f) (lead.chars ++ t) (lead.chars.length + k) :=
  bind_last (spells_skipBlanks.complete lead ht) (Nat.zero_le _) h hk

end Stops

/-! ## How far a reader looks behind what it reads -/

/-- A reader does not look behind the character that no word goes on with. -/
theorem Follows.reach_le {p : Reader α} {L : Language Char} (hp : Follows p L)
    {w rest : List Char} (h : ∀ c ∈ rest.head?, ∀ y, w ++ c :: y ∉ L) :
    p.reach (w ++ rest) ≤ w.length + 1 := by
  -- Otherwise the word and the character behind it could be completed.
  by_contra hlt
  obtain ⟨i, hi⟩ : ∃ i, p.reach (w ++ rest) = i + 1 := ⟨p.reach (w ++ rest) - 1, by omega⟩
  obtain ⟨hle, s, hs⟩ := hp.viable _ i hi
  cases rest with
  | nil =>
    rw [List.append_nil] at hle
    omega
  | cons c rest =>
    obtain ⟨j, rfl⟩ : ∃ j, i = w.length + (j + 1) := ⟨i - w.length - 1, by omega⟩
    rw [List.take_length_add_append, List.take_succ_cons, List.append_assoc, List.cons_append] at hs
    exact h c rfl _ hs

/-- An item ends at a mark. -/
theorem Entry.append_not_mem {k : Kind} (e : Entry k) {c : Char} (hc : c ∈ [',', ']', '}'])
    (y : List Char) : e.text ++ c :: y ∉ entries k := by
  rintro ⟨e', he'⟩
  let n := max e.tree.height e'.tree.height
  have hspells := spells_item k (spells_value n)
  -- Both would be read from the same text, and they end at different places.
  have hends : EndsValue (c :: y) := fun x hx => Option.some.inj hx ▸ hc
  have hend : EndsValue [] := fun x hx => nomatch hx
  have hrest := (hspells.unique (i := ⟨e, Nat.le_max_left _ _⟩) (j := ⟨e', Nat.le_max_right _ _⟩)
    hends hend (by rw [List.append_nil]; exact he')).2
  exact List.cons_ne_nil c y hrest

/-- A key ends at a character that cannot stand in a key. -/
theorem Key.append_not_mem (key : Key) {c : Char} (hc : isKeyChar c = false) (y : List Char) :
    key.text ++ c :: y ∉ texts Key.text := by
  rintro ⟨key', hkey'⟩
  have hends : (c :: y).head?.any isKeyChar = false := hc
  have hend : ([] : List Char).head?.any isKeyChar = false := rfl
  have hrest := (spells_key.unique hends hend (by rw [List.append_nil]; exact hkey')).2
  exact List.cons_ne_nil c y hrest

/-! ## Where a value is due -/

/-- Whether a text starts with a number that is out of range. -/
def StartsOutOfRange (t : List Char) : Prop :=
  ∃ n rest, numeral.on t = some (n, rest) ∧ ¬ n.InRange

/-- Whether a value is due behind a text, which starts where a value or the items of a container
start. -/
inductive Due : Category → List Char → Prop where
  /-- At once. -/
  | here : Due .value []
  /-- Inside of a container. -/
  | inside {k : Kind} {w : List Char} : Due (.items k) w → Due .value (k.opening :: w)
  /-- In the first of the items. -/
  | first {k : Kind} {w : List Char} (lead : Blanks) (label : Label k) :
    Due .value w → Due (.items k) (lead.chars ++ (label.text ++ w))
  /-- In one of the items behind the first. -/
  | later {k : Kind} {w : List Char} (e : Entry k) :
    Due (.items k) w → Due (.items k) (e.text ++ ',' :: w)

/-- A number starts like a literal. -/
theorem StartsOutOfRange.startsLiteral {r : List Char} (h : StartsOutOfRange r) :
    StartsLiteral r := by
  obtain ⟨n, rest, hon, -⟩ := h
  obtain ⟨w, -, rfl⟩ := spells_numeral.sound hon
  exact w.startsLiteral.append rest

/-- What stands where a value is due starts like a literal, and so does what stands before it. -/
theorem Due.startsLiteral {w r : List Char} (h : Due .value w) (hr : StartsLiteral r) :
    StartsLiteral (w ++ r) := by
  cases h with
  | here => exact hr
  | @inside k w _ => exact ⟨k.opening, w ++ r, rfl, by cases k <;> decide, by cases k <;> decide⟩

/-! ## Literals that start otherwise -/

section Alternatives

variable {v : Reader Value} [Steady v] [Tracked v] {c x : Char} {t r : List Char}

/-- A container starts with its bracket. -/
theorem stops_container {k : Kind} (h : c ≠ k.opening) : Stops (k.container v) (c :: t) 1 := by
  unfold Kind.container
  exact (Stops.char (by simpa using h)).bind_first _

/-- A string starts with a quote. -/
theorem stops_string (h : c ∉ ['\'', '"']) : Stops string (c :: t) 1 := by
  have hquoted : ∀ quote ∈ ['\'', '"'], Stops (quoted quote) (c :: t) 1 := by
    intro quote hquote
    unfold quoted
    refine (Stops.char ?_).bind_first _
    rintro hc
    exact h (Option.some.inj hc ▸ hquote)
  exact ((hquoted '\'' (by decide)).orElse (hquoted '"' (by decide))).label _

/-- A word starts with its first letter. -/
theorem stops_word (h : c ≠ x) (word : List Char) (a : Value) :
    Stops (do keyword (x :: word); return a : Reader Value) (c :: t) 1 :=
  ((Stops.char (by simpa using h)).bind_first fun _ => keyword word).bind_first _

/-- A number does not start with a bracket. -/
theorem stops_number (h : c ∈ ['{', '[']) : Stops number (c :: t) 1 := by
  have hnumeral : numeral.on (c :: t) = none := by
    by_contra hsome
    obtain ⟨r, hr⟩ := Option.ne_none_iff_exists'.1 hsome
    obtain ⟨w, -, htext⟩ := spells_numeral.sound hr
    refine w.head_not_mem r.2 c (by rw [← htext]; rfl) ?_
    exact List.mem_append_left ['\'', '"'] h
  have hreach : numeral.reach (c :: t) = 1 := by
    rcases reach_numeral_of_none hnumeral with hreach | ⟨-, t', heq⟩
    · exact hreach
    · rw [(List.cons.inj heq).1] at h
      exact absurd h (by decide)
  refine Stops.label ⟨?_, ?_⟩ _
  · rw [on_checked, hnumeral]
    rfl
  · rw [reach_checked, hnumeral, hreach]
    rfl

/-- A number out of range is not read, and the blame goes to its first character. -/
theorem StartsOutOfRange.stops_number (h : StartsOutOfRange r) : Stops number r 1 := by
  obtain ⟨n, rest, hon, hrange⟩ := h
  have hvalue : n.value? = none := by
    rw [Option.eq_none_iff_forall_not_mem]
    exact fun m hm => hrange (Numeral.exists_value?_iff.1 ⟨m, hm⟩)
  refine Stops.label ⟨?_, ?_⟩ _
  · rw [on_checked, hon, Option.bind_some, hvalue]
    rfl
  · rw [reach_checked, hon, Option.any_some, hvalue]
    rfl

/-- A number starts with a sign or a digit. -/
theorem StartsOutOfRange.exists_cons (h : StartsOutOfRange r) :
    ∃ c t, r = c :: t ∧ c ∉ ['{', '[', '\'', '"', 't', 'f', 'n'] := by
  obtain ⟨n, rest, hon, -⟩ := h
  obtain ⟨w, -, rfl⟩ := spells_numeral.sound hon
  unfold WrittenNumeral.text
  cases w.negative with
  | true => exact ⟨'-', _, rfl, by decide⟩
  | false =>
    rw [if_neg Bool.false_ne_true, List.nil_append]
    obtain ⟨⟨_ | ⟨c, chars⟩, hne, hall⟩, hlast⟩ : ∃ d : Digits, d = w.whole := ⟨_, rfl⟩
    · exact absurd rfl hne
    · refine ⟨c, _, by rw [← hlast]; rfl, fun hmem => ?_⟩
      rw [List.all_cons, Bool.and_eq_true] at hall
      simp only [List.mem_cons, List.not_mem_nil, or_false] at hmem
      rcases hmem with rfl | rfl | rfl | rfl | rfl | rfl | rfl <;> exact absurd hall.1 (by decide)

/-- No literal is read where a number out of range stands. -/
theorem StartsOutOfRange.stops_core (h : StartsOutOfRange r) : Stops (core v) r 1 := by
  have hnumber := h.stops_number.map Value.number
  obtain ⟨c, t, rfl, hc⟩ := h.exists_cons
  simp only [List.mem_cons, List.not_mem_nil, or_false, not_or] at hc
  obtain ⟨hbrace, hbracket, hsingle, hdouble, htrue, hfalse, hnull⟩ := hc
  exact (Stops.label (stops_container (k := .object) hbrace) _).firstOf_cons <|
    (Stops.label (stops_container (k := .array) hbracket) _).firstOf_cons <|
    ((stops_string (by simp [hsingle, hdouble])).map _).firstOf_cons <|
    hnumber.firstOf_cons <| (stops_word htrue _ _).firstOf_cons <|
    (stops_word hfalse _ _).firstOf_cons <| (stops_word hnull _ _).firstOf_cons .firstOf_nil

/-- What starts with a bracket is read as a container or not at all. -/
theorem stops_core_opening {k : Kind} {j : Nat}
    (h : Stops (k.container v) (k.opening :: t) (j + 1)) :
    Stops (core v) (k.opening :: t) (j + 1) := by
  have hopening : k.opening ∈ ['{', '['] := by cases k <;> decide
  have hstring : Stops string (k.opening :: t) 1 := stops_string (by cases k <;> decide)
  have hword : ∀ x ∈ ['t', 'f', 'n'], ∀ word a,
      Stops (do keyword (x :: word); return a : Reader Value) (k.opening :: t) 1 := by
    intro x hx word a
    refine stops_word ?_ word a
    rintro rfl
    revert hx
    cases k <;> decide
  have hothers := (hstring.map Value.string).firstOf_cons <|
    ((stops_number hopening).map Value.number).firstOf_cons <|
    (hword 't' (by decide) ['r', 'u', 'e'] (.bool true)).firstOf_cons <|
    (hword 'f' (by decide) ['a', 'l', 's', 'e'] (.bool false)).firstOf_cons <|
    (hword 'n' (by decide) ['u', 'l', 'l'] .null).firstOf_cons .firstOf_nil
  have hmax : max (j + 1) (max 1 1) = j + 1 ∧ max 1 (max (j + 1) 1) = j + 1 := by omega
  cases k with
  | object =>
    rw [← hmax.1]
    exact (h.label _).firstOf_cons <|
      (Stops.label (stops_container (k := .array) (by decide)) _).firstOf_cons hothers
  | array =>
    rw [← hmax.2]
    exact (Stops.label (stops_container (k := .object) (by decide)) _).firstOf_cons <|
      (h.label _).firstOf_cons hothers

end Alternatives

/-! ## Values and items -/

section Places

variable {k : Kind} {n : Nat} {w r t : List Char}

/-- A value stops where it does without the blanks before it. -/
theorem Stops.value {j : Nat} (h : Stops (core (value n)) t j) (hj : 0 < j) (lead : Blanks)
    (ht : StartsLiteral t) :
    Stops (value (n + 1)) (lead.chars ++ t) (lead.chars.length + j) := by
  rw [value_succ]
  exact (h.bind_first _).skip hj lead ht.not_blank

/-- Reads the items of a container, with the blanks before them. -/
def itemList (k : Kind) (n bound : Nat) : Reader (List k.Item) := do
  skipBlanks
  separated comma (k.item (value n)) bound

/-- What happens at a number out of range that is due behind a text: no value is read, and of the
items of a container those before the number are. In both cases the furthest failure lies at the
first character of the number. -/
def StopsAt (r : List Char) : Category → List Char → Prop
  | .value, w => ∀ n, (w ++ r).length ≤ n → Stops (core (value n)) (w ++ r) (w.length + 1)
  | .items k, w => ∀ n bound, (w ++ r).length < n →
    ((w ++ r).dropWhile Text.isBlank).length < bound → ∃ items x,
      (itemList k n bound).on (w ++ r) = some (items, x ++ r) ∧
      (itemList k n bound).reach (w ++ r) = w.length + 1 ∧ StartsLiteral (x ++ r)

/-- An item stops at a number that is its value. -/
theorem stops_item (label : Label k) (hw : Due .value w) (hr : StartsLiteral r)
    (h : StopsAt r .value w) (hn : (w ++ r).length < n) :
    Stops (k.item (value n)) (label.text ++ (w ++ r)) (label.text.length + (w.length + 1)) := by
  obtain ⟨n, rfl⟩ : ∃ m, n = m + 1 := ⟨n - 1, by omega⟩
  have hcore := h n (Nat.le_of_lt_succ hn)
  have hstart := hw.startsLiteral hr
  cases label with
  | none => exact hcore.value (Nat.succ_pos _) ⟨[], rfl⟩ hstart
  | key key gap lead =>
    -- The key ends at the blanks before the colon, or at the colon.
    let behind := ':' :: (lead.chars ++ (w ++ r))
    have hblank : behind.head?.any Text.isBlank = false := show Text.isBlank ':' = false by decide
    have hends : (gap.chars ++ behind).head?.any isKeyChar = false :=
      gap.not_key (show isKeyChar ':' = false by decide +kernel)
    have hkey : (orElse string Literal.key).reach (key.text ++ (gap.chars ++ behind)) ≤
        key.text.length + 1 := by
      refine follows_key.reach_le fun c hc y => key.append_not_mem ?_ y
      rw [Option.mem_def.1 hc] at hends
      exact hends
    have htext : (Label.key key gap lead).text ++ (w ++ r) = key.text ++ (gap.chars ++ behind) := by
      simp [Label.text, behind]
    have hlabel := (Label.key key gap lead).startsLiteral hstart
    have hlength : (Label.key key gap lead).text.length + (w.length + 1) = 0 + (key.text.length +
        (gap.chars.length + (1 + (lead.chars.length + (w.length + 1))))) := by
      simp only [Label.text, List.length_append, List.length_cons]
      omega
    rw [htext] at hlabel
    have hvalue := (hcore.value (Nat.succ_pos _) lead hstart).map (Prod.mk key.name)
    have hmember : Stops (member (value (n + 1))) ([] ++ (key.text ++ (gap.chars ++ behind))) _ :=
      .label (.skip (.bind_last (spells_key.complete key hends) hkey
        (.skip (.behind_char hvalue (by omega)) (by omega) gap hblank) (by omega)) (by omega)
        ⟨[], rfl⟩ hlabel.not_blank) _
    rw [htext, hlength]
    exact hmember

/-- Items stop in the first one. -/
theorem StopsAt.first (lead : Blanks) (label : Label k) (hw : Due .value w) (hr : StartsLiteral r)
    (h : StopsAt r .value w) : StopsAt r (.items k) (lead.chars ++ (label.text ++ w)) := by
  intro n bound hn hbound
  obtain ⟨bound, rfl⟩ : ∃ b, bound = b + 1 := ⟨bound - 1, by omega⟩
  have hstart := label.startsLiteral (hw.startsLiteral hr)
  have hitem := stops_item label hw hr h (n := n) (by
    simp only [List.length_append] at hn ⊢
    omega)
  have hskip := spells_skipBlanks.complete lead hstart.not_blank
  have htext : lead.chars ++ (label.text ++ w) ++ r = lead.chars ++ (label.text ++ (w ++ r)) := by
    simp only [List.append_assoc]
  rw [htext]
  refine ⟨[], label.text ++ w, ?_, ?_, ?_⟩
  · rw [itemList, on_bind, hskip, Option.bind_some, on, reading_separated_succ, Cursor.start,
      hitem.on_eq, List.append_assoc]
    rfl
  · rw [itemList, reach_bind, hskip, Option.elim_some, reach_separated_succ, hitem.on_eq,
      hitem.reach_eq, reach_skipBlanks, Option.elim_none, Nat.max_zero, Nat.zero_max,
      shift_of_pos _ (by omega)]
    simp only [List.length_append]
    omega
  · rw [List.append_assoc]
    exact hstart

/-- A comma is read with the blanks behind it, and nothing fails. -/
theorem reach_comma_cons (t : List Char) : comma.reach (',' :: t) = 0 := by
  have hcomma : (',' :: t).dropWhile Text.isBlank = ',' :: t :=
    List.dropWhile_cons_of_neg (by decide)
  simp [comma, hcomma]

/-- An item without the blanks before it. -/
def Entry.bare (e : Entry k) : Entry k :=
  ⟨⟨[], List.all_nil⟩, e.label, e.tree, e.trail⟩

theorem Entry.text_eq (e : Entry k) : e.text = e.lead.chars ++ e.bare.text :=
  rfl

theorem Entry.bare_startsLiteral (e : Entry k) (rest : List Char) :
    StartsLiteral (e.bare.text ++ rest) := by
  have hlabel := (e.label.startsLiteral e.tree.startsLiteral).append (e.trail.chars ++ rest)
  simpa [Entry.text, Entry.bare] using hlabel

section Later

variable (e : Entry k) (hheight : e.tree.height ≤ n) (bound : Nat) (t : List Char)

/-- The blanks before an item are skipped. -/
theorem on_skipBlanks_entry (rest : List Char) :
    skipBlanks.on (e.text ++ rest) = some ((), e.bare.text ++ rest) := by
  rw [e.text_eq, List.append_assoc]
  exact spells_skipBlanks.complete e.lead (e.bare_startsLiteral rest).not_blank

include hheight

/-- An item is read up to the comma behind it. -/
theorem on_item_comma :
    (k.item (value n)).on (e.bare.text ++ ',' :: t) = some (e.label.item e.tree.value, ',' :: t) :=
  (spells_item k (spells_value n)).complete ⟨e.bare, hheight⟩ (endsValue_comma t)

/-- Items are read behind the first one. -/
theorem on_itemList_later :
    (itemList k n (bound + 1)).on (e.text ++ ',' :: t) =
      ((itemList k n bound).on t).map fun r => (e.label.item e.tree.value :: r.1, r.2) := by
  have hlist : (itemList k n bound).on t =
      (separated comma (k.item (value n)) bound).on (t.dropWhile Text.isBlank) := by
    rw [itemList, on_bind, on_skipBlanks, Option.bind_some]
  rw [itemList, on_bind, on_skipBlanks_entry, Option.bind_some, on, reading_separated_succ,
    Cursor.start, on_item_comma e hheight, Option.elim_some, on_comma_cons, Option.elim_some, hlist]

/-- What fails behind the first item fails further on than the first item does. -/
theorem reach_itemList_later {j : Nat} (h : (itemList k n bound).reach t = j + 1) :
    (itemList k n (bound + 1)).reach (e.text ++ ',' :: t) = (e.text ++ [',']).length + (j + 1) := by
  rw [itemList, reach_bind, on_skipBlanks, Option.elim_some, reach_skipBlanks, Nat.zero_max] at h
  obtain ⟨i, hi, hji⟩ := shift_eq_succ h
  have hitem : (k.item (value n)).reach (e.bare.text ++ ',' :: t) ≤ e.bare.text.length + 1 :=
    (follows_item k (follows_value n)).reach_le fun c hc y =>
      e.bare.append_not_mem (by rw [← Option.some.inj hc]; decide) y
  have hrest : (t.dropWhile Text.isBlank).length ≤ t.length :=
    (List.dropWhile_suffix _).length_le
  rw [itemList, reach_bind, on_skipBlanks_entry, Option.elim_some, reach_separated_succ,
    on_item_comma e hheight, Option.elim_some, on_comma_cons, Option.elim_some, reach_comma_cons,
    reach_skipBlanks, Nat.zero_max, Nat.zero_max, hi, shift_of_pos _ (Nat.succ_pos i),
    shift_of_pos _ (Nat.add_pos_right _ (Nat.succ_pos i)), shift_of_pos, e.text_eq]
  · simp only [List.length_append, List.length_cons, List.length_nil]
    dsimp only at hji
    omega
  · omega

end Later

/-- Items stop behind the first one. -/
theorem StopsAt.later (e : Entry k) (h : StopsAt r (.items k) w) :
    StopsAt r (.items k) (e.text ++ ',' :: w) := by
  intro n bound hn hbound
  obtain ⟨bound, rfl⟩ : ∃ b, bound = b + 1 := ⟨bound - 1, by omega⟩
  rw [List.append_assoc, List.cons_append] at hn hbound ⊢
  have hheight : e.tree.height ≤ n := by
    have hle := e.tree.height_le_length
    simp only [Entry.text, List.length_append] at hn
    omega
  -- The item and the comma take a step of the bound, and at least a character of the text.
  have hrest : ((w ++ r).dropWhile Text.isBlank).length ≤ (w ++ r).length :=
    (List.dropWhile_suffix _).length_le
  rw [e.text_eq, List.append_assoc, e.lead.dropWhile_append,
    (e.bare_startsLiteral _).dropWhile_eq, List.length_append, List.length_cons] at hbound
  rw [List.length_append, List.length_cons] at hn
  obtain ⟨items, x, hon, hreach, hx⟩ := h n bound (by omega) (by omega)
  refine ⟨e.label.item e.tree.value :: items, x, ?_, ?_, hx⟩
  · rw [on_itemList_later e hheight, hon]
    rfl
  · rw [reach_itemList_later e hheight bound (w ++ r) hreach]
    simp only [List.length_append, List.length_cons, List.length_nil]
    omega

/-- A container does not end where a literal starts. -/
theorem stops_closing (ht : StartsLiteral t) (v : Value) :
    Stops (do skipBlanks; let _ ← char k.closing; return v : Reader Value) t 1 := by
  have hclosing : Stops (char k.closing) t 1 := by
    obtain ⟨c, tail, rfl, -, hmark⟩ := ht
    refine .char fun hhead => hmark ?_
    rw [Option.some.inj hhead]
    cases k <;> decide
  exact .skip (hclosing.bind_first _) Nat.one_pos ⟨[], rfl⟩ ht.not_blank

/-- A container stops where its items do. -/
theorem StopsAt.inside (h : StopsAt r (.items k) w) : StopsAt r .value (k.opening :: w) := by
  intro n hn
  let lead := (w ++ r).takeWhile Text.isBlank
  let t := (w ++ r).dropWhile Text.isBlank
  have hlead : lead ++ t = w ++ r := List.takeWhile_append_dropWhile
  have hskip : skipBlanks.on (lead ++ t) = some ((), t) := by rw [hlead, on_skipBlanks]
  obtain ⟨items, x, hon, hreach, hx⟩ := h n (t.length + 1) hn (Nat.lt_succ_self _)
  rw [itemList, on_bind, on_skipBlanks, Option.bind_some] at hon
  rw [itemList, reach_bind, ← hlead, hskip, Option.elim_some, reach_skipBlanks, Nat.zero_max]
    at hreach
  obtain ⟨i, hi, hwi⟩ := shift_eq_succ hreach
  obtain ⟨y, hy⟩ : ∃ y, t = y ++ (x ++ r) := exists_append_of_on hon
  -- The bracket is missed at the item that was not read, and the number lies there or further on.
  have hitems : Stops (do
      let items ← commaSeparated (k.item (value n))
      skipBlanks
      let _ ← char k.closing
      return k.value items : Reader Value) (y ++ (x ++ r)) _ :=
    .bind_next (by rw [← hy]; exact hon) (stops_closing hx _) Nat.one_pos
  have hmax : max ((commaSeparated (k.item (value n))).reach (y ++ (x ++ r))) (y.length + 1) =
      i + 1 := by
    have hlist : (commaSeparated (k.item (value n))).reach t = i + 1 := hi
    have hlength := congrArg List.length hlead
    have htlength := congrArg List.length hy
    simp only [List.length_append] at hlength htlength hwi
    rw [← hy, hlist]
    omega
  rw [hmax, ← hy] at hitems
  have hcontainer : Stops (k.container (value n)) (k.opening :: (lead ++ t)) _ :=
    .behind_char (.bind_last hskip (Nat.zero_le _) hitems (Nat.succ_pos i)) (Nat.succ_pos _)
  have hlength : 1 + (lead.length + (i + 1)) = (k.opening :: w).length + 1 := by
    simp only [List.length_append, List.length_cons] at hwi ⊢
    omega
  rw [hlength, hlead] at hcontainer
  exact stops_core_opening hcontainer

/-- Where a value is due, a number out of range is not read, and the blame goes to its first
character. -/
theorem stopsAt_of_due (hr : StartsOutOfRange r) {c : Category} (h : Due c w) : StopsAt r c w := by
  induction h with
  | here => exact fun n _ => hr.stops_core
  | inside _ ih => exact ih.inside
  | first lead label hw ih => exact .first lead label hw hr.startsLiteral ih
  | later e _ ih => exact ih.later e

/-- A text in which a number out of range is due is not read, and the furthest failure lies at the
first character of that number. -/
theorem stops_value_of_due (lead : Blanks) (hw : Due .value w) (hr : StartsOutOfRange r)
    (hn : (lead.chars ++ (w ++ r)).length < n) :
    Stops (value n) (lead.chars ++ (w ++ r)) ((lead.chars ++ w).length + 1) := by
  obtain ⟨n, rfl⟩ : ∃ m, n = m + 1 := ⟨n - 1, by omega⟩
  have hlength : (w ++ r).length ≤ n := by
    rw [List.length_append] at hn
    omega
  have hvalue := (stopsAt_of_due hr hw n hlength).value (Nat.succ_pos _) lead
    (hw.startsLiteral hr.startsLiteral)
  rwa [← Nat.add_assoc, ← List.length_append] at hvalue

end Places

end FindSelect.Literal
