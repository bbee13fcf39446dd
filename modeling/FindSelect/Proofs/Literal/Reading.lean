import FindSelect.Proofs.Literal.Derivation

/-!
# The grammar reads exactly the literals

`spells_value` says that the grammar reads exactly the texts of trees, with blanks around them, each
with its value. The bound of the grammar is on the height of the tree, and since no tree is higher
than its text is long, `read_eq_ok` does without it: a text is read if and only if it is a literal.

Both directions go by the height. A container is read if its items are, and the items are read one
after another, each up to the comma or the bracket behind it.
-/

namespace FindSelect.Literal

open Reader

/-! ## Items -/

/-- Reads an item of a container, given how to read values. -/
def Kind.item : (k : Kind) → Reader Value → Reader k.Item
  | .array, v => v
  | .object, v => member v

/-- Reads a container, given how to read values. -/
def Kind.container (k : Kind) (v : Reader Value) : Reader Value := do
  let _ ← char k.opening
  skipBlanks
  let items ← commaSeparated (k.item v)
  skipBlanks
  let _ ← char k.closing
  return k.value items

/-- Whether a literal ends before a text: at a comma, at a closing bracket or at the end. -/
def EndsValue (rest : List Char) : Prop :=
  ∀ c ∈ rest.head?, c ∈ [',', ']', '}']

/-- A literal ends before a closing bracket. -/
theorem Kind.endsValue_closing (k : Kind) (tail : List Char) : EndsValue (k.closing :: tail) := by
  cases k <;> simp [EndsValue, Kind.closing]

/-- A literal ends before a comma. -/
theorem endsValue_comma (tail : List Char) : EndsValue (',' :: tail) := by
  simp [EndsValue]

/-- Blanks before a text are skipped with those that it starts with. -/
theorem Blanks.dropWhile_append (b : Blanks) (text : List Char) :
    (b.chars ++ text).dropWhile Text.isBlank = text.dropWhile Text.isBlank :=
  List.dropWhile_append_of_pos (List.all_eq_true.1 b.all)

/-- Blanks before a character that is not blank are skipped. -/
theorem Blanks.dropWhile_append_cons (b : Blanks) {c : Char} (hc : Text.isBlank c = false)
    (tail : List Char) : (b.chars ++ c :: tail).dropWhile Text.isBlank = c :: tail := by
  rw [b.dropWhile_append, List.dropWhile_cons_of_neg (by simp [hc])]

/-- Blanks before a closing bracket are skipped. -/
theorem Kind.dropWhile_closing (k : Kind) (trail : Blanks) (tail : List Char) :
    (trail.chars ++ k.closing :: tail).dropWhile Text.isBlank = k.closing :: tail :=
  trail.dropWhile_append_cons (by cases k <;> decide) tail

/-- What stands behind a literal is not blank. -/
theorem EndsValue.not_blank {rest : List Char} (h : EndsValue rest) :
    rest.head?.any Text.isBlank = false := by
  refine any_head?_eq_false fun c hc => ?_
  have hmem := h c hc
  simp only [List.mem_cons, List.not_mem_nil, or_false] at hmem
  rcases hmem with rfl | rfl | rfl <;> decide

/-- Blanks are skipped up to what is not blank. -/
theorem spells_skipBlanks :
    Spells skipBlanks Blanks.chars (fun _ => ())
      fun rest => rest.head?.any Text.isBlank = false where
  sound := by
    intro t a rest h
    simp only [on_skipBlanks, Option.some.injEq, Prod.mk.injEq] at h
    refine ⟨⟨t.takeWhile Text.isBlank, List.all_takeWhile⟩, rfl, ?_⟩
    rw [← h.2]
    exact List.takeWhile_append_dropWhile.symm
  complete := by
    intro blanks rest hrest
    rw [on_skipBlanks, (Text.takeWhile_run blanks.all hrest).2]

/-- Behind blanks, or at once, there is no key character if there is none behind the blanks. -/
theorem Blanks.not_key (blanks : Blanks) {rest : List Char}
    (hrest : rest.head?.any isKeyChar = false) :
    (blanks.chars ++ rest).head?.any isKeyChar = false := by
  obtain ⟨chars, hall⟩ := blanks
  cases chars with
  | nil => exact hrest
  | cons c chars =>
    rw [List.all_cons, Bool.and_eq_true] at hall
    by_contra hkey
    have hc : isKeyChar c = true := by simpa using hkey
    rw [(not_blank_of_isKeyChar hc).1] at hall
    exact absurd hall.1 (by decide)

/-- What starts like a literal is not blank. -/
theorem StartsLiteral.not_blank {text : List Char} (h : StartsLiteral text) :
    text.head?.any Text.isBlank = false := by
  obtain ⟨c, rest, rfl, hc, -⟩ := h
  simpa using hc

/-- Nothing is skipped before what starts like a literal. -/
theorem StartsLiteral.dropWhile_eq {text : List Char} (h : StartsLiteral text) :
    text.dropWhile Text.isBlank = text :=
  (Text.takeWhile_run (show [].all Text.isBlank = true from rfl) h.not_blank).2

section Items

variable {v : Reader Value} [Steady v] {n : Nat}

/-- That a reader reads the trees up to a height, with the blanks around them. -/
def ReadsTrees (v : Reader Value) (n : Nat) : Prop :=
  Spells v (fun e : { e : Entry .array // e.tree.height ≤ n } => e.1.text) (fun e => e.1.tree.value)
    EndsValue

instance : Steady (member v) := by
  unfold member
  infer_instance

instance (k : Kind) : Steady (k.item v) := by
  cases k with
  | array => assumption
  | object => exact inferInstanceAs (Steady (member v))

instance (k : Kind) : Steady (k.container v) := by
  unfold Kind.container
  infer_instance

/-- A member is read with its key. -/
theorem spells_member (h : ReadsTrees v n) :
    Spells (member v) (fun e : { e : Entry .object // e.tree.height ≤ n } => e.1.text)
      (fun e => (e.1.label.item e.1.tree.value : String × Value)) EndsValue := by
  constructor
  · intro t a rest ht
    simp only [member, on_label, on_bind, on_pure, Option.bind_eq_some_iff, Option.some.injEq,
      Prod.mk.injEq] at ht
    obtain ⟨⟨⟨⟩, t₁⟩, hlead, ⟨name, t₂⟩, hkey, ⟨⟨⟩, t₃⟩, hgap, ⟨c, t₄⟩, hcolon, ⟨value, t₅⟩,
      hvalue, rfl, rfl⟩ := ht
    obtain ⟨lead, -, rfl⟩ := spells_skipBlanks.sound hlead
    obtain ⟨key, rfl, rfl⟩ := spells_key.sound hkey
    obtain ⟨gap, -, rfl⟩ := spells_skipBlanks.sound hgap
    obtain ⟨rfl, -⟩ := on_char_eq_some.1 hcolon
    obtain ⟨⟨⟨lead', label, tree, trail⟩, hheight⟩, rfl, rfl⟩ := h.sound hvalue
    cases label
    exact ⟨⟨⟨lead, .key key gap lead', tree, trail⟩, hheight⟩, rfl, by
      simp [Entry.text, Label.text]⟩
  · rintro ⟨⟨lead, label, tree, trail⟩, hheight⟩ rest hrest
    cases label with
    | key key gap lead' =>
      have hvalue := h.complete ⟨⟨lead', .none, tree, trail⟩, hheight⟩ hrest
      have hlead := ((Label.key key gap lead').startsLiteral tree.startsLiteral).append
        (trail.chars ++ rest)
      simp only [Entry.text, Label.text, List.nil_append, List.append_assoc, List.cons_append]
        at hvalue hlead
      -- The colon ends the key and the blanks before it.
      have hcolon : isKeyChar ':' = false ∧ Text.isBlank ':' = false := by decide +kernel
      have hgap : ∀ tail, (':' :: tail).head?.any Text.isBlank = false := fun _ => hcolon.2
      have hkey : ∀ tail, (gap.chars ++ ':' :: tail).head?.any isKeyChar = false :=
        fun _ => gap.not_key hcolon.1
      simp only [member, on_label, on_bind, on_pure, Entry.text, Label.text, List.append_assoc,
        List.cons_append]
      rw [spells_skipBlanks.complete lead hlead.not_blank, Option.bind_some,
        spells_key.complete key (hkey _), Option.bind_some, spells_skipBlanks.complete gap (hgap _),
        Option.bind_some, on_char_cons, Option.bind_some, hvalue]
      rfl

/-- An item is read with its label. -/
theorem spells_item (k : Kind) (h : ReadsTrees v n) :
    Spells (k.item v) (fun e : { e : Entry k // e.tree.height ≤ n } => e.1.text)
      (fun e => e.1.label.item e.1.tree.value) EndsValue := by
  cases k with
  | array =>
    constructor
    · intro t a rest ht
      obtain ⟨⟨⟨lead, label, tree, trail⟩, hheight⟩, hvalue, htext⟩ := h.sound ht
      cases label
      exact ⟨⟨⟨lead, .none, tree, trail⟩, hheight⟩, hvalue, htext⟩
    · rintro ⟨⟨lead, label, tree, trail⟩, hheight⟩ rest hrest
      cases label
      exact h.complete ⟨⟨lead, .none, tree, trail⟩, hheight⟩ hrest
  | object => exact spells_member h

/-! ## Lists of items -/

/-- A comma is read with the blanks around it. -/
theorem spells_comma :
    Spells comma (fun b : Blanks × Blanks => b.1.chars ++ ',' :: b.2.chars) (fun _ => ())
      fun rest => rest.head?.any Text.isBlank = false where
  sound := by
    intro t a rest h
    simp only [comma, on_bind, Option.bind_eq_some_iff] at h
    obtain ⟨⟨⟨⟩, t₁⟩, hgap, ⟨c, t₂⟩, hcomma, hlead⟩ := h
    obtain ⟨gap, -, rfl⟩ := spells_skipBlanks.sound hgap
    obtain ⟨rfl, -⟩ := on_char_eq_some.1 hcomma
    obtain ⟨lead, -, rfl⟩ := spells_skipBlanks.sound hlead
    exact ⟨(gap, lead), rfl, by simp⟩
  complete := by
    rintro ⟨gap, lead⟩ rest hrest
    have hgap : ∀ tail, (',' :: tail).head?.any Text.isBlank = false :=
      fun _ => show Text.isBlank ',' = false by decide
    simp only [comma, on_bind, List.append_assoc, List.cons_append]
    rw [spells_skipBlanks.complete gap (hgap _), Option.bind_some, on_char_cons, Option.bind_some,
      spells_skipBlanks.complete lead hrest]

/-- Two runs of blanks, one behind the other. -/
def Blanks.append (b c : Blanks) : Blanks :=
  ⟨b.chars ++ c.chars, by rw [List.all_append, b.all, c.all]; rfl⟩

/-- What is read as a list of items is written as one. -/
theorem separated_sound (k : Kind) (h : ReadsTrees v n) (bound : Nat) {t rest : List Char}
    {items : List k.Item}
    (ht : (separated comma (k.item v) bound).on t = some (items, rest)) :
    ∃ (lead : Blanks) (is : Items k) (trail : Blanks), is.values = items ∧
      t = lead.chars ++ (is.text ++ (trail.chars ++ rest)) ∧ is.height ≤ n := by
  have hitem := spells_item k h
  induction bound generalizing t items with
  | zero =>
    simp only [separated, on_pure, Option.some.injEq, Prod.mk.injEq] at ht
    exact ⟨⟨[], rfl⟩, .nil, ⟨[], rfl⟩, ht.1, ht.2, Nat.zero_le n⟩
  | succ bound ih =>
    rw [on, reading_separated_succ, Cursor.start] at ht
    cases hfirst : (k.item v).on t with
    | none =>
      simp only [hfirst, Option.elim_none, Option.some.injEq, Prod.mk.injEq] at ht
      exact ⟨⟨[], rfl⟩, .nil, ⟨[], rfl⟩, ht.1, ht.2, Nat.zero_le n⟩
    | some r =>
      obtain ⟨⟨⟨lead, label, tree, trail⟩, hheight⟩, hvalue, htext⟩ := hitem.sound hfirst
      cases hcomma : comma.on r.2 with
      | none =>
        simp only [hfirst, hcomma, Option.elim_some, Option.elim_none, Option.some.injEq,
          Prod.mk.injEq] at ht
        exact ⟨lead, .last label tree, trail, by rw [← ht.1, ← hvalue]; rfl,
          by rw [htext, ht.2]; simp [Entry.text, Items.text], hheight⟩
      | some r' =>
        simp only [hfirst, hcomma, Option.elim_some, Option.map_eq_some_iff, Prod.mk.injEq] at ht
        obtain ⟨⟨further, _⟩, hfurther, hitems, rfl⟩ := ht
        obtain ⟨⟨gap, lead'⟩, -, hr⟩ := spells_comma.sound hcomma
        obtain ⟨lead'', is, trail', hvalues, htext', hheight'⟩ := ih hfurther
        -- The blanks around the comma come from the item, the comma and the list behind it.
        refine ⟨lead, .cons label tree (trail.append gap) (lead'.append lead'') is, trail', ?_, ?_,
          Nat.max_le.2 ⟨hheight, hheight'⟩⟩
        · rw [← hitems, ← hvalue, ← hvalues]
          rfl
        · rw [htext, hr, htext']
          simp [Entry.text, Items.text, Blanks.append]

/-- No item starts with the bracket that closes its container. -/
theorem on_item_closing (k : Kind) (h : ReadsTrees v n) (rest : List Char) :
    (k.item v).on (k.closing :: rest) = none := by
  have hclosing : Text.isBlank k.closing = false ∧ k.closing ∈ [',', ']', '}'] := by
    cases k <;> decide
  -- An item that is read starts with a blank or like a literal.
  by_contra hsome
  obtain ⟨r, hr⟩ := Option.ne_none_iff_exists'.1 hsome
  obtain ⟨⟨⟨⟨lead, hlead⟩, label, tree, trail⟩, _⟩, _, htext⟩ := (spells_item k h).sound hr
  cases lead with
  | nil =>
    obtain ⟨c, tail, hstart, -, hc⟩ :=
      (label.startsLiteral tree.startsLiteral).append (trail.chars ++ r.2)
    simp only [Entry.text, List.nil_append, List.append_assoc] at htext hstart
    rw [hstart] at htext
    exact hc ((List.cons.inj htext).1 ▸ hclosing.2)
  | cons c lead =>
    rw [List.all_cons, Bool.and_eq_true] at hlead
    simp only [Entry.text, List.cons_append] at htext
    rw [← (List.cons.inj htext).1, hclosing.1] at hlead
    exact absurd hlead.1 (by decide)

/-- Behind a comma all blanks are skipped. -/
theorem on_comma_cons (text : List Char) :
    comma.on (',' :: text) = some ((), text.dropWhile Text.isBlank) := by
  have hcomma : (',' :: text).dropWhile Text.isBlank = ',' :: text :=
    List.dropWhile_cons_of_neg (by decide)
  simp only [comma, on_bind, on_skipBlanks, hcomma, Option.bind_some, on_char_cons]

/-- A bracket is not a comma. -/
theorem on_comma_closing (k : Kind) (rest : List Char) : comma.on (k.closing :: rest) = none := by
  cases k <;> rfl

/-- What is written as a list of items is read as one, up to the bracket behind it. -/
theorem separated_complete (k : Kind) (h : ReadsTrees v n) (is : Items k) (hheight : is.height ≤ n)
    (trail : Blanks) (rest : List Char) (bound : Nat) (hbound : is.text.length < bound) :
    (separated comma (k.item v) bound).on
        ((is.text ++ (trail.chars ++ k.closing :: rest)).dropWhile Text.isBlank) =
      some (is.values, k.closing :: rest) := by
  have hends := k.endsValue_closing rest
  -- Each item takes a step of the bound, and at least a character of the text.
  induction bound generalizing is with
  | zero => exact absurd hbound (Nat.not_lt_zero _)
  | succ bound ih =>
    rw [on, reading_separated_succ, Cursor.start]
    cases is with
    | nil =>
      rw [Items.text, List.nil_append, k.dropWhile_closing, on_item_closing k h]
      rfl
    | last label t =>
      have hstart := (label.startsLiteral t.startsLiteral).append (trail.chars ++ k.closing :: rest)
      have hitem := (spells_item k h).complete ⟨⟨⟨[], rfl⟩, label, t, trail⟩, hheight⟩ hends
      simp only [Entry.text, List.nil_append, List.append_assoc] at hitem hstart
      rw [Items.text, List.append_assoc, hstart.dropWhile_eq, hitem]
      simp only [Option.elim_some, on_comma_closing, Option.elim_none, Items.values]
    | cons label t gap lead others =>
      rw [Items.height, Nat.max_le] at hheight
      have hstart := fun tail => (label.startsLiteral t.startsLiteral).append tail
      have hitem := fun tail =>
        (spells_item k h).complete ⟨⟨⟨[], rfl⟩, label, t, gap⟩, hheight.1⟩ (endsValue_comma tail)
      have hothers := ih others hheight.2 (by
        simp only [Items.text, List.length_append, List.length_cons] at hbound
        omega)
      simp only [Entry.text, List.nil_append, List.append_assoc] at hitem hstart
      simp only [Items.text, List.append_assoc, List.cons_append]
      rw [(hstart _).dropWhile_eq, hitem]
      simp only [Option.elim_some, on_comma_cons, lead.dropWhile_append, hothers]
      rfl

/-- Items start like a literal if there are any. -/
theorem Items.startsLiteral {k : Kind} (is : Items k) : is.text = [] ∨ StartsLiteral is.text := by
  cases is with
  | nil => exact .inl rfl
  | last label t => exact .inr (label.startsLiteral t.startsLiteral)
  | cons label t gap lead others =>
    have hstart := (label.startsLiteral t.startsLiteral).append
      (gap.chars ++ ',' :: (lead.chars ++ others.text))
    rw [List.append_assoc] at hstart
    exact .inr hstart

/-- A container is read if its items can be. -/
theorem spells_container (k : Kind) (h : ReadsTrees v n) :
    Spells (k.container v)
      (fun c : Blanks × { is : Items k // is.height ≤ n } × Blanks =>
        (Tree.container k c.1 c.2.1.1 c.2.2).text)
      (fun c => (Tree.container k c.1 c.2.1.1 c.2.2).value) fun _ => True := by
  constructor
  · intro t a rest ht
    simp only [Kind.container, on_bind, on_pure, Option.bind_eq_some_iff, Option.some.injEq,
      Prod.mk.injEq] at ht
    obtain ⟨⟨c, t₁⟩, hopen, ⟨⟨⟩, t₂⟩, hlead, ⟨items, t₃⟩, hitems, ⟨⟨⟩, t₄⟩, htrail,
      ⟨c', t₅⟩, hclose, rfl, rfl⟩ := ht
    obtain ⟨rfl, -⟩ := on_char_eq_some.1 hopen
    obtain ⟨lead, -, rfl⟩ := spells_skipBlanks.sound hlead
    obtain ⟨lead', is, trail, rfl, rfl, hheight⟩ := separated_sound k h _ hitems
    obtain ⟨trail', -, rfl⟩ := spells_skipBlanks.sound htrail
    have ht₄ : t₄ = k.closing :: t₅ := (on_char_eq_some.1 hclose).1
    refine ⟨(lead.append lead', ⟨is, hheight⟩, trail.append trail'), rfl, ?_⟩
    simp [Tree.text, Blanks.append, ht₄]
  · rintro ⟨lead, ⟨is, hheight⟩, trail⟩ rest -
    have hclosing : (k.closing :: rest).dropWhile Text.isBlank = k.closing :: rest :=
      List.dropWhile_cons_of_neg (by cases k <;> decide)
    -- The bound of the list is the text that is left, and blanks do not count.
    have hlength : is.text.length ≤
        ((is.text ++ (trail.chars ++ k.closing :: rest)).dropWhile Text.isBlank).length := by
      rcases is.startsLiteral with hnil | hstart
      · simp [hnil]
      · rw [(hstart.append _).dropWhile_eq, List.length_append]
        omega
    have hitems := separated_complete k h is hheight trail rest _ (Nat.lt_succ_of_le hlength)
    simp only [Kind.container, on_bind, on_pure, Tree.text, List.cons_append, List.append_assoc,
      List.nil_append, on_char_cons, Option.bind_some, on_skipBlanks, lead.dropWhile_append,
      on_commaSeparated, hitems, hclosing]
    rfl

end Items

/-! ## Values -/

/-- Reads a value without the blanks around it, given how to read the values inside of it. -/
def core (v : Reader Value) : Reader Value :=
  firstOf [object v, array v, .string <$> string, .number <$> number,
    do keyword ['t', 'r', 'u', 'e']; return .bool true,
    do keyword ['f', 'a', 'l', 's', 'e']; return .bool false,
    do keyword ['n', 'u', 'l', 'l']; return .null]

instance (v : Reader Value) [Steady v] : Steady (object v) :=
  inferInstanceAs (Steady (label _ (Kind.object.container v)))

instance (v : Reader Value) [Steady v] : Steady (array v) :=
  inferInstanceAs (Steady (label _ (Kind.array.container v)))

instance : Steady number := by
  unfold number
  infer_instance

instance (v : Reader Value) [Steady v] : Steady (core v) := by
  unfold core
  infer_instance

/-- A number is read if its numeral has a value. -/
theorem spells_number :
    Spells number
      (fun w : { w : WrittenNumeral × Number // w.1.numeral.value? = some w.2 } => w.1.1.text)
      (fun w => w.1.2) EndsNumeral where
  sound := by
    intro t a rest h
    rw [number, on_label, on_checked, Option.bind_eq_some_iff] at h
    obtain ⟨⟨numeral, t'⟩, hnumeral, hvalue⟩ := h
    obtain ⟨w, rfl, rfl⟩ := spells_numeral.sound hnumeral
    obtain ⟨n, hn, heq⟩ := Option.map_eq_some_iff.1 hvalue
    obtain ⟨rfl, rfl⟩ := Prod.mk.inj heq
    exact ⟨⟨(w, n), hn⟩, rfl, rfl⟩
  complete := by
    rintro ⟨⟨w, n⟩, hn⟩ rest hrest
    rw [number, on_label, on_checked, spells_numeral.complete w hrest, Option.bind_some, hn]
    rfl

/-- A number starts with a sign or a digit. -/
theorem on_number_eq_none {c : Char} (hsign : c ≠ '-') (hdigit : Text.isAsciiDigit c = false)
    (tail : List Char) : number.on (c :: tail) = none := by
  have hnone : digits.on (c :: tail) = none := by
    by_contra hsome
    obtain ⟨r, hr⟩ := Option.ne_none_iff_exists'.1 hsome
    obtain ⟨d, -, htext⟩ := spells_digits.sound hr
    have hc := d.head_accepted r.2 c (by rw [← htext]; rfl)
    rw [hdigit] at hc
    exact absurd hc (by decide)
  have hminus : (char '-').on (c :: tail) = none := on_char_eq_none (by simpa using hsign)
  rw [number, on_label, on_checked, numeral, on_bind, on_optional, hminus]
  simp [hnone]

/-- A container starts with its bracket. -/
theorem on_container_eq_none (k : Kind) (v : Reader Value) [Steady v] {text : List Char}
    (h : text.head? ≠ some k.opening) : (k.container v).on text = none := by
  rw [Kind.container, on_bind, on_char_eq_none h]
  rfl

/-- A number does not start with a bracket or a quote. -/
theorem WrittenNumeral.head_not_mem (w : WrittenNumeral) (rest : List Char) :
    ∀ c ∈ (w.text ++ rest).head?, c ∉ ['{', '[', '\'', '"'] := by
  intro c hc hmem
  unfold WrittenNumeral.text at hc
  cases hnegative : w.negative with
  | true =>
    obtain rfl : '-' = c := by simpa [hnegative] using hc
    exact absurd hmem (by decide)
  | false =>
    simp only [hnegative, Bool.false_eq_true, if_false, List.nil_append, List.append_assoc] at hc
    exact w.whole.head_not_mem _ (by decide) c hc hmem

/-- A literal that is a word is read where the word stands. -/
theorem on_word_eq_some {word : List Char} {x a : Value} {t rest : List Char} :
    (do keyword word; return x : Reader Value).on t = some (a, rest) ↔
      t = word ++ rest ∧ x = a := by
  simp only [on_bind, on_pure, Option.bind_eq_some_iff, Option.some.injEq, Prod.mk.injEq]
  constructor
  · rintro ⟨⟨⟨⟩, t'⟩, hword, rfl, rfl⟩
    exact ⟨on_keyword_eq_some.1 hword, rfl⟩
  · rintro ⟨rfl, rfl⟩
    exact ⟨((), rest), on_keyword_eq_some.2 rfl, rfl, rfl⟩

/-- A literal that is a word starts with the first letter of the word. -/
theorem on_word_eq_none {c x : Char} (h : c ≠ x) (word : List Char) (a : Value) (tail : List Char) :
    (do keyword (x :: word); return a : Reader Value).on (c :: tail) = none := by
  rw [on_bind, keyword, on_bind, on_char_eq_none (by simpa using h)]
  rfl

/-- A literal that starts with the letter of a word is that word. -/
theorem on_core_letter (v : Reader Value) [Steady v] {c : Char} (hc : c ∈ ['t', 'f', 'n'])
    (tail : List Char) :
    (core v).on (c :: tail) =
      (firstOf [do keyword ['t', 'r', 'u', 'e']; return .bool true,
        do keyword ['f', 'a', 'l', 's', 'e']; return .bool false,
        do keyword ['n', 'u', 'l', 'l']; return .null] : Reader Value).on (c :: tail) := by
  have hother : c ∉ ['{', '[', '\'', '"', '-'] ∧ Text.isAsciiDigit c = false := by
    simp only [List.mem_cons, List.not_mem_nil, or_false] at hc
    rcases hc with rfl | rfl | rfl <;> decide
  have hcontainer : ∀ k : Kind, (k.container v).on (c :: tail) = none := by
    intro k
    refine on_container_eq_none k v fun hhead => hother.1 ?_
    rw [show c = k.opening from Option.some.inj hhead]
    cases k <;> decide
  have hobject : (object v).on (c :: tail) = none := hcontainer .object
  have harray : (array v).on (c :: tail) = none := hcontainer .array
  have hstring : string.on (c :: tail) = none := by
    refine on_string_eq_none fun x hx hmem => hother.1 ?_
    obtain rfl : c = x := Option.some.inj hx
    simp_all
  have hnumber : number.on (c :: tail) = none :=
    on_number_eq_none (fun h => hother.1 (by simp [h])) hother.2 tail
  simp only [core, on_firstOf_cons, hobject, harray, on_map, hstring, hnumber, Option.map_none,
    Option.none_or]

/-- A truth value is read. -/
theorem on_core_bool (v : Reader Value) [Steady v] (b : Bool) (rest : List Char) :
    (core v).on ((Tree.bool b).text ++ rest) = some (.bool b, rest) := by
  cases b with
  | true =>
    show (core v).on ('t' :: 'r' :: 'u' :: 'e' :: rest) = _
    rw [on_core_letter v (by decide), on_firstOf_cons]
    exact congrArg (Option.or · _) (on_word_eq_some.2 ⟨rfl, rfl⟩)
  | false =>
    show (core v).on ('f' :: 'a' :: 'l' :: 's' :: 'e' :: rest) = _
    rw [on_core_letter v (by decide), on_firstOf_cons, on_word_eq_none (by decide), Option.none_or,
      on_firstOf_cons]
    exact congrArg (Option.or · _) (on_word_eq_some.2 ⟨rfl, rfl⟩)

/-- The null value is read. -/
theorem on_core_null (v : Reader Value) [Steady v] (rest : List Char) :
    (core v).on (Tree.null.text ++ rest) = some (.null, rest) := by
  show (core v).on ('n' :: 'u' :: 'l' :: 'l' :: rest) = _
  rw [on_core_letter v (by decide), on_firstOf_cons, on_word_eq_none (by decide), Option.none_or,
    on_firstOf_cons, on_word_eq_none (by decide), Option.none_or, on_firstOf_cons]
  exact congrArg (Option.or · _) (on_word_eq_some.2 ⟨rfl, rfl⟩)

/-- A string is read. -/
theorem on_core_string (v : Reader Value) [Steady v] (q : Quoted) (rest : List Char) :
    (core v).on (q.text ++ rest) = some (.string q.content, rest) := by
  have hbrackets : ∀ k : Kind, (k.container v).on (q.text ++ rest) = none := by
    intro k
    refine on_container_eq_none k v fun hhead => ?_
    have hquote := q.quote.2
    rw [show q.quote.1 = k.opening from Option.some.inj hhead] at hquote
    cases k <;> exact absurd hquote (by decide)
  have hobject : (object v).on (q.text ++ rest) = none := hbrackets .object
  have harray : (array v).on (q.text ++ rest) = none := hbrackets .array
  simp only [core, on_firstOf_cons, hobject, harray, on_map, Option.none_or]
  rw [spells_string.complete q trivial]
  rfl

/-- A number is read up to what cannot belong to it. -/
theorem on_core_number (v : Reader Value) [Steady v] {w : WrittenNumeral} {m : Number}
    (hw : w.numeral.value? = some m) {rest : List Char} (hrest : EndsNumeral rest) :
    (core v).on (w.text ++ rest) = some (.number m, rest) := by
  have hbrackets : ∀ k : Kind, (k.container v).on (w.text ++ rest) = none := by
    intro k
    refine on_container_eq_none k v fun hhead => w.head_not_mem rest k.opening hhead ?_
    cases k <;> decide
  have hobject : (object v).on (w.text ++ rest) = none := hbrackets .object
  have harray : (array v).on (w.text ++ rest) = none := hbrackets .array
  have hquote : string.on (w.text ++ rest) = none :=
    on_string_eq_none fun c hc hmem => w.head_not_mem rest c hc (by simp_all)
  simp only [core, on_firstOf_cons, hobject, harray, on_map, hquote, Option.map_none,
    Option.none_or]
  rw [spells_number.complete ⟨(w, m), hw⟩ hrest]
  rfl

/-- A container is read if the values inside of it can be. -/
theorem on_core_container {v : Reader Value} [Steady v] {n : Nat} (h : ReadsTrees v n) (k : Kind)
    (lead trail : Blanks) {is : Items k} (hheight : is.height ≤ n) (rest : List Char) :
    (core v).on ((Tree.container k lead is trail).text ++ rest) =
      some ((Tree.container k lead is trail).value, rest) := by
  have hobject : ∀ t, (object v).on t = (Kind.object.container v).on t := fun _ => rfl
  have harray : ∀ t, (array v).on t = (Kind.array.container v).on t := fun _ => rfl
  have hk : (k.container v).on ((Tree.container k lead is trail).text ++ rest) = some (_, rest) :=
    (spells_container k h).complete (lead, ⟨is, hheight⟩, trail) trivial
  simp only [core, on_firstOf_cons, hobject, harray]
  cases k with
  | object => rw [hk, Option.some_or]
  | array =>
    have hother : (Kind.object.container v).on
        ((Tree.container .array lead is trail).text ++ rest) = none :=
      on_container_eq_none .object v fun hhead => absurd (Option.some.inj hhead) (by decide)
    rw [hk, hother, Option.none_or, Option.some_or]

/-- What is read as a value is the text of a tree. -/
theorem core_sound {v : Reader Value} [Steady v] {n : Nat} (h : ReadsTrees v n) {text : List Char}
    {a : Value} {rest : List Char} (ht : (core v).on text = some (a, rest)) :
    ∃ t : { t : Tree // t.height ≤ n + 1 }, t.1.value = a ∧ text = t.1.text ++ rest := by
  have hobject : ∀ t, (object v).on t = (Kind.object.container v).on t := fun _ => rfl
  have harray : ∀ t, (array v).on t = (Kind.array.container v).on t := fun _ => rfl
  simp only [core, on_firstOf_cons, on_firstOf_nil, hobject, harray, Option.or_eq_some_iff] at ht
  rcases ht with ht | ⟨-, ht | ⟨-, ht | ⟨-, ht | ⟨-, ht | ⟨-, ht | ⟨-, ht | ⟨-, ht⟩⟩⟩⟩⟩⟩⟩
  · obtain ⟨⟨lead, ⟨is, his⟩, trail⟩, rfl, rfl⟩ := (spells_container .object h).sound ht
    exact ⟨⟨.container .object lead is trail, Nat.succ_le_succ his⟩, rfl, rfl⟩
  · obtain ⟨⟨lead, ⟨is, his⟩, trail⟩, rfl, rfl⟩ := (spells_container .array h).sound ht
    exact ⟨⟨.container .array lead is trail, Nat.succ_le_succ his⟩, rfl, rfl⟩
  · rw [on_map, Option.map_eq_some_iff] at ht
    obtain ⟨⟨s, t'⟩, hs, heq⟩ := ht
    obtain ⟨rfl, rfl⟩ := Prod.mk.inj heq
    obtain ⟨q, rfl, rfl⟩ := spells_string.sound hs
    exact ⟨⟨.string q, Nat.le_add_left 1 n⟩, rfl, rfl⟩
  · rw [on_map, Option.map_eq_some_iff] at ht
    obtain ⟨⟨x, t'⟩, hx, heq⟩ := ht
    obtain ⟨rfl, rfl⟩ := Prod.mk.inj heq
    obtain ⟨⟨⟨w, m⟩, hw⟩, rfl, rfl⟩ := spells_number.sound hx
    exact ⟨⟨.number w m hw, Nat.le_add_left 1 n⟩, rfl, rfl⟩
  · obtain ⟨rfl, rfl⟩ := on_word_eq_some.1 ht
    exact ⟨⟨.bool true, Nat.le_add_left 1 n⟩, rfl, rfl⟩
  · obtain ⟨rfl, rfl⟩ := on_word_eq_some.1 ht
    exact ⟨⟨.bool false, Nat.le_add_left 1 n⟩, rfl, rfl⟩
  · obtain ⟨rfl, rfl⟩ := on_word_eq_some.1 ht
    exact ⟨⟨.null, Nat.le_add_left 1 n⟩, rfl, rfl⟩
  · exact absurd ht (by simp)

/-- A value is read if the values inside of it can be. -/
theorem spells_core {v : Reader Value} [Steady v] {n : Nat} (h : ReadsTrees v n) :
    Spells (core v) (fun t : { t : Tree // t.height ≤ n + 1 } => t.1.text) (fun t => t.1.value)
      EndsNumeral where
  sound ht := core_sound h ht
  complete := by
    rintro ⟨t, ht⟩ rest hrest
    -- The first character tells which reader reads the literal; those before it fail.
    cases t with
    | null => exact on_core_null v rest
    | bool b => exact on_core_bool v b rest
    | number w m hw => exact on_core_number v hw hrest
    | string q => exact on_core_string v q rest
    | container k lead is trail =>
      exact on_core_container h k lead trail (Nat.le_of_succ_le_succ ht) rest

/-- The grammar reads values without the blanks around them, and the blanks. -/
theorem value_succ (n : Nat) :
    value (n + 1) = do
      skipBlanks
      let v ← core (value n)
      skipBlanks
      return v :=
  rfl

instance (n : Nat) : Steady (value n) := by
  induction n with
  | zero => exact inferInstanceAs (Steady fail)
  | succ n _ =>
    rw [value_succ]
    infer_instance

/-- A tree has a height. -/
theorem Tree.height_pos (t : Tree) : 0 < t.height := by
  cases t <;> simp [Tree.height]

/-- A number ends before blanks, and where a literal does. -/
theorem EndsValue.endsNumeral (blanks : Blanks) {rest : List Char} (h : EndsValue rest) :
    EndsNumeral (blanks.chars ++ rest) := by
  obtain ⟨chars, hall⟩ := blanks
  cases chars with
  | nil =>
    intro c hc
    have hmem := h c hc
    simp only [List.mem_cons, List.not_mem_nil, or_false] at hmem
    rcases hmem with rfl | rfl | rfl <;> decide
  | cons c chars =>
    intro x hx
    obtain rfl : c = x := Option.some.inj hx
    rw [List.all_cons, Bool.and_eq_true] at hall
    refine ⟨Text.isAsciiDigit_of_isBlank hall.1, fun hmem => ?_⟩
    simp only [List.mem_cons, List.not_mem_nil, or_false] at hmem
    rcases hmem with rfl | rfl | rfl <;> exact absurd hall.1 (by decide)

/-- The grammar reads exactly the trees up to its height, with the blanks around them. -/
theorem spells_value (n : Nat) : ReadsTrees (value n) n := by
  induction n with
  | zero =>
    constructor
    · intro t a rest ht
      exact absurd ht (by simp [value])
    · rintro ⟨e, he⟩ rest -
      exact absurd he (Nat.not_le_of_gt e.tree.height_pos)
  | succ n ih =>
    have hcore := spells_core ih
    constructor
    · intro t a rest ht
      simp only [value_succ, on_bind, on_pure, Option.bind_eq_some_iff, Option.some.injEq,
        Prod.mk.injEq] at ht
      obtain ⟨⟨⟨⟩, t₁⟩, hlead, ⟨v, t₂⟩, hv, ⟨⟨⟩, t₃⟩, htrail, rfl, rfl⟩ := ht
      obtain ⟨lead, -, rfl⟩ := spells_skipBlanks.sound hlead
      obtain ⟨⟨tree, hheight⟩, rfl, rfl⟩ := hcore.sound hv
      obtain ⟨trail, -, rfl⟩ := spells_skipBlanks.sound htrail
      exact ⟨⟨⟨lead, .none, tree, trail⟩, hheight⟩, rfl, by simp [Entry.text, Label.text]⟩
    · rintro ⟨⟨lead, label, tree, trail⟩, hheight⟩ rest hrest
      cases label with
      | none =>
        have hlead := tree.startsLiteral.append (trail.chars ++ rest)
        have htree := hcore.complete ⟨tree, hheight⟩ (hrest.endsNumeral trail)
        simp only [value_succ, on_bind, on_pure, Entry.text, Label.text, List.nil_append,
          List.append_assoc]
        rw [spells_skipBlanks.complete lead hlead.not_blank, Option.bind_some, htree,
          Option.bind_some, spells_skipBlanks.complete trail hrest.not_blank]
        rfl

/-! ## Whole texts -/

mutual
/-- No tree is higher than its text is long. -/
theorem Tree.height_le_length (t : Tree) : t.height ≤ t.text.length := by
  cases t with
  | container k lead is trail =>
    have his := is.height_le_length
    simp only [Tree.height, Tree.text, List.length_cons, List.length_append]
    omega
  | null | bool b | number w n h | string q =>
    obtain ⟨c, tail, htext, -⟩ := Tree.startsLiteral _
    rw [htext, List.length_cons]
    exact Nat.le_add_left 1 _

/-- No item is higher than the text of all of them is long. -/
theorem Items.height_le_length {k : Kind} : (is : Items k) → is.height ≤ is.text.length
  | .nil => Nat.le_refl 0
  | .last label t => by
    have ht := t.height_le_length
    simp only [Items.height, Items.text, List.length_append]
    omega
  | .cons label t gap lead others => by
    have ht := t.height_le_length
    have hothers := others.height_le_length
    simp only [Items.height, Items.text, List.length_append, List.length_cons]
    omega
end

/-- A text is read if and only if it is the text of a tree, with blanks around it. -/
theorem read_eq_ok {text : String} {v : Value} :
    read text = .ok v ↔ ∃ e : Entry .array, e.tree.value = v ∧ text.toList = e.text := by
  unfold read
  rw [run_eq_ok]
  constructor
  · intro h
    obtain ⟨⟨e, _⟩, hvalue, htext⟩ := (spells_value _).sound h
    exact ⟨e, hvalue, by rw [htext, List.append_nil]⟩
  · rintro ⟨e, rfl, htext⟩
    have hheight : e.tree.height ≤ text.length + 1 := by
      have htree := e.tree.height_le_length
      rw [← String.length_toList, htext]
      simp only [Entry.text, List.length_append]
      omega
    have hend : EndsValue [] := by simp [EndsValue]
    have hread := (spells_value _).complete ⟨e, hheight⟩ hend
    rw [htext, ← hread, List.append_nil]

end FindSelect.Literal
