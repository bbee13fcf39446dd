import FindSelect.Proofs.Literal.Acceptance

/-!
# The scan of brackets bounds the depth of the reading

The grammar follows containers into one another, and the scan of brackets is there to stop it. That
it does so is said with a reader of any kind that takes over at the opening bracket of a container
that stands too deep (`bounded`). On a text that the scan lets pass this reader makes no difference,
neither to what is read nor to the failures that are noted on the way, so it is never run:
`staysWithin_bounds_nesting`. It does not matter whether the text is a literal, and the scan is not
stricter than it has to be, for a literal it finds out exactly how deep it is.

Readers are compared from all places where the text behind them is within the limit (`AgreeOn`).
What a reader reads is nested, so the text behind it is within the limit too (`Leads`).
-/

namespace FindSelect.Literal

open Reader

/-! ## A bounded grammar -/

/-- The name of a container in messages. -/
def Kind.title : Kind → String
  | .array => "array like [1, 2]"
  | .object => "object like \x7bname: 'value'\x7d"

/-- Reads a value with the blanks around it, given how to read objects and arrays. -/
def padded (object array : Reader Value) : Reader Value := do
  skipBlanks
  let v ← firstOf [object, array, .string <$> string, .number <$> number,
    do keyword ['t', 'r', 'u', 'e']; return .bool true,
    do keyword ['f', 'a', 'l', 's', 'e']; return .bool false,
    do keyword ['n', 'u', 'l', 'l']; return .null]
  skipBlanks
  return v

/-- Reads a value in which containers stand inside one another to the given depth. At the opening
bracket of a deeper one, `beyond` takes over. -/
def bounded (beyond : Reader Value) : Nat → Reader Value
  | 0 =>
    let stop (k : Kind) := label k.title do
      let _ ← char k.opening
      beyond
    padded (stop .object) (stop .array)
  | n + 1 => padded (object (bounded beyond n)) (array (bounded beyond n))

/-- The grammar is the bounded one without a bound. -/
theorem value_eq_padded (n : Nat) :
    value (n + 1) = padded (label Kind.object.title (Kind.object.container (value n)))
      (label Kind.array.title (Kind.array.container (value n))) :=
  rfl

/-! ## Readers that agree -/

section Agreement

variable {α β : Type} {S S' : List Char → Prop}

/-- Whether two readers come to the same from every place with a certain text behind it, with the
same failures. -/
def AgreeOn (S : List Char → Prop) (p q : Reader α) : Prop :=
  ∀ c furthest, S c.rest → p c furthest = q c furthest

/-- Whether a reader, from a place with a certain text behind it, only gets to such places. -/
def Leads (S : List Char → Prop) (p : Reader α) (S' : List Char → Prop) : Prop :=
  ∀ ⦃t a rest⦄, S t → p.on t = some (a, rest) → S' rest

/-- A reader agrees with itself. -/
theorem AgreeOn.refl (p : Reader α) : AgreeOn S p p :=
  fun _ _ _ => rfl

/-- Sequences agree if their parts do. -/
theorem AgreeOn.bind {p p' : Reader α} {f f' : α → Reader β} [Steady p] (hp : AgreeOn S p p')
    (hleads : Leads S p S') (hf : ∀ a, AgreeOn S' (f a) (f' a)) :
    AgreeOn S (p >>= f) (p' >>= f') := by
  intro c furthest hc
  have hreading : (p c furthest).reading = p.on c.rest := Steady.reading_eq c furthest
  show Reader.bind p f c furthest = Reader.bind p' f' c furthest
  unfold Reader.bind
  rw [← hp c furthest hc]
  rcases hfirst : p c furthest with ⟨_ | ⟨a, c'⟩, furthest'⟩
  · rfl
  · rw [hfirst] at hreading
    exact hf a c' furthest' (hleads hc hreading.symm)

/-- A sequence agrees with another one if they differ in the first part only. -/
theorem AgreeOn.bind_right {p p' : Reader α} (hp : AgreeOn S p p') (f : α → Reader β) :
    AgreeOn S (p >>= f) (p' >>= f) := by
  intro c furthest hc
  show Reader.bind p f c furthest = Reader.bind p' f c furthest
  unfold Reader.bind
  rw [hp c furthest hc]

/-- Alternatives agree if both do. -/
theorem AgreeOn.orElse {p p' q q' : Reader α} (hp : AgreeOn S p p') (hq : AgreeOn S q q') :
    AgreeOn S (orElse p q) (orElse p' q') := by
  intro c furthest hc
  unfold Reader.orElse
  rw [hp c furthest hc]
  rcases p' c furthest with ⟨_ | r, furthest'⟩
  · exact hq c furthest' hc
  · rfl

/-- Several alternatives agree if the first one and the others do. -/
theorem AgreeOn.firstOf_cons {p p' : Reader α} {ps ps' : List (Reader α)} (hp : AgreeOn S p p')
    (hps : AgreeOn S (firstOf ps) (firstOf ps')) :
    AgreeOn S (firstOf (p :: ps)) (firstOf (p' :: ps')) :=
  hp.orElse hps

/-- A part that may be missing. -/
theorem AgreeOn.optional {p p' : Reader α} (hp : AgreeOn S p p') :
    AgreeOn S (optional p) (optional p') :=
  (hp.bind_right fun a => pure (some a)).orElse (.refl _)

/-- A part with a name. -/
theorem AgreeOn.label {p p' : Reader α} (hp : AgreeOn S p p') (name : String) :
    AgreeOn S (label name p) (label name p') := by
  intro c furthest hc
  unfold Reader.label
  rw [hp c none hc]

/-- A part that may be missing leads to where the part leads. -/
theorem Leads.optional {p : Reader α} (hp : Leads S p S) : Leads S (optional p) S := by
  intro t a rest ht hread
  rw [on_optional] at hread
  cases hpt : p.on t with
  | none =>
    simp only [hpt, Option.map_none, Option.none_or, Option.some.injEq, Prod.mk.injEq] at hread
    exact hread.2 ▸ ht
  | some r =>
    simp only [hpt, Option.map_some, Option.some_or, Option.some.injEq, Prod.mk.injEq] at hread
    exact hread.2 ▸ hp ht hpt

/-- Lists agree if their items do. -/
theorem AgreeOn.separated {separator : Reader Unit} {item item' : Reader α} [Steady separator]
    [Steady item] (hitem : AgreeOn S item item') (hleads : Leads S item S)
    (hseparator : Leads S separator S) (n : Nat) :
    AgreeOn S (separated separator item n) (separated separator item' n) := by
  induction n with
  | zero => exact .refl _
  | succ n ih =>
    refine hitem.optional.bind hleads.optional fun first => ?_
    cases first with
    | none => exact .refl _
    | some a =>
      refine (AgreeOn.refl _).bind hseparator.optional fun found => ?_
      cases found with
      | none => exact .refl _
      | some _ => exact ih.bind_right _

/-- Lists with commas agree if their items do. -/
theorem AgreeOn.commaSeparated {item item' : Reader α} [Steady item] (hitem : AgreeOn S item item')
    (hleads : Leads S item S) (hcomma : Leads S comma S) :
    AgreeOn S (commaSeparated item) (commaSeparated item') :=
  fun c furthest hc => hitem.separated hleads hcomma (c.rest.length + 1) c furthest hc

end Agreement

/-! ## Texts within the limit -/

/-- Whether a text is shorter than `n` and its brackets stay within the limit if `level` of them are
open before it. -/
def Within (limit level n : Nat) (text : List Char) : Prop :=
  level ≤ limit ∧ staysWithin limit .outside level text = true ∧ text.length < n

/-- Behind a nested text, the rest is within the limit too. -/
theorem Within.of_append {limit level n m : Nat} {commas : Bool} {w rest : List Char}
    (hw : Nested commas m w) (h : Within limit level n (w ++ rest)) :
    Within limit level n rest := by
  obtain ⟨hlevel, hscan, hlength⟩ := h
  rw [hw.staysWithin hlevel, Bool.and_eq_true] at hscan
  rw [List.length_append] at hlength
  exact ⟨hlevel, hscan.2, by omega⟩

/-- A container that opens is within the limit, and so is the text behind its bracket, which is one
character shorter. -/
theorem Within.opening {limit level n : Nat} {k : Kind} {rest : List Char}
    (h : Within limit level (n + 1) (k.opening :: rest)) :
    level < limit ∧ Within limit (level + 1) n rest := by
  obtain ⟨-, hscan, hlength⟩ := h
  have hopening : isOpening k.opening = true := by cases k <;> decide
  rw [staysWithin, hopening, if_pos rfl, Bool.and_eq_true, decide_eq_true_eq] at hscan
  rw [List.length_cons] at hlength
  exact ⟨hscan.1, hscan.1, hscan.2, by omega⟩

section Within

variable {α ι : Type} {limit level n : Nat}

/-- What reads nested texts only stays within the limit. -/
theorem Spells.leads {p : Reader α} {text : ι → List Char} {value : ι → α}
    {ends : List Char → Prop} (h : Spells p text value ends)
    (hnested : ∀ i, ∃ m, Nested true m (text i)) :
    Leads (Within limit level n) p (Within limit level n) := by
  intro t a rest ht hread
  obtain ⟨i, -, rfl⟩ := h.sound hread
  obtain ⟨m, hm⟩ := hnested i
  exact ht.of_append hm

/-- Skipping blanks stays within the limit. -/
theorem leads_skipBlanks : Leads (Within limit level n) skipBlanks (Within limit level n) :=
  spells_skipBlanks.leads fun b => ⟨0, b.nested⟩

/-- A comma stays within the limit. -/
theorem leads_comma : Leads (Within limit level n) comma (Within limit level n) :=
  spells_comma.leads fun b => ⟨_, b.1.nested.append (.comma b.2.nested)⟩

/-- A key stays within the limit. -/
theorem leads_key : Leads (Within limit level n) (orElse string key) (Within limit level n) :=
  spells_key.leads fun key => ⟨0, key.nested⟩

/-- A colon stays within the limit. -/
theorem leads_colon : Leads (Within limit level n) (char ':') (Within limit level n) :=
  (spells_char ':').leads fun _ => ⟨0, .plain (by decide) .nil⟩

/-- An item stays within the limit. -/
theorem leads_item (k : Kind) {v : Reader Value} [Steady v] {height : Nat}
    (h : ReadsTrees v height) : Leads (Within limit level n) (k.item v) (Within limit level n) :=
  (spells_item k h).leads fun ⟨e, _⟩ =>
    ⟨_, e.lead.nested.append
      (e.label.nested.append (e.tree.nested.allowCommas.append e.trail.nested))⟩

/-- An opening bracket leads one level down. -/
theorem leads_opening (k : Kind) :
    Leads (Within limit level (n + 1)) (char k.opening) (Within limit (level + 1) n) := by
  intro t a rest ht hread
  obtain ⟨rfl, -⟩ := on_char_eq_some.1 hread
  exact ht.opening.2

/-- At the limit, an opening bracket leads nowhere. -/
theorem leads_opening_limit (k : Kind) :
    Leads (Within limit limit (n + 1)) (char k.opening) fun _ => False := by
  intro t a rest ht hread
  obtain ⟨rfl, -⟩ := on_char_eq_some.1 hread
  exact lt_irrefl _ ht.opening.1

/-! ## The two grammars agree -/

/-- Items agree if their values do. -/
theorem AgreeOn.item (k : Kind) {v v' : Reader Value} (hv : AgreeOn (Within limit level n) v v') :
    AgreeOn (Within limit level n) (k.item v) (k.item v') := by
  cases k with
  | array => exact hv
  | object =>
    refine AgreeOn.label ?_ _
    refine (AgreeOn.refl _).bind leads_skipBlanks fun _ => ?_
    refine (AgreeOn.refl _).bind leads_key fun name => ?_
    refine (AgreeOn.refl _).bind leads_skipBlanks fun _ => ?_
    refine (AgreeOn.refl _).bind leads_colon fun _ => ?_
    exact hv.bind_right _

/-- Containers agree if the values one level down do. -/
theorem AgreeOn.container (k : Kind) {v v' : Reader Value} [Steady v] {height : Nat}
    (h : ReadsTrees v height) (hv : AgreeOn (Within limit (level + 1) n) v v') :
    AgreeOn (Within limit level (n + 1)) (k.container v) (k.container v') := by
  refine (AgreeOn.refl _).bind (leads_opening k) fun _ => ?_
  refine (AgreeOn.refl _).bind leads_skipBlanks fun _ => ?_
  -- From the items on, both readers are the same.
  exact ((hv.item k).commaSeparated (leads_item k h) leads_comma).bind_right _

/-- Values agree if their containers do. -/
theorem AgreeOn.padded {o o' a a' : Reader Value} (ho : AgreeOn (Within limit level n) o o')
    (ha : AgreeOn (Within limit level n) a a') :
    AgreeOn (Within limit level n) (padded o a) (padded o' a') := by
  refine (AgreeOn.refl _).bind leads_skipBlanks fun _ => ?_
  exact (ho.firstOf_cons (ha.firstOf_cons (.refl _))).bind_right _

/-- The grammar and the bounded one agree on texts within the limit: what the limit leaves over from
the level is the depth that the bounded one needs. -/
theorem agreeOn_bounded (beyond : Reader Value) {m : Nat} (hm : level + m = limit) :
    AgreeOn (Within limit level n) (value n) (bounded beyond m) := by
  induction n generalizing level m with
  | zero => exact fun c furthest hc => absurd hc.2.2 (Nat.not_lt_zero _)
  | succ n ih =>
    rw [value_eq_padded]
    cases m with
    | zero =>
      -- At the limit no container opens.
      obtain rfl : level = limit := hm
      have hstop : ∀ k : Kind, AgreeOn (Within level level (n + 1)) (k.container (value n))
          (do let _ ← char k.opening; beyond) := by
        intro k
        exact (AgreeOn.refl _).bind (leads_opening_limit k) fun _ _ _ h => h.elim
      exact ((hstop .object).label _).padded ((hstop .array).label _)
    | succ m =>
      have hinner := ih (show level + 1 + m = limit by omega)
      have hcontainer := fun k : Kind => AgreeOn.container k (spells_value n) hinner
      exact ((hcontainer .object).label _).padded ((hcontainer .array).label _)

end Within

/-- A text that the scan of brackets lets pass, a literal or not, is read without entering a
container at a level above `maxDepth`: whatever happens there, the outcome is that of the unbounded
grammar. A literal is refused by the scan if and only if its containers stand inside one another to
a depth above `maxDepth`. -/
theorem staysWithin_bounds_nesting (text : String) :
    (staysWithin maxDepth .outside 0 text.toList = true → ∀ beyond : Reader Value,
      (∀ n, text.length < n → ∀ furthest,
        bounded beyond maxDepth (Cursor.start text.toList) furthest =
          value n (Cursor.start text.toList) furthest) ∧
      (bounded beyond maxDepth).run text = read text) ∧
    ∀ p : Phrase .value, p.Writes text.toList →
      (staysWithin maxDepth .outside 0 text.toList = false ↔ maxDepth < p.depth) := by
  constructor
  · intro hscan beyond
    have hwithin : ∀ n, text.length < n → Within maxDepth 0 n text.toList := fun n hn =>
      ⟨Nat.zero_le _, hscan, by rwa [String.length_toList]⟩
    constructor
    · intro n hn furthest
      exact (agreeOn_bounded beyond (Nat.zero_add maxDepth) _ furthest (hwithin n hn)).symm
    · have hagree := (agreeOn_bounded beyond (Nat.zero_add maxDepth)).bind_right
        (fun a => endOfText >>= fun _ => pure a) (Cursor.start text.toList) none
        (hwithin _ (Nat.lt_succ_self _))
      unfold read Reader.run
      dsimp only
      rw [hagree]
  · intro p hp
    rw [hp.staysWithin, decide_eq_false_iff_not, Nat.not_le]

/-- Brackets that do not fit and a string without an end pass the scan and are read within the
limit. A literal of two containers passes as well. -/
theorem staysWithin_bounds_nesting_unclosed :
    (staysWithin maxDepth .outside 0 "[\x7b]] 'a[".toList = true ∧ ∀ beyond : Reader Value,
      (bounded beyond maxDepth).run "[\x7b]] 'a[" = read "[\x7b]] 'a[") ∧
    ∃ p : Phrase .value, p.Writes "[[] ,]".toList ∧ p.depth = 2 ∧
      (staysWithin maxDepth .outside 0 "[[] ,]".toList = false ↔ maxDepth < p.depth) := by
  have hscan : staysWithin maxDepth .outside 0 "[\x7b]] 'a[".toList = true := by decide
  let none : Blanks := ⟨[], rfl⟩
  have hinner : Derives (.container .array .nil) ['[', ']'] := .container .array none none .nil
  have houter : Derives (.container .array (.cons () (.container .array .nil) .nil))
      ['[', '[', ']', ' ', ',', ']'] :=
    .container .array none none (.cons .none ⟨[' '], rfl⟩ none hinner .nil)
  have hwrites : Phrase.Writes (.container .array (.cons () (.container .array .nil) .nil))
      "[[] ,]".toList := ⟨none, none, _, houter, by decide⟩
  exact ⟨⟨hscan, fun beyond => ((staysWithin_bounds_nesting _).1 hscan beyond).2⟩,
    _, hwrites, rfl, (staysWithin_bounds_nesting _).2 _ hwrites⟩

end FindSelect.Literal
