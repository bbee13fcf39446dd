import FindSelect.Proofs.Decimal.Nearest
import FindSelect.Proofs.Entries
import FindSelect.Proofs.Literal.Tree

/-!
# Derivations of literals

The grammar of literals as rules: `Derives p w` says that the text `w` can be derived as the phrase
`p`. A phrase is what is left of a literal without blanks, quotes and escape sequences; its numbers
are still numerals, its objects may still have a key twice. `Phrase.Denotes` says which value a
phrase stands for, and `Phrase.InRange` whether its numbers can be represented.

The rules know neither readers nor the limits of numbers. `Tree.derives` and `Derives.isTree`
tie them to the trees, whose numbers have to have a value.
-/

namespace FindSelect.Literal

/-! ## Numerals -/

namespace Numeral

/-- Whether a numeral writes an integer: it has neither a fraction nor an exponent. -/
def IsInteger (n : Numeral) : Prop :=
  n.fraction = none ∧ n.exponent = none

/-- The integer that the digits before the point write, with the sign. -/
def integer (n : Numeral) : Int :=
  if n.negative then -(Decimal.ofDigits n.whole) else Decimal.ofDigits n.whole

/-- Whether a numeral can be represented: an integer in 64 bits with or without a sign, any other
number as one that does not overflow. -/
def InRange (n : Numeral) : Prop :=
  (n.IsInteger → -2 ^ 63 ≤ n.integer ∧ n.integer ≤ 2 ^ 64 - 1) ∧
    (¬ n.IsInteger → n.decimal.toRat < Binary64.overflow)

/-- Whether a numeral stands for a number: an integer for itself, any other for the nearest binary
number. -/
def Denotes (n : Numeral) : Number → Prop
  | .integer i => n.IsInteger ∧ i = n.integer
  | .binary x => ¬ n.IsInteger ∧ x.negative = n.negative ∧ x.IsNearest n.decimal.toRat

/-- The number of an integer. -/
theorem value?_of_isInteger {n : Numeral} (h : n.IsInteger) :
    n.value? = if Number.inRange n.integer then some (.integer n.integer) else none := by
  obtain ⟨negative, whole, fraction, exponent⟩ := n
  obtain ⟨rfl, rfl⟩ := h
  rfl

/-- The number of a numeral that is not an integer. -/
theorem value?_of_not_isInteger {n : Numeral} (h : ¬ n.IsInteger) :
    n.value? = (n.decimal.toBinary64? n.negative).map .binary := by
  obtain ⟨negative, whole, fraction, exponent⟩ := n
  cases fraction with
  | some f => rfl
  | none =>
    cases exponent with
    | some e => rfl
    | none => exact absurd ⟨rfl, rfl⟩ h

/-- A numeral has a value if and only if it can be represented. -/
theorem exists_value?_iff {n : Numeral} : (∃ m, n.value? = some m) ↔ n.InRange := by
  by_cases h : n.IsInteger
  · have hrange : Number.inRange n.integer = true ↔
        -2 ^ 63 ≤ n.integer ∧ n.integer ≤ 2 ^ 64 - 1 := by
      rw [Number.inRange, Bool.and_eq_true, decide_eq_true_eq, decide_eq_true_eq]
      rfl
    rw [value?_of_isInteger h, InRange, ← hrange]
    by_cases hinteger : Number.inRange n.integer = true <;> simp [h, hinteger]
  · have hread : (∃ x, n.decimal.toBinary64? n.negative = some x) ↔
        n.decimal.toRat < Binary64.overflow := Decimal.exists_toBinary64?_iff
    rw [value?_of_not_isInteger h, InRange, ← hread]
    simp [h]

/-- The value of a numeral is the number that it stands for. -/
theorem denotes_of_value? {n : Numeral} {m : Number} (hm : n.value? = some m) : n.Denotes m := by
  by_cases h : n.IsInteger
  · rw [value?_of_isInteger h] at hm
    split at hm
    · obtain rfl := Option.some.inj hm
      exact ⟨h, rfl⟩
    · exact absurd hm (by simp)
  · rw [value?_of_not_isInteger h] at hm
    obtain ⟨x, hx, rfl⟩ := Option.map_eq_some_iff.1 hm
    exact ⟨h, Decimal.isNearest_of_toBinary64? hx⟩

/-- A numeral stands for one number only. -/
theorem Denotes.unique {n : Numeral} {m m' : Number} (h : n.Denotes m) (h' : n.Denotes m') :
    m = m' := by
  cases m with
  | integer i =>
    cases m' with
    | integer i' => rw [h.2, h'.2]
    | binary x' => exact absurd h.1 h'.1
  | binary x =>
    cases m' with
    | integer i' => exact absurd h'.1 h.1
    | binary x' => exact congrArg _ (h.2.2.unique h'.2.2 (h.2.1.trans h'.2.1.symm))

end Numeral

/-! ## Phrases -/

/-- What can be derived: values, and the items of a container. -/
inductive Category where
  /-- A value. -/
  | value
  /-- The items of a container. -/
  | items (k : Kind)

/-- What an item has besides its value: nothing, or a name. -/
def Kind.Name : Kind → Type
  | .array => Unit
  | .object => String

/-- The name that a label stands for. -/
def Label.name {k : Kind} : Label k → k.Name
  | .none => ()
  | .key k _ _ => k.name

/-- A literal without blanks, quotes and escape sequences. -/
inductive Phrase : Category → Type where
  /-- `null`. -/
  | null : Phrase .value
  /-- `true` or `false`. -/
  | bool (b : Bool) : Phrase .value
  /-- A number, as it is written. -/
  | number (n : Numeral) : Phrase .value
  /-- A string, by its content. -/
  | string (s : String) : Phrase .value
  /-- A container. -/
  | container (k : Kind) (items : Phrase (.items k)) : Phrase .value
  /-- No item. -/
  | nil {k : Kind} : Phrase (.items k)
  /-- An item and further ones. -/
  | cons {k : Kind} (name : k.Name) (first : Phrase .value) (rest : Phrase (.items k)) :
      Phrase (.items k)

/-- The rules by which a text is derived as a phrase. -/
inductive Derives : {c : Category} → Phrase c → List Char → Prop where
  /-- The null value. -/
  | null : Derives .null ['n', 'u', 'l', 'l']
  /-- A truth value. -/
  | bool (b : Bool) :
      Derives (.bool b) (if b then ['t', 'r', 'u', 'e'] else ['f', 'a', 'l', 's', 'e'])
  /-- A number: digits, perhaps with a minus sign, a fraction and an exponent. -/
  | number (w : WrittenNumeral) : Derives (.number w.numeral) w.text
  /-- A string in quotes of either kind. -/
  | string (q : Quoted) : Derives (.string q.content) q.text
  /-- Items between two brackets, with blanks around them. -/
  | container (k : Kind) (lead trail : Blanks) {items : Phrase (.items k)} {w : List Char}
      (h : Derives items w) :
      Derives (.container k items)
        (k.opening :: (lead.chars ++ (w ++ (trail.chars ++ [k.closing]))))
  /-- No item. -/
  | nil {k : Kind} : Derives (.nil : Phrase (.items k)) []
  /-- The last item. -/
  | last {k : Kind} (label : Label k) {p : Phrase .value} {w : List Char} (h : Derives p w) :
      Derives (.cons label.name p .nil) (label.text ++ w)
  /-- An item, a comma with blanks around it, and further items, if there are any. -/
  | cons {k : Kind} (label : Label k) (gap lead : Blanks) {p : Phrase .value}
      {rest : Phrase (.items k)} {w w' : List Char} (h : Derives p w) (hrest : Derives rest w') :
      Derives (.cons label.name p rest)
        (label.text ++ (w ++ (gap.chars ++ ',' :: (lead.chars ++ w'))))

/-- What is derived as a value starts like a literal. -/
theorem Derives.startsLiteral {p : Phrase .value} {w : List Char} (h : Derives p w) :
    StartsLiteral w := by
  cases h with
  | null => exact ⟨'n', _, rfl, by decide⟩
  | bool b =>
    cases b with
    | true => exact ⟨'t', _, rfl, by decide⟩
    | false => exact ⟨'f', _, rfl, by decide⟩
  | number w => exact w.startsLiteral
  | string q => exact q.startsLiteral
  | container k lead trail _ =>
    cases k with
    | array => exact ⟨'[', _, rfl, by decide⟩
    | object => exact ⟨'{', _, rfl, by decide⟩

namespace Phrase

/-- Whether a text is derived as a phrase, with blanks around it. -/
def Writes (p : Phrase .value) (text : List Char) : Prop :=
  ∃ (lead trail : Blanks) (w : List Char), Derives p w ∧ text = lead.chars ++ (w ++ trail.chars)

/-- The numerals of a phrase. -/
def numerals : {c : Category} → Phrase c → List Numeral
  | _, null => []
  | _, bool _ => []
  | _, number n => [n]
  | _, string _ => []
  | _, container _ items => items.numerals
  | _, nil => []
  | _, cons _ first rest => first.numerals ++ rest.numerals

/-- Whether all numerals of a phrase can be represented. -/
def InRange {c : Category} (p : Phrase c) : Prop :=
  ∀ n ∈ p.numerals, n.InRange

/-- The number of containers of a phrase that stand inside one another. -/
def depth : {c : Category} → Phrase c → Nat
  | _, null => 0
  | _, bool _ => 0
  | _, number _ => 0
  | _, string _ => 0
  | _, container _ items => items.depth + 1
  | _, nil => 0
  | _, cons _ first rest => max first.depth rest.depth

end Phrase

/-! ## The value of a phrase -/

/-- What a phrase stands for. -/
def Category.Meaning : Category → Type
  | value => Value
  | items k => List k.Item

namespace Kind

/-- An item with its name. -/
def named : (k : Kind) → k.Name → Value → k.Item
  | array, _, v => v
  | object, name, v => (name, v)

/-- Whether items make up a value: an array of all of them, or an object with each key once, where
it first comes, with the value that comes last. -/
def MakesUp : (k : Kind) → List k.Item → Value → Prop
  | array, items, v => v = .array items
  | object, members, v => ∃ entries, Entries.Merges members entries ∧ v = .object entries

/-- Items make up the value of their container. -/
theorem makesUp_iff {k : Kind} {items : List k.Item} {v : Value} :
    k.MakesUp items v ↔ v = k.value items := by
  cases k with
  | array => exact Iff.rfl
  | object =>
    constructor
    · rintro ⟨entries, hentries, rfl⟩
      exact congrArg Value.object (Entries.merges_iff.1 hentries)
    · rintro rfl
      exact ⟨_, Entries.merges_iff.2 rfl, rfl⟩

end Kind

/-- A label names an item. -/
theorem Label.named_name {k : Kind} (label : Label k) (v : Value) :
    k.named label.name v = label.item v := by
  cases label <;> rfl

/-- Whether a phrase stands for a value, or for the items of a container. -/
def Phrase.Denotes : {c : Category} → Phrase c → c.Meaning → Prop
  | _, .null, v => v = Value.null
  | _, .bool b, v => v = Value.bool b
  | _, .number n, v => ∃ m, n.Denotes m ∧ v = Value.number m
  | _, .string s, v => v = Value.string s
  | _, .container k items, v => ∃ is, items.Denotes is ∧ k.MakesUp is v
  | _, .nil, is => is = []
  | _, .cons (k := k) name first rest, is =>
    ∃ v is', first.Denotes v ∧ rest.Denotes is' ∧ is = k.named name v :: is'

/-- A phrase stands for one value only. -/
theorem Phrase.Denotes.unique {c : Category} {p : Phrase c} {v v' : c.Meaning} (h : p.Denotes v)
    (h' : p.Denotes v') : v = v' := by
  induction p with
  | null | bool b | string s | nil => exact Eq.trans h (Eq.symm h')
  | number n =>
    obtain ⟨m, hm, rfl⟩ := h
    obtain ⟨m', hm', rfl⟩ := h'
    rw [hm.unique hm']
  | container k items ih =>
    obtain ⟨is, his, hv⟩ := h
    obtain ⟨is', his', hv'⟩ := h'
    rw [Kind.makesUp_iff.1 hv, Kind.makesUp_iff.1 hv', ih his his']
  | cons name first rest ihfirst ihrest =>
    obtain ⟨v, is, hv, his, rfl⟩ := h
    obtain ⟨v', is', hv', his', rfl⟩ := h'
    rw [ihfirst hv hv', ihrest his his']

/-! ## Trees -/

mutual
/-- The phrase of a tree. -/
def Tree.phrase : Tree → Phrase .value
  | .null => .null
  | .bool b => .bool b
  | .number w _ _ => .number w.numeral
  | .string q => .string q.content
  | .container k _ items _ => .container k items.phrase

/-- The phrase of the items of a container. -/
def Items.phrase {k : Kind} : Items k → Phrase (.items k)
  | .nil => .nil
  | .last label t => .cons label.name t.phrase .nil
  | .cons label t _ _ rest => .cons label.name t.phrase rest.phrase
end

mutual
/-- The text of a tree is derived as its phrase. -/
theorem Tree.derives (t : Tree) : Derives t.phrase t.text := by
  cases t with
  | null => exact .null
  | bool b => cases b <;> exact .bool _
  | number w n h => exact .number w
  | string q => exact .string q
  | container k lead items trail => exact .container k lead trail items.derives

/-- The text of the items of a container is derived as their phrase. -/
theorem Items.derives {k : Kind} : (is : Items k) → Derives is.phrase is.text
  | .nil => .nil
  | .last label t => .last label t.derives
  | .cons label t gap lead others => .cons label gap lead t.derives others.derives
end

/-- A tree starts like a literal. -/
theorem Tree.startsLiteral (t : Tree) : StartsLiteral t.text :=
  t.derives.startsLiteral

mutual
/-- The phrase of a tree stands for its value. -/
theorem Tree.denotes (t : Tree) : t.phrase.Denotes t.value := by
  cases t with
  | null | bool b | string q => exact rfl
  | number w n h => exact ⟨n, Numeral.denotes_of_value? h, rfl⟩
  | container k lead items trail => exact ⟨items.values, items.denotes, Kind.makesUp_iff.2 rfl⟩

/-- The phrase of the items of a container stands for them. -/
theorem Items.denotes {k : Kind} : (is : Items k) → is.phrase.Denotes is.values
  | .nil => rfl
  | .last label t => ⟨t.value, [], t.denotes, rfl, by rw [label.named_name]; rfl⟩
  | .cons label t gap lead others =>
    ⟨t.value, others.values, t.denotes, others.denotes, by rw [label.named_name]; rfl⟩
end

mutual
/-- The numbers of a tree can be represented. -/
theorem Tree.inRange (t : Tree) : t.phrase.InRange := by
  cases t with
  | null | bool b | string q => exact fun n hn => absurd hn (by simp [Tree.phrase, Phrase.numerals])
  | number w n h =>
    intro m hm
    obtain rfl : m = w.numeral := by simpa [Tree.phrase, Phrase.numerals] using hm
    exact Numeral.exists_value?_iff.1 ⟨n, h⟩
  | container k lead items trail => exact items.inRange

/-- The numbers among the items of a container can be represented. -/
theorem Items.inRange {k : Kind} : (is : Items k) → is.phrase.InRange
  | .nil => fun n hn => absurd hn (by simp [Items.phrase, Phrase.numerals])
  | .last label t => fun n hn => t.inRange n (by
      simpa [Items.phrase, Phrase.numerals] using hn)
  | .cons label t gap lead others => fun n hn =>
    (List.mem_append.1 hn).elim (t.inRange n) (others.inRange n)
end

/-- The text of a tree, with blanks around it, is derived as its phrase. -/
theorem Entry.writes (e : Entry .array) : e.tree.phrase.Writes e.text := by
  obtain ⟨lead, label, tree, trail⟩ := e
  cases label
  exact ⟨lead, trail, tree.text, tree.derives, rfl⟩

/-- Whether a phrase is that of a tree with a given text. -/
def IsTree : {c : Category} → Phrase c → List Char → Prop
  | .value, p, w => ∃ t : Tree, t.phrase = p ∧ t.text = w
  | .items k, p, w => ∃ is : Items k, is.phrase = p ∧ is.text = w

/-- What is derived is the text of a tree, if its numbers can be represented. -/
theorem Derives.isTree {c : Category} {p : Phrase c} {w : List Char} (h : Derives p w)
    (hrange : p.InRange) : IsTree p w := by
  induction h with
  | null => exact ⟨.null, rfl, rfl⟩
  | bool b => cases b <;> exact ⟨.bool _, rfl, rfl⟩
  | number w =>
    obtain ⟨m, hm⟩ := Numeral.exists_value?_iff.2 (hrange w.numeral List.mem_cons_self)
    exact ⟨.number w m hm, rfl, rfl⟩
  | string q => exact ⟨.string q, rfl, rfl⟩
  | container k lead trail _ ih =>
    obtain ⟨is, rfl, rfl⟩ := ih hrange
    exact ⟨.container k lead is trail, rfl, rfl⟩
  | nil => exact ⟨.nil, rfl, rfl⟩
  | last label _ ih =>
    obtain ⟨t, rfl, rfl⟩ := ih fun n hn => hrange n (List.mem_append_left _ hn)
    exact ⟨.last label t, rfl, rfl⟩
  | cons label gap lead _ _ ih ihrest =>
    obtain ⟨t, rfl, rfl⟩ := ih fun n hn => hrange n (List.mem_append_left _ hn)
    obtain ⟨is, rfl, rfl⟩ := ihrest fun n hn => hrange n (List.mem_append_right _ hn)
    exact ⟨.cons label t gap lead is, rfl, rfl⟩

/-- What is derived is the text of a tree with blanks around it, if its numbers can be
represented. -/
theorem Phrase.Writes.exists_entry {p : Phrase .value} {text : List Char} (h : p.Writes text)
    (hrange : p.InRange) : ∃ e : Entry .array, e.tree.phrase = p ∧ e.text = text := by
  obtain ⟨lead, trail, w, hw, rfl⟩ := h
  obtain ⟨t, rfl, rfl⟩ := hw.isTree hrange
  exact ⟨⟨lead, .none, t, trail⟩, rfl, rfl⟩

end FindSelect.Literal
