import FindSelect.Proofs.Literal.Tokens

/-!
# Literals as they are written

A `Tree` is a literal with all that its text has and its value has not: the kinds of quotes, escape
sequences, keys without quotes, repeated keys, blanks and commas behind the last item. A text is a
literal if it is the text of a tree, and it then writes the value of that tree.
-/

namespace FindSelect.Literal

/-- The two kinds of containers. -/
inductive Kind where
  /-- A list of values in square brackets. -/
  | array
  /-- A list of members in braces. -/
  | object

namespace Kind

/-- The bracket that opens a container. -/
def opening : Kind → Char
  | array => '['
  | object => '{'

/-- The bracket that closes a container. -/
def closing : Kind → Char
  | array => ']'
  | object => '}'

/-- What a container has in it: values, or values with keys. -/
def Item : Kind → Type
  | array => Value
  | object => String × Value

/-- The value of a container. -/
def value : (k : Kind) → List k.Item → Value
  | array, items => .array items
  | object, members => .ofMembers members

end Kind

/-- What stands before a value in a container: nothing, or a key and a colon. -/
inductive Label : Kind → Type where
  /-- Nothing, in an array. -/
  | none : Label .array
  /-- A key and a colon, with blanks before and after the colon. -/
  | key (k : Key) (gap lead : Blanks) : Label .object

namespace Label

variable {k : Kind}

/-- The text of a label. -/
def text : Label k → List Char
  | none => []
  | key k gap lead => k.text ++ (gap.chars ++ ':' :: lead.chars)

/-- The item of a value with a label. -/
def item : Label k → Value → k.Item
  | none, v => v
  | key k _ _, v => (k.name, v)

end Label

mutual
/-- A literal as it is written, without the blanks around it. -/
inductive Tree : Type where
  /-- `null`. -/
  | null
  /-- `true` or `false`. -/
  | bool (b : Bool)
  /-- A number, which has to have a value. -/
  | number (w : WrittenNumeral) (n : Number) (h : w.numeral.value? = some n)
  /-- A string. -/
  | string (q : Quoted)
  /-- A container, with the blanks behind its first and before its last bracket. -/
  | container (k : Kind) (lead : Blanks) (items : Items k) (trail : Blanks)

/-- The items of a container as they are written. -/
inductive Items : Kind → Type where
  /-- No item. -/
  | nil {k : Kind} : Items k
  /-- The last item, without a comma behind it. -/
  | last {k : Kind} (label : Label k) (t : Tree) : Items k
  /-- An item with a comma behind it, blanks around the comma, and further items. -/
  | cons {k : Kind} (label : Label k) (t : Tree) (gap lead : Blanks) (rest : Items k) : Items k
end

mutual
/-- The text of a tree. -/
def Tree.text : Tree → List Char
  | .null => ['n', 'u', 'l', 'l']
  | .bool true => ['t', 'r', 'u', 'e']
  | .bool false => ['f', 'a', 'l', 's', 'e']
  | .number w _ _ => w.text
  | .string q => q.text
  | .container k lead items trail =>
    k.opening :: (lead.chars ++ (items.text ++ (trail.chars ++ [k.closing])))

/-- The text of the items of a container. -/
def Items.text {k : Kind} : Items k → List Char
  | .nil => []
  | .last label t => label.text ++ t.text
  | .cons label t gap lead rest =>
    label.text ++ (t.text ++ (gap.chars ++ ',' :: (lead.chars ++ rest.text)))
end

mutual
/-- The value that a tree writes. -/
def Tree.value : Tree → Value
  | .null => .null
  | .bool b => .bool b
  | .number _ n _ => .number n
  | .string q => .string q.content
  | .container k _ items _ => k.value items.values

/-- The items that are written in a container. -/
def Items.values {k : Kind} : Items k → List k.Item
  | .nil => []
  | .last label t => [label.item t.value]
  | .cons label t _ _ rest => label.item t.value :: rest.values
end

mutual
/-- The height of a tree. An empty container is as high as a scalar. -/
def Tree.height : Tree → Nat
  | .container _ _ items _ => items.height + 1
  | _ => 1

/-- The height of the highest item of a container. -/
def Items.height {k : Kind} : Items k → Nat
  | .nil => 0
  | .last _ t => t.height
  | .cons _ t _ _ rest => max t.height rest.height
end

/-- An item as it is written, with the blanks around it. -/
structure Entry (k : Kind) where
  /-- The blanks before it. -/
  lead : Blanks
  /-- What stands before the value. -/
  label : Label k
  /-- The value. -/
  tree : Tree
  /-- The blanks behind it. -/
  trail : Blanks

/-- The text of an item with its blanks. -/
def Entry.text {k : Kind} (e : Entry k) : List Char :=
  e.lead.chars ++ (e.label.text ++ (e.tree.text ++ e.trail.chars))

/-! ## The first character -/

/-- Whether a text starts like a literal: its first character is neither blank nor a mark that
stands behind a literal. -/
def StartsLiteral (text : List Char) : Prop :=
  ∃ c rest, text = c :: rest ∧ Text.isBlank c = false ∧ c ∉ [',', ']', '}']

/-- A text starts like a literal if one of its beginnings does. -/
theorem StartsLiteral.append {text : List Char} (h : StartsLiteral text) (rest : List Char) :
    StartsLiteral (text ++ rest) := by
  obtain ⟨c, tail, rfl, hc⟩ := h
  exact ⟨c, tail ++ rest, rfl, hc⟩

/-- A run of characters of a class without blanks and marks starts like a literal. -/
theorem Run.startsLiteral {accepts : Char → Bool} (run : Run accepts)
    (h : ∀ c, accepts c = true → Text.isBlank c = false ∧ c ∉ [',', ']', '}']) :
    StartsLiteral run.chars := by
  obtain ⟨chars, hne, hall⟩ := run
  cases chars with
  | nil => exact absurd rfl hne
  | cons c chars =>
    rw [List.all_cons, Bool.and_eq_true] at hall
    exact ⟨c, chars, rfl, h c hall.1⟩

/-- A digit is neither blank nor a mark. -/
theorem not_blank_of_isAsciiDigit {c : Char} (h : Text.isAsciiDigit c = true) :
    Text.isBlank c = false ∧ c ∉ [',', ']', '}'] := by
  constructor
  · by_contra hb
    rw [Text.isAsciiDigit_of_isBlank (by simpa using hb)] at h
    exact absurd h (by decide)
  · intro hmem
    simp only [List.mem_cons, List.not_mem_nil, or_false] at hmem
    rcases hmem with rfl | rfl | rfl <;> exact absurd h (by decide)

/-- A key character is neither blank nor a mark. -/
theorem not_blank_of_isKeyChar {c : Char} (h : isKeyChar c = true) :
    Text.isBlank c = false ∧ c ∉ [',', ']', '}'] := by
  constructor
  · rcases Bool.or_eq_true_iff.1 h with h | h
    · exact isBlank_of_isFieldChar h
    · rw [beq_iff_eq.1 h]
      decide
  · intro hmem
    simp only [List.mem_cons, List.not_mem_nil, or_false] at hmem
    rcases hmem with rfl | rfl | rfl <;> exact absurd h (by decide +kernel)

/-- A string starts with its quote. -/
theorem Quoted.startsLiteral (q : Quoted) : StartsLiteral q.text := by
  refine ⟨q.quote.1, _, rfl, ?_⟩
  have hquote := q.quote.2
  generalize q.quote.1 = c at hquote
  rcases List.mem_cons.1 hquote with rfl | hquote
  · decide
  · obtain rfl := List.mem_singleton.1 hquote
    decide

/-- A number starts with a sign or a digit. -/
theorem WrittenNumeral.startsLiteral (w : WrittenNumeral) : StartsLiteral w.text := by
  unfold WrittenNumeral.text
  cases w.negative with
  | true => exact ⟨'-', _, rfl, by decide⟩
  | false =>
    exact ((w.whole.startsLiteral fun c => not_blank_of_isAsciiDigit).append _).append _

/-- An item starts like a literal if its value does. -/
theorem Label.startsLiteral {k : Kind} (label : Label k) {w : List Char} (h : StartsLiteral w) :
    StartsLiteral (label.text ++ w) := by
  cases label with
  | none => exact h
  | key key gap lead =>
    refine StartsLiteral.append (StartsLiteral.append ?_ _) _
    cases key with
    | quoted q => exact q.startsLiteral
    | bare run => exact run.startsLiteral fun c => not_blank_of_isKeyChar

end FindSelect.Literal
