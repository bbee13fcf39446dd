import FindSelect.Proofs.Comparisons
import FindSelect.Proofs.Decimal.RoundTrip
import FindSelect.Proofs.Literal.Acceptance
import FindSelect.Proofs.Shell.Keys
import FindSelect.Proofs.WellFormed

/-!
# Writing queries for the shell

`queryText` writes a query as a call of the shell. The filter becomes a document first (`document`),
with every comparison under its operator, and the document is then written as a literal, with keys
in quotes (`valueText`). The quotes can be of either kind.

`exists_tree` says that what `valueText` writes is a literal with the value that was written.
-/

namespace FindSelect

/-! ## Values -/

namespace Literal

/-- A character of a string, escaped if it would end the string or hide what is behind it. -/
def charText (quote c : Char) : List Char :=
  if c ∈ ['\\', quote] then ['\\', c] else [c]

/-- A string in quotes. -/
def stringText (quote : Char) (s : String) : List Char :=
  quote :: (s.toList.flatMap (charText quote) ++ [quote])

mutual
/-- The text of a value. -/
def valueText (quote : Char) : Value → List Char
  | .null => ['n', 'u', 'l', 'l']
  | .bool true => ['t', 'r', 'u', 'e']
  | .bool false => ['f', 'a', 'l', 's', 'e']
  | .number n => n.toText.toList
  | .string s => stringText quote s
  | .array items => '[' :: (itemsText quote items ++ [']'])
  | .object members => '{' :: (membersText quote members ++ ['}'])

/-- The text of the items of an array. -/
def itemsText (quote : Char) : List Value → List Char
  | [] => []
  | [v] => valueText quote v
  | v :: w :: rest => valueText quote v ++ (',' :: ' ' :: itemsText quote (w :: rest))

/-- The text of the members of an object. -/
def membersText (quote : Char) : List (String × Value) → List Char
  | [] => []
  | [(k, v)] => stringText quote k ++ (':' :: ' ' :: valueText quote v)
  | (k, v) :: m :: rest =>
    stringText quote k ++ (':' :: ' ' :: (valueText quote v ++
      (',' :: ' ' :: membersText quote (m :: rest))))
end

mutual
/-- Whether a value can be read again: its numbers are integers in range, and no object has a key
twice. -/
def Printable : Value → Prop
  | .number n => ∃ i, n = .integer i ∧ Number.inRange i = true
  | .array items => PrintableItems items
  | .object members => (members.map Prod.fst).Nodup ∧ PrintableMembers members
  | _ => True

/-- Whether the items of an array can be read again. -/
def PrintableItems : List Value → Prop
  | [] => True
  | v :: rest => Printable v ∧ PrintableItems rest

/-- Whether the members of an object can be read again. -/
def PrintableMembers : List (String × Value) → Prop
  | [] => True
  | (_, v) :: rest => Printable v ∧ PrintableMembers rest
end

/-- The items of an array can be read again if each of them can be. -/
theorem printableItems_iff {items : List Value} :
    PrintableItems items ↔ ∀ v ∈ items, Printable v := by
  induction items with
  | nil => simp [PrintableItems]
  | cons v items ih => rw [PrintableItems, ih, List.forall_mem_cons]

/-- The members of an object can be read again if each of them can be. -/
theorem printableMembers_iff {members : List (String × Value)} :
    PrintableMembers members ↔ ∀ m ∈ members, Printable m.2 := by
  induction members with
  | nil => simp [PrintableMembers]
  | cons m members ih =>
    obtain ⟨k, v⟩ := m
    rw [PrintableMembers, ih, List.forall_mem_cons]

/-- A string in quotes is a string literal with that content. -/
theorem exists_quoted {quote : Char} (hquote : quote ∈ ['\'', '"']) (s : String) :
    ∃ q : Quoted, q.text = stringText quote s ∧ q.content = s := by
  have hpieces : ∀ cs : List Char, ∃ ps : List (Piece quote),
      ps.flatMap Piece.text = cs.flatMap (charText quote) ∧ ps.map Piece.value = cs := by
    intro cs
    induction cs with
    | nil => exact ⟨[], rfl, rfl⟩
    | cons c cs ih =>
      obtain ⟨ps, htext, hvalue⟩ := ih
      by_cases hc : c ∈ ['\\', quote]
      · -- The backslash and both quotes have escape sequences that stand for themselves.
        have hescape : (c, c) ∈ escapes := by
          simp only [List.mem_cons, List.not_mem_nil, or_false] at hc hquote
          rcases hc with rfl | rfl
          · decide
          · rcases hquote with rfl | rfl <;> decide
        refine ⟨.escape ⟨(c, c), hescape⟩ :: ps, ?_, by rw [List.map_cons, hvalue]; rfl⟩
        rw [List.flatMap_cons, List.flatMap_cons, htext, charText, if_pos hc]
        rfl
      · refine ⟨.plain c hc :: ps, ?_, by rw [List.map_cons, hvalue]; rfl⟩
        rw [List.flatMap_cons, List.flatMap_cons, htext, charText, if_neg hc]
        rfl
  obtain ⟨ps, htext, hvalue⟩ := hpieces s.toList
  refine ⟨⟨⟨quote, hquote⟩, ps⟩, ?_, ?_⟩
  · simp only [Quoted.text, stringText, htext]
  · simp only [Quoted.content, hvalue, String.ofList_toList]

/-- An integer in range is written as a number with that value. -/
theorem exists_numeral {i : Int} (hi : Number.inRange i = true) :
    ∃ w : WrittenNumeral, w.text = Number.integerText i ∧
      w.numeral.value? = some (.integer i) := by
  obtain ⟨w, htext, hinteger, hvalue⟩ := Number.exists_numeral_integerText i
  refine ⟨w, htext, ?_⟩
  rw [Numeral.value?_of_isInteger hinteger, hvalue, if_pos hi]

mutual
/-- What is written for a value that can be read again is a literal with that value. -/
theorem exists_tree {quote : Char} (hquote : quote ∈ ['\'', '"']) (v : Value) (hv : Printable v) :
    ∃ t : Tree, t.text = valueText quote v ∧ t.value = v ∧ t.depth = v.depth := by
  cases v with
  | null => exact ⟨.null, rfl, rfl, rfl⟩
  | bool b => exact ⟨.bool b, by cases b <;> rfl, rfl, rfl⟩
  | number n =>
    obtain ⟨i, rfl, hi⟩ := hv
    obtain ⟨w, htext, hvalue⟩ := exists_numeral hi
    refine ⟨.number w _ hvalue, ?_, rfl, rfl⟩
    rw [Tree.text, htext, valueText, Number.toText, String.toList_ofList]
  | string s =>
    obtain ⟨q, htext, hcontent⟩ := exists_quoted hquote s
    exact ⟨.string q, htext, congrArg Value.string hcontent, rfl⟩
  | array items =>
    obtain ⟨is, htext, hvalues, hdepth⟩ := exists_items hquote items hv
    refine ⟨.container .array ⟨[], rfl⟩ is ⟨[], rfl⟩, ?_, congrArg Value.array hvalues,
      congrArg (· + 1) hdepth⟩
    simp only [Tree.text, htext, List.nil_append, Kind.opening, Kind.closing, valueText]
  | object members =>
    obtain ⟨is, htext, hvalues, hdepth⟩ := exists_members hquote members hv.2
    refine ⟨.container .object ⟨[], rfl⟩ is ⟨[], rfl⟩, ?_, ?_, congrArg (· + 1) hdepth⟩
    · simp only [Tree.text, htext, List.nil_append, Kind.opening, Kind.closing, valueText]
    · rw [Tree.value, hvalues]
      exact congrArg Value.object (Entries.ofList_eq_self hv.1)

/-- What is written for the items of an array are items with these values. -/
theorem exists_items {quote : Char} (hquote : quote ∈ ['\'', '"']) (items : List Value)
    (hitems : PrintableItems items) :
    ∃ is : Items .array, is.text = itemsText quote items ∧ is.values = items ∧
      is.depth = Value.itemsDepth items := by
  cases items with
  | nil => exact ⟨.nil, rfl, rfl, rfl⟩
  | cons v rest =>
    obtain ⟨t, htext, hvalue, hdepth⟩ := exists_tree hquote v hitems.1
    obtain ⟨is, htext', hvalues, hdepth'⟩ := exists_items hquote rest hitems.2
    cases rest with
    | nil =>
      refine ⟨.last .none t, htext, congrArg ([·]) hvalue, ?_⟩
      rw [Items.depth, hdepth]
      exact (Nat.max_zero _).symm
    | cons w rest =>
      refine ⟨.cons .none t ⟨[], rfl⟩ ⟨[' '], by decide⟩ is, ?_, ?_, ?_⟩
      · simp [Items.text, Label.text, htext, htext', itemsText]
      · rw [Items.values, hvalues, Label.item, hvalue]
        rfl
      · rw [Items.depth, hdepth, hdepth']
        rfl

/-- What is written for the members of an object are members with these keys and values. -/
theorem exists_members {quote : Char} (hquote : quote ∈ ['\'', '"'])
    (members : List (String × Value)) (hmembers : PrintableMembers members) :
    ∃ is : Items .object, is.text = membersText quote members ∧ is.values = members ∧
      is.depth = Value.membersDepth members := by
  cases members with
  | nil => exact ⟨.nil, rfl, rfl, rfl⟩
  | cons m rest =>
    obtain ⟨k, v⟩ := m
    obtain ⟨q, hkey, hname⟩ := exists_quoted hquote k
    obtain ⟨t, htext, hvalue, hdepth⟩ := exists_tree hquote v hmembers.1
    obtain ⟨is, htext', hvalues, hdepth'⟩ := exists_members hquote rest hmembers.2
    -- A key is in quotes, with a blank behind its colon.
    let label : Label .object := .key (.quoted q) ⟨[], rfl⟩ ⟨[' '], by decide⟩
    have hlabel : label.text = stringText quote k ++ [':', ' '] := by
      simp [label, Label.text, Key.text, hkey]
    have hitem : label.item t.value = (k, v) := by
      rw [hvalue, ← hname]
      rfl
    cases rest with
    | nil =>
      refine ⟨.last label t, ?_, congrArg ([·]) hitem, ?_⟩
      · simp [Items.text, hlabel, htext, membersText]
      · rw [Items.depth, hdepth]
        exact (Nat.max_zero _).symm
    | cons m rest =>
      refine ⟨.cons label t ⟨[], rfl⟩ ⟨[' '], by decide⟩ is, ?_, ?_, ?_⟩
      · simp [Items.text, hlabel, htext, htext', membersText]
      · rw [Items.values, hvalues, hitem]
        rfl
      · rw [Items.depth, hdepth, hdepth']
        rfl
end

/-- What is written for a value that can be read again and is not too deep is read as that value. -/
theorem parse_valueText {quote : Char} (hquote : quote ∈ ['\'', '"']) {v : Value} (hv : Printable v)
    (hdepth : v.depth ≤ maxDepth) : parse (String.ofList (valueText quote v)) = .ok v := by
  obtain ⟨t, htext, hvalue, hdepth'⟩ := exists_tree hquote v hv
  refine parse_eq_ok.2 ⟨⟨⟨[], rfl⟩, .none, t, ⟨[], rfl⟩⟩, hvalue, ?_, hdepth' ▸ hdepth⟩
  simp [Entry.text, Label.text, htext]

end Literal

/-! ## Queries -/

namespace Shell

open Literal (valueText)

/-- The value for a scalar. -/
def scalarValue : Scalar → Value
  | .null => .null
  | .bool b => .bool b
  | .number n => .number n
  | .string s => .string s

/-- The value for an operand. -/
def operandValue : Operand → Value
  | .one v => scalarValue v
  | .many values => .array (values.map scalarValue)

/-- The member for a field with its condition. -/
def fieldMember (f : FieldFilter) : String × Value :=
  (f.field, .object (f.condition.comparisons.map fun (op, operand) =>
    (operatorKey op, operandValue operand)))

mutual
/-- The members of the document for a filter. -/
def filterMembers : Filter → List (String × Value)
  | .fields entries => entries.map fieldMember
  | .group conj disj => groupMembers .and conj ++ groupMembers .or disj

/-- The member for one list of a group, if it is there. -/
def groupMembers (op : Operator) : Option (List Filter) → List (String × Value)
  | none => []
  | some filters => [(operatorKey op, .array (documents filters))]

/-- The documents for the filters of a list. -/
def documents : List Filter → List Value
  | [] => []
  | f :: rest => .object (filterMembers f) :: documents rest
end

/-- The document for a filter. -/
def document (f : Filter) : Value :=
  .object (filterMembers f)

/-- The document for the fields that are wanted. -/
def projectionDocument (names : List String) : Value :=
  .object (names.map fun name => (name, .number (.integer 1)))

/-- The arguments of the call for a query. -/
def argumentsText (quote : Char) (q : Query) : List Char :=
  valueText quote (document q.filter) ++
    q.projection.elim [] fun names => ',' :: ' ' :: valueText quote (projectionDocument names)

/-- The call for a query, with strings in the given quotes. -/
def queryText (quote : Char) (q : Query) : String :=
  "db." ++ q.collection ++ ".find(" ++ String.ofList (argumentsText quote q) ++ ")"

end Shell

end FindSelect
