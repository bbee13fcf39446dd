import FindSelect.FieldPath
import FindSelect.Query.Basic

/-!
# Well-formed queries

A well-formed filter says what it says once: every list of fields has each field path once, every
condition has each comparison operator once, and every group has a list. A well-formed query finds
documents with such a filter, and wants each field once. Queries that are put together by hand need
not be well-formed.
-/

namespace FindSelect

/-- Whether a condition has only operators that compare, each once. -/
structure Condition.WellFormed (c : Condition) : Prop where
  /-- No operator is there twice. -/
  nodup : (c.comparisons.map Prod.fst).Nodup
  /-- The operators compare. -/
  compares : ∀ p ∈ c.comparisons, p.1.isLogical = false

/-- The scalars of an operand. -/
def Operand.scalars : Operand → List Scalar
  | one v => [v]
  | many values => values

/-- Whether a scalar is anything but a number, or an integer in range. -/
def Scalar.IsExact : Scalar → Prop
  | number n => ∃ i, n = .integer i ∧ Number.inRange i = true
  | _ => True

namespace Filter

mutual
/-- Whether a filter is well-formed, at any depth. -/
def WellFormed : Filter → Prop
  | fields entries =>
    (entries.map FieldFilter.field).Nodup ∧
      ∀ f ∈ entries, isFieldPath f.field = true ∧ f.condition.WellFormed
  | group conj disj =>
    (conj.isSome = true ∨ disj.isSome = true) ∧ GroupWellFormed conj ∧ GroupWellFormed disj

/-- Whether the filters of one list of a group are well-formed. -/
def GroupWellFormed : Option (List Filter) → Prop
  | none => True
  | some filters => ListWellFormed filters

/-- Whether the filters of a list are well-formed. -/
def ListWellFormed : List Filter → Prop
  | [] => True
  | f :: rest => WellFormed f ∧ ListWellFormed rest
end

mutual
/-- The number of groups of a filter that stand inside one another. -/
def groupDepth : Filter → Nat
  | fields _ => 0
  | group conj disj => max (listsDepth conj) (listsDepth disj) + 1

/-- The number of groups inside one list of a group that stand inside one another. -/
def listsDepth : Option (List Filter) → Nat
  | none => 0
  | some filters => filtersDepth filters

/-- The number of groups in a list of filters that stand inside one another. -/
def filtersDepth : List Filter → Nat
  | [] => 0
  | f :: rest => max (groupDepth f) (filtersDepth rest)
end

end Filter

/-- Whether a query is well-formed. -/
structure Query.WellFormed (q : Query) : Prop where
  /-- The query finds documents. -/
  method : q.method = .find
  /-- The filter is well-formed. -/
  filter : q.filter.WellFormed
  /-- The fields that are wanted, if not all are, are distinct field paths. -/
  projection : ∀ names ∈ q.projection, names ≠ [] ∧ names.Nodup ∧
    ∀ name ∈ names, isFieldPath name = true

end FindSelect
