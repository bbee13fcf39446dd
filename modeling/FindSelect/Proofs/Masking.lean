import FindSelect.Proofs.Comparisons
import FindSelect.Query.Basic

/-!
# Queries without their strings

`Query.masked` is a query in which every string that a field is compared with is replaced by the
empty one. Two queries with the same masked query differ in the contents of their strings alone.
`Filter.strings` lists these contents.
-/

namespace FindSelect

/-! ## Strings -/

/-- The content of a string. -/
def Scalar.content? : Scalar → Option String
  | string s => some s
  | _ => none

/-- The strings of an operand, in order. -/
def Operand.strings : Operand → List String
  | one v => v.content?.toList
  | many values => values.filterMap Scalar.content?

/-- The strings of a filter, in the order of its comparisons. -/
def Filter.strings (f : Filter) : List String :=
  f.comparisons.flatMap fun c => c.operand.strings

/-! ## Masking -/

/-- A scalar, a string without its content. -/
def Scalar.masked : Scalar → Scalar
  | string _ => string ""
  | v => v

/-- An operand, strings without their contents. -/
def Operand.masked : Operand → Operand
  | one v => one v.masked
  | many values => many (values.map Scalar.masked)

/-- A comparison, strings without their contents. -/
def Comparison.masked (c : Comparison) : Comparison :=
  { c with operand := c.operand.masked }

/-- A field with its condition, strings without their contents. -/
def FieldFilter.masked (f : FieldFilter) : FieldFilter :=
  ⟨f.field, ⟨f.condition.comparisons.map fun (op, operand) => (op, operand.masked)⟩⟩

namespace Filter

mutual
/-- A filter, strings without their contents. -/
def masked : Filter → Filter
  | fields entries => fields (entries.map FieldFilter.masked)
  | group conj disj => group (maskedGroup conj) (maskedGroup disj)

/-- One list of a group, strings without their contents. -/
def maskedGroup : Option (List Filter) → Option (List Filter)
  | none => none
  | some filters => some (maskedList filters)

/-- A list of filters, strings without their contents. -/
def maskedList : List Filter → List Filter
  | [] => []
  | f :: rest => masked f :: maskedList rest
end

end Filter

/-- A query, strings without their contents. -/
def Query.masked (q : Query) : Query :=
  { q with filter := q.filter.masked }

/-- Masking a field masks its comparisons. -/
theorem FieldFilter.comparisons_masked (f : FieldFilter) :
    f.masked.comparisons = f.comparisons.map Comparison.masked := by
  simp [FieldFilter.masked, FieldFilter.comparisons, Comparison.masked]

namespace Filter

mutual
/-- Masking a filter masks its comparisons. -/
theorem comparisons_masked (f : Filter) :
    f.masked.comparisons = f.comparisons.map Comparison.masked := by
  cases f with
  | fields entries =>
    rw [masked, comparisons, comparisons, List.flatMap_map, List.map_flatMap]
    exact congrArg (List.flatMap · entries) (funext FieldFilter.comparisons_masked)
  | group conj disj =>
    rw [masked, comparisons, comparisons, groupComparisons_masked conj,
      groupComparisons_masked disj, List.map_append]

/-- Masking one list of a group masks its comparisons. -/
theorem groupComparisons_masked (filters : Option (List Filter)) :
    groupComparisons (maskedGroup filters) = (groupComparisons filters).map Comparison.masked := by
  cases filters with
  | none => rfl
  | some filters => exact listComparisons_masked filters

/-- Masking a list of filters masks its comparisons. -/
theorem listComparisons_masked (filters : List Filter) :
    listComparisons (maskedList filters) = (listComparisons filters).map Comparison.masked := by
  cases filters with
  | nil => rfl
  | cons f rest =>
    rw [maskedList, listComparisons, listComparisons, comparisons_masked f,
      listComparisons_masked rest, List.map_append]
end

end Filter

end FindSelect
