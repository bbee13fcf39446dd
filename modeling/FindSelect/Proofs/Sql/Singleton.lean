import FindSelect.Sql.Select
import Mathlib.Data.List.Basic

/-!
# Predicates of a single part

Parentheses and the words `AND` and `OR` stand between parts only, so what has a single part is
written as that part alone: a group with one member, and a field with one comparison. The same goes
for a failure.
-/

namespace FindSelect.Sql

/-! ## Groups -/

/-- A single predicate is joined with nothing. -/
theorem joined_singleton (op : Operator) (s : String) : joined op [s] = s := by
  unfold joined
  by_cases h : s = "" <;> simp [h]

/-- The conjunction of a single predicate is that predicate. -/
theorem conjunction_singleton (s : String) : conjunction [s] = s := by
  rw [← String.toList_inj]
  unfold conjunction
  by_cases h : s = "" <;> simp [h]

/-- The conjunction of a predicate with an empty one, before or behind it, is that predicate. -/
theorem conjunction_empty (s : String) : conjunction [s, ""] = s ∧ conjunction ["", s] = s := by
  have hright : conjunction [s, ""] = conjunction [s] := by simp [conjunction, List.filter_cons]
  have hleft : conjunction ["", s] = conjunction [s] := by simp [conjunction]
  rw [hright, hleft, conjunction_singleton]
  exact ⟨rfl, rfl⟩

/-- The predicate of a list of one filter is that of the filter. -/
theorem groupPredicate_singleton (op : Operator) (f : Filter) :
    groupPredicate op (some [f]) = predicate f := by
  rw [groupPredicate, predicates, predicates]
  cases predicate f with
  | error e => rfl
  | ok s => exact congrArg Except.ok (joined_singleton op s)

/-- The predicate of a conjunction of one filter is that of the filter. -/
theorem predicate_allOf_singleton (f : Filter) : predicate (.allOf [f]) = predicate f := by
  rw [Filter.allOf, predicate, groupPredicate_singleton, groupPredicate]
  cases predicate f with
  | error e => rfl
  | ok s => exact congrArg Except.ok (conjunction_empty s).1

/-- The predicate of a disjunction of one filter is that of the filter. -/
theorem predicate_anyOf_singleton (f : Filter) : predicate (.anyOf [f]) = predicate f := by
  rw [Filter.anyOf, predicate, groupPredicate_singleton, groupPredicate]
  cases predicate f with
  | error e => rfl
  | ok s => exact congrArg Except.ok (conjunction_empty s).2

/-- Of the filter of a query, only its predicate goes into the statement. -/
theorem render_congr {f f' : Filter} (h : predicate f = predicate f') (collection : String)
    (method : Method) (projection : Option (List String)) :
    render ⟨collection, method, f, projection⟩ = render ⟨collection, method, f', projection⟩ := by
  unfold render
  simp only [h]

/-! ## Comparisons -/

/-- The predicate of a single comparison is that comparison. -/
theorem predicate_comparison (field : String) (op : Operator) (operand : Operand) :
    predicate (.fields [⟨field, ⟨[(op, operand)]⟩⟩]) = comparison field op operand := by
  simp only [predicate, List.mapM_cons, List.mapM_nil, fieldPredicate]
  cases comparison field op operand with
  | error e => rfl
  | ok s =>
    show Except.ok (conjunction [joined .and [s]]) = _
    rw [joined_singleton, conjunction_singleton]

/-- All columns are selected where a predicate holds, if there is one. -/
theorem render_of_predicate {collection condition : String} {f : Filter}
    (hcollection : isFieldPath collection = true) (hf : predicate f = .ok condition)
    (hne : condition ≠ "") :
    render ⟨collection, .find, f, none⟩ =
      .ok ("SELECT * FROM " ++ collection ++ " WHERE " ++ condition ++ ";") := by
  have hname : checkName collection = .ok () := if_pos hcollection
  simp only [render, columns, hname, hf, ne_eq, not_true_eq_false, if_false]
  exact (if_neg hne).trans rfl

end FindSelect.Sql
