import FindSelect.Proofs.Sql.Rendering

/-!
# The predicate of a filter means what the filter means

A filter has a truth value once its comparisons have: comparisons of a field and fields of a list
are conjoined, and a group is the conjunction of its conjunction with its disjunction. What renders
to nothing has no truth value, and is left out of the list that it stands in (`filterValue?`).

`predicate_meaning` says that the text which is rendered for a filter can be read by the grammar of
SQL predicates, and that what is read has the truth value of the filter. The renderer writes
parentheses around groups of two or more alone. That is enough, since what it writes for a filter is
always a term: no `OR` stands outside of parentheses.
-/

namespace FindSelect.Sql

/-- The conjunction of the truth values that there are, if there are any. -/
def allOf (values : List (Option Bool)) : Option Bool :=
  match values.reduceOption with
  | [] => none
  | bs => some (bs.all id)

/-- The disjunction of the truth values that there are, if there are any. -/
def anyOf (values : List (Option Bool)) : Option Bool :=
  match values.reduceOption with
  | [] => none
  | bs => some (bs.any id)

/-- The truth value of a comparison: the one that is given to its own text. -/
def comparisonValue? (σ : String → Bool) (c : Comparison) : Option Bool :=
  (comparison c.field c.op c.operand).toOption.map σ

/-- The truth value of a field with its condition. -/
def fieldValue? (σ : String → Bool) (f : FieldFilter) : Option Bool :=
  allOf (f.comparisons.map (comparisonValue? σ))

mutual
/-- The truth value of a filter, given those of the texts of comparisons. A filter without
comparisons has none. -/
def filterValue? (σ : String → Bool) : Filter → Option Bool
  | .fields entries => allOf (entries.map (fieldValue? σ))
  | .group conj disj => allOf [conjunctionValue? σ conj, disjunctionValue? σ disj]

/-- The truth value of the conjunction of a group. -/
def conjunctionValue? (σ : String → Bool) : Option (List Filter) → Option Bool
  | none => none
  | some filters => allOf (listValues σ filters)

/-- The truth value of the disjunction of a group. -/
def disjunctionValue? (σ : String → Bool) : Option (List Filter) → Option Bool
  | none => none
  | some filters => anyOf (listValues σ filters)

/-- The truth values of the filters of a list. -/
def listValues (σ : String → Bool) : List Filter → List (Option Bool)
  | [] => []
  | f :: rest => filterValue? σ f :: listValues σ rest
end

/-! ## Truth values of terms -/

/-- The truth value of two terms with `AND` between them. -/
theorem Term.value_append (σ : String → Bool) (t u : Term) :
    (t.append u).value σ = (t.value σ && u.value σ) := by
  fun_induction Term.append t u with
  | case1 u p => rfl
  | case2 u p rest ih => rw [Term.value, ih, Term.value, Bool.and_assoc]

/-- The truth value of terms joined by `AND`. -/
theorem value_conjoin (σ : String → Bool) (t : Term) (ts : List Term) :
    (conjoin t ts).value σ = ((t :: ts).map (Term.value σ)).all id := by
  induction ts generalizing t with
  | nil => simp [conjoin]
  | cons u us ih => rw [conjoin, Term.value_append, ih, List.map_cons, List.all_cons]; rfl

/-- The truth value of terms joined by `OR`. -/
theorem value_disjoin (σ : String → Bool) (t : Term) (ts : List Term) :
    (disjoin t ts).value σ = ((t :: ts).map (Term.value σ)).any id := by
  induction ts generalizing t with
  | nil => simp [disjoin, Predicate.value]
  | cons u us ih => rw [disjoin, Predicate.value, ih, List.map_cons, List.any_cons]; rfl

/-- The truth value of a term, if there is one. -/
def termValue? (σ : String → Bool) (t : Option Term) : Option Bool :=
  t.map (Term.value σ)

/-- The truth values of the terms that there are, among those that there may be. -/
theorem reduceOption_termValue? (σ : String → Bool) (ts : List (Option Term)) :
    (ts.map (termValue? σ)).reduceOption = ts.reduceOption.map (Term.value σ) :=
  List.reduceOption_map

/-- A conjunction without parentheses has the conjunction of the truth values of its parts. -/
theorem termValue?_conjoin? (σ : String → Bool) (ts : List (Option Term)) :
    termValue? σ (conjoin? ts.reduceOption) = allOf (ts.map (termValue? σ)) := by
  unfold allOf
  rw [reduceOption_termValue?]
  cases ts.reduceOption with
  | nil => rfl
  | cons t ts => exact congrArg some (value_conjoin σ t ts)

/-- A group under `AND` has the conjunction of the truth values of its parts. -/
theorem termValue?_grouped?_and (σ : String → Bool) (ts : List (Option Term)) :
    termValue? σ (grouped? .and ts.reduceOption) = allOf (ts.map (termValue? σ)) := by
  unfold allOf
  rw [reduceOption_termValue?]
  match ts.reduceOption with
  | [] => rfl
  | [t] => simp [grouped?, termValue?]
  | t :: u :: us => exact congrArg some (value_conjoin σ t (u :: us))

/-- A group under `OR` has the disjunction of the truth values of its parts. -/
theorem termValue?_grouped?_or (σ : String → Bool) (ts : List (Option Term)) :
    termValue? σ (grouped? .or ts.reduceOption) = anyOf (ts.map (termValue? σ)) := by
  unfold anyOf
  rw [reduceOption_termValue?]
  match ts.reduceOption with
  | [] => rfl
  | [t] => simp [grouped?, termValue?]
  | t :: u :: us => exact congrArg some (value_disjoin σ t (u :: us))

/-! ## Truth values of filters -/

/-- A comparison that can be expressed has the truth value of its term. -/
theorem comparisonValue?_eq (σ : String → Bool) {c : Comparison} (h : fault? c = none) :
    comparisonValue? σ c = termValue? σ (some (comparisonTerm c)) := by
  unfold comparisonValue?
  rw [comparison_eq, h]
  rfl

/-- A field whose comparisons can be expressed has the truth value of its term. -/
theorem fieldValue?_eq (σ : String → Bool) {f : FieldFilter}
    (h : ∀ c ∈ f.comparisons, fault? c = none) :
    fieldValue? σ f = termValue? σ (fieldTerm? f) := by
  have hvalues : f.comparisons.map (comparisonValue? σ) =
      (f.comparisons.map fun c => some (comparisonTerm c)).map (termValue? σ) := by
    rw [List.map_map]
    exact List.map_congr_left fun c hc => comparisonValue?_eq σ (h c hc)
  unfold fieldValue? fieldTerm?
  rw [hvalues, ← termValue?_grouped?_and, reduceOption_map_some]

mutual
/-- A filter whose comparisons can be expressed has the truth value of its term. -/
theorem filterValue?_eq (σ : String → Bool) (f : Filter)
    (h : ∀ c ∈ f.comparisons, fault? c = none) :
    filterValue? σ f = termValue? σ (filterTerm? f) := by
  cases f with
  | fields entries =>
    rw [Filter.comparisons, List.forall_mem_flatMap] at h
    have hvalues : entries.map (fieldValue? σ) = (entries.map fieldTerm?).map (termValue? σ) := by
      rw [List.map_map]
      exact List.map_congr_left fun e he => fieldValue?_eq σ (h e he)
    rw [filterValue?, filterTerm?, hvalues, ← termValue?_conjoin?]
  | group conj disj =>
    rw [Filter.comparisons, List.forall_mem_append] at h
    rw [filterValue?, filterTerm?, conjunctionValue?_eq σ conj h.1, disjunctionValue?_eq σ disj h.2,
      termValue?_conjoin?]
    rfl

/-- The conjunction of a group has the truth value of its term. -/
theorem conjunctionValue?_eq (σ : String → Bool) (filters : Option (List Filter))
    (h : ∀ c ∈ Filter.groupComparisons filters, fault? c = none) :
    conjunctionValue? σ filters = termValue? σ (groupTerm? .and filters) := by
  cases filters with
  | none => rfl
  | some filters =>
    rw [conjunctionValue?, groupTerm?, termValue?_grouped?_and, listValues_eq σ filters h]

/-- The disjunction of a group has the truth value of its term. -/
theorem disjunctionValue?_eq (σ : String → Bool) (filters : Option (List Filter))
    (h : ∀ c ∈ Filter.groupComparisons filters, fault? c = none) :
    disjunctionValue? σ filters = termValue? σ (groupTerm? .or filters) := by
  cases filters with
  | none => rfl
  | some filters =>
    rw [disjunctionValue?, groupTerm?, termValue?_grouped?_or, listValues_eq σ filters h]

/-- The filters of a list have the truth values of their terms. -/
theorem listValues_eq (σ : String → Bool) (filters : List Filter)
    (h : ∀ c ∈ Filter.listComparisons filters, fault? c = none) :
    listValues σ filters = (listTerms filters).map (termValue? σ) := by
  cases filters with
  | nil => rfl
  | cons f rest =>
    rw [Filter.listComparisons, List.forall_mem_append] at h
    rw [listValues, filterValue?_eq σ f h.1, listValues_eq σ rest h.2, listTerms, List.map_cons]
end

/-! ## The main result -/

/-- The text that is rendered for a filter is empty exactly when the filter has no truth value.
Otherwise it is a predicate, read to its end, and this predicate is true exactly when the filter is,
whatever truth values the texts of comparisons are given. -/
theorem predicate_meaning {f : Filter} {text : String} (h : predicate f = .ok text) :
    (text = "" ↔ ∀ σ, filterValue? σ f = none) ∧
      (text ≠ "" → ∃ p, read? text = some p ∧ ∀ σ, filterValue? σ f = some (p.value σ)) := by
  rw [predicate_eq, succeedUnless_eq_ok] at h
  obtain ⟨hfault, rfl⟩ := h
  have hvalue := fun σ => filterValue?_eq σ f (List.findSome?_eq_none_iff.1 hfault)
  have hwritten := allWritten_termTests hfault
  cases hterm : filterTerm? f with
  | none => simp [hvalue, hterm, spell, termValue?]
  | some t =>
    -- A term is a predicate without an `OR` of its own, and the text is that of this predicate.
    rw [hterm] at hwritten hvalue
    have hne : spell (some t) ≠ "" := t.text_ne_empty
    refine ⟨⟨fun h => absurd h hne, fun h => ?_⟩, fun _ => ⟨.term t, ?_, hvalue⟩⟩
    · have hnone := h fun _ => true
      rw [hvalue] at hnone
      exact absurd hnone (by simp [termValue?])
    · exact read?_text (.term t) hwritten

/-- A filter with both lists of a group, a range, a string that looks like SQL, and a member that
renders to nothing. -/
def twoGroups : Filter :=
  .group
    (some [.fields [⟨"age", ⟨[(.gt, .one (.number (.integer 18))),
      (.lte, .one (.number (.integer 30)))]⟩⟩], .fields []])
    (some [.fields [⟨"name", ⟨[(.eq, .one (.string "x' OR (1"))]⟩⟩],
      .allOf [.fields [⟨"city", ⟨[(.ne, .one .null)]⟩⟩, ⟨"zip", ⟨[(.member, .many [])]⟩⟩]]])

/-- The predicate of `twoGroups` is read with the truth value of `twoGroups`. -/
theorem predicate_meaning_twoGroups :
    ∃ p, read? ("(age > 18 AND age <= 30) AND " ++
        "(name = 'x'' OR (1' OR city IS NOT NULL AND zip IN ())") = some p ∧
      ∀ σ, filterValue? σ twoGroups = some (p.value σ) :=
  (predicate_meaning (f := twoGroups) rfl).2 (by decide)

end FindSelect.Sql
