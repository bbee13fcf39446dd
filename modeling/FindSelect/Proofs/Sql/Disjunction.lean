import FindSelect.Proofs.Sql.Meaning

/-!
# Disjunctions with members that select everything

A filter without comparisons renders to nothing, and what renders to nothing is left out of the list
that it stands in. In a conjunction that is as it should be. In a disjunction it is not what the
filter says: a member that selects every document makes the disjunction select every document, but
the predicate is that of the other members (`not_forall_anyOf_true`).

`predicate_anyOf` says what the predicate of a disjunction is. It is the predicate of the members
that have comparisons, and it is true where the predicate of one of them is. Without such a member
it is empty, and selects every document.
-/

namespace FindSelect

namespace Filter

mutual
/-- Whether a filter has no comparison and no disjunction, at any depth. It then selects every
document. -/
def isVacuous : Filter → Bool
  | fields entries => entries.all fun f => f.condition.isEmpty
  | group conj disj => disj.isNone && listsVacuous conj

/-- Whether the filters of one list of a group have no comparison and no disjunction. -/
def listsVacuous : Option (List Filter) → Bool
  | none => true
  | some filters => allVacuous filters

/-- Whether the filters of a list have no comparison and no disjunction. -/
def allVacuous : List Filter → Bool
  | [] => true
  | f :: rest => isVacuous f && allVacuous rest
end

/-- Whether a filter has a comparison, at any depth. -/
def hasComparison (f : Filter) : Bool :=
  !f.comparisons.isEmpty

/-- A filter without a comparison has none. -/
theorem hasComparison_eq_false {f : Filter} : f.hasComparison = false ↔ f.comparisons = [] := by
  simp [hasComparison]

end Filter

namespace Sql

/-! ## Truth values of texts -/

/-- The truth value of the text of a predicate, given those of the texts of comparisons. The empty
text is true, and a text that is no predicate has no truth value. -/
def textValue? (σ : String → Bool) (text : String) : Option Bool :=
  if text = "" then some true else (read? text).map (Predicate.value σ)

/-- What is rendered for a filter has the truth value of the filter, and is true if there is
none. -/
theorem textValue?_of_predicate {f : Filter} {text : String} (h : predicate f = .ok text)
    (σ : String → Bool) : textValue? σ text = some ((filterValue? σ f).getD true) := by
  rw [predicate_eq, succeedUnless_eq_ok] at h
  obtain ⟨hfault, rfl⟩ := h
  rw [filterValue?_eq σ f (List.findSome?_eq_none_iff.1 hfault)]
  have hwritten := allWritten_termTests hfault
  cases hterm : filterTerm? f with
  | none => rfl
  | some t =>
    rw [hterm] at hwritten
    have hread : read? t.text = some (.term t) := read?_text (.term t) hwritten
    have htext : spell (some t) = t.text := rfl
    rw [htext, textValue?, if_neg t.text_ne_empty, hread]
    rfl

/-! ## Terms without tests -/

mutual
/-- A predicate has a test. -/
theorem Predicate.tests_ne_nil (p : Predicate) : p.tests ≠ [] := by
  cases p with
  | term t => exact t.tests_ne_nil
  | or t rest => exact List.append_ne_nil_of_left_ne_nil t.tests_ne_nil _

/-- A term has a test. -/
theorem Term.tests_ne_nil (t : Term) : t.tests ≠ [] := by
  cases t with
  | primary p => exact p.tests_ne_nil
  | and p rest => exact List.append_ne_nil_of_left_ne_nil p.tests_ne_nil _

/-- A primary has a test. -/
theorem Primary.tests_ne_nil (p : Primary) : p.tests ≠ [] := by
  cases p with
  | test text t => exact List.cons_ne_nil _ _
  | group p => exact p.tests_ne_nil
end

/-- A filter has no term exactly if it has no comparison. -/
theorem filterTerm?_eq_none {f : Filter} : filterTerm? f = none ↔ f.hasComparison = false := by
  have htests := termTests_filterTerm? f
  rw [Filter.hasComparison_eq_false]
  cases hterm : filterTerm? f with
  | none =>
    rw [hterm] at htests
    simpa using List.map_eq_nil_iff.1 htests.symm
  | some t =>
    have hne : f.comparisons ≠ [] := by
      intro hnil
      rw [hterm, hnil] at htests
      exact t.tests_ne_nil htests
    simp [hne]

/-- A filter with a truth value has a comparison. -/
theorem hasComparison_of_filterValue? {σ : String → Bool} {f : Filter} {b : Bool}
    (h : ∀ c ∈ f.comparisons, fault? c = none) (hvalue : filterValue? σ f = some b) :
    f.hasComparison = true := by
  by_contra hnone
  rw [filterValue?_eq σ f h, filterTerm?_eq_none.2 (by simpa using hnone)] at hvalue
  exact absurd hvalue (by simp [termValue?])

/-- A filter that can be rendered has no comparison with a fault. -/
theorem fault?_of_predicate {f : Filter} {text : String} (h : predicate f = .ok text) :
    ∀ c ∈ f.comparisons, fault? c = none := by
  rw [predicate_eq, succeedUnless_eq_ok] at h
  exact List.findSome?_eq_none_iff.1 h.1

/-- What is rendered for a filter is empty exactly if the filter has no comparison. -/
theorem eq_empty_of_predicate {f : Filter} {text : String} (h : predicate f = .ok text) :
    text = "" ↔ f.hasComparison = false := by
  rw [predicate_eq, succeedUnless_eq_ok] at h
  rw [← filterTerm?_eq_none, ← h.2]
  cases hterm : filterTerm? f with
  | none => simp [spell]
  | some t => simpa [spell] using t.text_ne_empty

/-- What is rendered for a filter with a comparison is true exactly if the filter is. -/
theorem textValue?_eq_some_true {f : Filter} {text : String} (h : predicate f = .ok text)
    (hf : f.hasComparison = true) (σ : String → Bool) :
    textValue? σ text = some true ↔ filterValue? σ f = some true := by
  have hterm : filterTerm? f ≠ none := by
    rw [ne_eq, filterTerm?_eq_none, hf]
    decide
  obtain ⟨t, ht⟩ := Option.ne_none_iff_exists'.1 hterm
  rw [textValue?_of_predicate h, filterValue?_eq σ f (fault?_of_predicate h), ht]
  simp [termValue?]

/-! ## Disjunctions -/

/-- The members without a comparison have no comparisons to list. -/
theorem listComparisons_filter (filters : List Filter) :
    Filter.listComparisons (filters.filter Filter.hasComparison) =
      Filter.listComparisons filters := by
  induction filters with
  | nil => rfl
  | cons f rest ih =>
    rw [List.filter_cons]
    split
    · rw [Filter.listComparisons, ih, Filter.listComparisons]
    · next hnone =>
      have hnil : f.comparisons = [] := Filter.hasComparison_eq_false.1 (by simpa using hnone)
      rw [ih, Filter.listComparisons, hnil, List.nil_append]

/-- The members without a comparison have no term. -/
theorem listTerms_filter (filters : List Filter) :
    (listTerms (filters.filter Filter.hasComparison)).reduceOption =
      (listTerms filters).reduceOption := by
  induction filters with
  | nil => rfl
  | cons f rest ih =>
    rw [List.filter_cons]
    split
    · rw [listTerms, listTerms]
      cases filterTerm? f with
      | none => rw [List.reduceOption_cons_of_none, List.reduceOption_cons_of_none, ih]
      | some t => rw [List.reduceOption_cons_of_some, List.reduceOption_cons_of_some, ih]
    · next hnone =>
      have hterm : filterTerm? f = none := filterTerm?_eq_none.2 (by simpa using hnone)
      rw [ih, listTerms, hterm, List.reduceOption_cons_of_none]

/-- A disjunction is rendered as without the members that have no comparison. -/
theorem predicate_anyOf_filter (filters : List Filter) :
    predicate (.anyOf (filters.filter Filter.hasComparison)) = predicate (.anyOf filters) := by
  have hcomparisons : ∀ fs : List Filter,
      (Filter.anyOf fs).comparisons = Filter.listComparisons fs := fun _ => rfl
  have hterm : ∀ fs : List Filter, filterTerm? (.anyOf fs) =
      conjoin? [none, grouped? .or (listTerms fs).reduceOption].reduceOption := fun _ => rfl
  rw [predicate_eq, predicate_eq, hcomparisons, hcomparisons, listComparisons_filter, hterm, hterm,
    listTerms_filter]

/-- A disjunction has a comparison if one of its members has. -/
theorem hasComparison_anyOf (filters : List Filter) :
    (Filter.anyOf filters).hasComparison = filters.any Filter.hasComparison := by
  show (!(Filter.listComparisons filters).isEmpty) = _
  induction filters with
  | nil => rfl
  | cons f rest ih =>
    rw [Filter.listComparisons, List.any_cons, ← ih]
    cases hf : f.comparisons <;> simp [Filter.hasComparison, hf]

/-- A disjunction is true if one of its members is. -/
theorem filterValue?_anyOf_eq_some_true (σ : String → Bool) (filters : List Filter) :
    filterValue? σ (.anyOf filters) = some true ↔ ∃ f ∈ filters, filterValue? σ f = some true := by
  have hvalues : listValues σ filters = filters.map (filterValue? σ) := by
    induction filters with
    | nil => rfl
    | cons f rest ih => rw [listValues, ih, List.map_cons]
  have hgroup : filterValue? σ (.anyOf filters) = anyOf (listValues σ filters) := by
    show allOf [none, anyOf (listValues σ filters)] = anyOf (listValues σ filters)
    cases anyOf (listValues σ filters) with
    | none => rfl
    | some b => simp [allOf, List.reduceOption]
  have hany : anyOf (listValues σ filters) = some true ↔
      some true ∈ listValues σ filters := by
    rw [← List.reduceOption_mem_iff]
    unfold anyOf
    cases (listValues σ filters).reduceOption with
    | nil => simp
    | cons b bs => simp
  rw [hgroup, hany, hvalues, List.mem_map]

/-- A disjunction can be rendered if its members can. -/
theorem exists_predicate_anyOf {filters : List Filter}
    (h : ∀ f ∈ filters, ∃ t, predicate f = .ok t) :
    ∃ text, predicate (.anyOf filters) = .ok text := by
  have hfault : ∀ c ∈ Filter.listComparisons filters, fault? c = none := by
    induction filters with
    | nil => simp [Filter.listComparisons]
    | cons f rest ih =>
      rw [List.forall_mem_cons] at h
      obtain ⟨t, ht⟩ := h.1
      rw [Filter.listComparisons, List.forall_mem_append]
      exact ⟨fault?_of_predicate ht, ih h.2⟩
  refine ⟨spell (filterTerm? (.anyOf filters)), ?_⟩
  rw [predicate_eq, succeedUnless_eq_ok]
  exact ⟨List.findSome?_eq_none_iff.2 hfault, rfl⟩

/-- A list of filters that can be rendered has a disjunction that can be. Its predicate is that of
the members that have comparisons. If there are none, it is empty; otherwise it is true where the
predicate of one of these members is. -/
theorem predicate_anyOf {filters : List Filter} (h : ∀ f ∈ filters, ∃ t, predicate f = .ok t) :
    ∃ text, predicate (.anyOf filters) = .ok text ∧
      predicate (.anyOf (filters.filter Filter.hasComparison)) = .ok text ∧
      ((∀ f ∈ filters, f.hasComparison = false) → text = "") ∧
      ((∃ f ∈ filters, f.hasComparison = true) → text ≠ "" ∧
        ∀ σ, ∃ b, textValue? σ text = some b ∧ (b = true ↔
          ∃ f ∈ filters, f.hasComparison = true ∧
            ∃ t, predicate f = .ok t ∧ textValue? σ t = some true)) := by
  obtain ⟨text, htext⟩ := exists_predicate_anyOf h
  refine ⟨text, htext, (predicate_anyOf_filter filters).trans htext, ?_, ?_⟩
  · intro hnone
    rw [eq_empty_of_predicate htext, hasComparison_anyOf, List.any_eq_false]
    simpa using hnone
  · intro hsome
    have hcomparison : (Filter.anyOf filters).hasComparison = true := by
      rw [hasComparison_anyOf, List.any_eq_true]
      exact hsome
    refine ⟨?_, fun σ => ⟨_, textValue?_of_predicate htext σ, ?_⟩⟩
    · rw [ne_eq, eq_empty_of_predicate htext, hcomparison]
      decide
    · -- A member that is true has a comparison, so its own text is true, too.
      rw [← Option.some_inj, ← textValue?_of_predicate htext σ,
        textValue?_eq_some_true htext hcomparison, filterValue?_anyOf_eq_some_true]
      constructor
      · rintro ⟨f, hf, hvalue⟩
        obtain ⟨t, ht⟩ := h f hf
        have hfcomparison := hasComparison_of_filterValue? (fault?_of_predicate ht) hvalue
        exact ⟨f, hf, hfcomparison, t, ht, (textValue?_eq_some_true ht hfcomparison σ).2 hvalue⟩
      · rintro ⟨f, hf, hfcomparison, t, ht, hvalue⟩
        exact ⟨f, hf, (textValue?_eq_some_true ht hfcomparison σ).1 hvalue⟩

/-- A member that selects every document, and one that does not. -/
def everythingOrOne : List Filter :=
  [.empty, .fields [⟨"a", ⟨[(.eq, .one (.number (.integer 1)))]⟩⟩]]

/-- The predicate of the disjunction is the comparison of its second member. -/
theorem predicate_everythingOrOne :
    (∀ f ∈ everythingOrOne, ∃ t, predicate f = .ok t) ∧
      predicate (.anyOf everythingOrOne) = .ok "a = 1" := by
  refine ⟨?_, rfl⟩
  rw [everythingOrOne, List.forall_mem_cons, List.forall_mem_singleton]
  exact ⟨⟨"", rfl⟩, "a = 1", rfl⟩

/-- The predicate of the disjunction is not empty, and is true only where a member with a comparison
is. -/
theorem predicate_anyOf_everythingOrOne :
    "a = 1" ≠ "" ∧ ∀ σ, ∃ b, textValue? σ "a = 1" = some b ∧ (b = true ↔
      ∃ f ∈ everythingOrOne, f.hasComparison = true ∧
        ∃ t, predicate f = .ok t ∧ textValue? σ t = some true) := by
  obtain ⟨text, htext, -, -, hsome⟩ := predicate_anyOf predicate_everythingOrOne.1
  obtain rfl := Except.ok.inj (htext.symm.trans predicate_everythingOrOne.2)
  exact hsome ⟨_, List.mem_cons_of_mem _ List.mem_cons_self, rfl⟩

/-- It is not so that the predicate of a disjunction is always true if one of the members selects
every document: the other members remain. -/
theorem not_forall_anyOf_true :
    ¬ ∀ filters : List Filter, (∃ f ∈ filters, f.isVacuous = true) →
      (∀ f ∈ filters, ∃ t, predicate f = .ok t) →
      ∃ text, predicate (.anyOf filters) = .ok text ∧ ∀ σ, textValue? σ text = some true := by
  intro h
  obtain ⟨text, htext, htrue⟩ :=
    h everythingOrOne ⟨.empty, List.mem_cons_self, rfl⟩ predicate_everythingOrOne.1
  -- If no comparison is true, the second member is not.
  have hvalue := textValue?_of_predicate htext fun _ => false
  rw [htrue] at hvalue
  exact absurd hvalue (by decide)

end Sql

end FindSelect
