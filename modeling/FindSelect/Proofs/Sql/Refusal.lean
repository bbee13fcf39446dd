import FindSelect.Proofs.Sql.Statement
import FindSelect.Proofs.WellFormed

/-!
# Which well-formed queries are refused

Of the faults that stop a statement from being written, a well-formed query can have two only: the
name of its collection, and a list of values beside an operator that takes one value.
`render_eq_error` says so, and `exists_render_eq_error` that each of the two does stop it.
-/

namespace FindSelect

/-- Whether a list of values stands beside an operator that takes a single value. -/
def Comparison.HasStrayList (c : Comparison) : Prop :=
  c.op ≠ .member ∧ ∃ values, c.operand = .many values

namespace Filter

mutual
/-- The comparisons of a well-formed filter are on field paths, with operators that compare. -/
theorem WellFormed.comparisons : (f : Filter) → f.WellFormed →
    ∀ c ∈ f.comparisons, isFieldPath c.field = true ∧ c.op.isLogical = false
  | fields entries, h => by
    intro c hc
    obtain ⟨entry, hentry, hc⟩ := List.mem_flatMap.1 hc
    obtain ⟨p, hp, rfl⟩ := List.mem_map.1 hc
    obtain ⟨hfield, hcondition⟩ := h.2 entry hentry
    exact ⟨hfield, hcondition.compares p hp⟩
  | group conj disj, h => by
    intro c hc
    rcases List.mem_append.1 hc with hc | hc
    · exact GroupWellFormed.comparisons conj h.2.1 c hc
    · exact GroupWellFormed.comparisons disj h.2.2 c hc

/-- The same of the filters of one list of a group. -/
theorem GroupWellFormed.comparisons : (lists : Option (List Filter)) → GroupWellFormed lists →
    ∀ c ∈ groupComparisons lists, isFieldPath c.field = true ∧ c.op.isLogical = false
  | none, _ => by simp [groupComparisons]
  | some filters, h => ListWellFormed.comparisons filters h

/-- The same of the filters of a list. -/
theorem ListWellFormed.comparisons : (filters : List Filter) → ListWellFormed filters →
    ∀ c ∈ listComparisons filters, isFieldPath c.field = true ∧ c.op.isLogical = false
  | [], _ => by simp [listComparisons]
  | f :: rest, h => by
    intro c hc
    rcases List.mem_append.1 hc with hc | hc
    · exact WellFormed.comparisons f h.1 c hc
    · exact ListWellFormed.comparisons rest h.2 c hc
end

end Filter

namespace Sql

/-- A comparison of a field path, with an operator that compares, has no fault but a stray list. -/
theorem fault?_eq_some {c : Comparison} (hfield : isFieldPath c.field = true)
    (hop : c.op.isLogical = false) {e : Error} :
    fault? c = some e ↔ c.HasStrayList ∧ e = .invalidCondition c.field (.listOperand c.op) := by
  obtain ⟨field, op, operand⟩ := c
  rw [fault?, if_neg (by simpa using hfield), if_neg (by simpa using hop)]
  unfold Comparison.HasStrayList
  dsimp only
  split
  · simp
  · next values hmember =>
    constructor
    · intro h
      exact ⟨⟨hmember, values, rfl⟩, (Option.some.inj h).symm⟩
    · rintro ⟨-, rfl⟩
      rfl
  · simp

/-- Of a well-formed query, only the collection and the comparisons can have a fault. -/
theorem queryFault?_of_wellFormed {q : Query} (h : q.WellFormed) :
    queryFault? q = (nameFault? q.collection).or (q.filter.comparisons.findSome? fault?) := by
  have hmethod : methodFault? q.method = none := if_pos h.method
  have hnames : (wantedNames q).findSome? nameFault? = none := by
    refine List.findSome?_eq_none_iff.2 fun name hname => if_pos ?_
    unfold wantedNames at hname
    cases hq : q.projection with
    | none => simp [hq] at hname
    | some names =>
      rw [hq] at hname
      exact (h.projection names hq).2.2 name hname
  unfold queryFault?
  rw [hmethod, findSome?_cons_or, hnames, Option.or_none, Option.none_or]

/-- A well-formed query is refused for its collection or for a stray list, and the error names the
one or the other. -/
theorem render_eq_error {q : Query} (h : q.WellFormed) {e : Error} (he : render q = .error e) :
    (isFieldPath q.collection = false ∧ e = .invalidCondition q.collection .notAFieldPath) ∨
      ∃ c ∈ q.filter.comparisons,
        c.HasStrayList ∧ e = .invalidCondition c.field (.listOperand c.op) := by
  rw [render_eq, succeedUnless_eq_error, queryFault?_of_wellFormed h, Option.or_eq_some_iff] at he
  rcases he with hname | ⟨-, hcomparison⟩
  · unfold nameFault? at hname
    split at hname
    · exact absurd hname (by simp)
    · next hpath => exact .inl ⟨by simpa using hpath, (Option.some.inj hname).symm⟩
  · obtain ⟨c, hc, hfault⟩ := List.exists_of_findSome?_eq_some hcomparison
    obtain ⟨hfield, hop⟩ := Filter.WellFormed.comparisons q.filter h.filter c hc
    exact .inr ⟨c, hc, (fault?_eq_some hfield hop).1 hfault⟩

/-- A well-formed query whose collection is not a field path, or that has a stray list, is
refused. -/
theorem exists_render_eq_error {q : Query} (h : q.WellFormed)
    (hfault : isFieldPath q.collection = false ∨ ∃ c ∈ q.filter.comparisons, c.HasStrayList) :
    ∃ e, render q = .error e := by
  have hsome : queryFault? q ≠ none := by
    intro hnone
    obtain ⟨-, hnames, hcomparisons⟩ := queryFault?_eq_none.1 hnone
    rcases hfault with hpath | ⟨c, hc, hstray⟩
    · rw [hnames q.collection List.mem_cons_self] at hpath
      exact absurd hpath (by decide)
    · obtain ⟨hfield, hop⟩ := Filter.WellFormed.comparisons q.filter h.filter c hc
      have hlist := (fault?_eq_some hfield hop).2 ⟨hstray, rfl⟩
      rw [hcomparisons c hc] at hlist
      exact absurd hlist (by simp)
  obtain ⟨e, he⟩ := Option.ne_none_iff_exists'.1 hsome
  exact ⟨e, by rw [render_eq, succeedUnless_eq_error, he]⟩

end Sql

end FindSelect
