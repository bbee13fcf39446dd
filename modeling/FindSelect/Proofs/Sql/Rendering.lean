import FindSelect.Proofs.Comparisons
import FindSelect.Proofs.FirstFault
import FindSelect.Proofs.Sql.Spelling
import FindSelect.Sql.Select
import Mathlib.Data.List.ReduceOption

/-!
# What the renderer writes, and when it fails

`filterTerm?` is the term that a filter amounts to: conjunctions become terms, and what has several
parts becomes a group in parentheses. `predicate_eq` says that the renderer writes this term, unless
a comparison of the filter cannot be expressed, and then fails with the fault of the first such
comparison.
-/

namespace FindSelect.Sql

/-! ## Comparisons -/

/-- The literal for a scalar. -/
def literalOf : Scalar → Literal
  | .null => .null
  | .bool b => .bool b
  | .number n => .number n.toText
  | .string s => .string s

/-- What a comparison says of its field. -/
def relationOf : Operator → Operand → Relation
  | _, .many values => .among (values.map literalOf)
  | .member, .one value => .among [literalOf value]
  | .eq, .one .null => .isNull
  | .ne, .one .null => .isNotNull
  | op, .one value => .compare op (literalOf value)

/-- The test for a comparison. -/
def testOf (c : Comparison) : Test :=
  ⟨c.field, relationOf c.op c.operand⟩

/-- Why a comparison cannot be expressed, if it cannot: its field is not a field path, its operator
joins filters, or it has a list beside an operator that takes a single value. -/
def fault? (c : Comparison) : Option Error :=
  if !isFieldPath c.field then some (.invalidCondition c.field .notAFieldPath)
  else if c.op.isLogical then some (.invalidCondition c.field (.logicalOperator c.op))
  else
    match c.op, c.operand with
    | .member, _ => none
    | op, .many _ => some (.invalidCondition c.field (.listOperand op))
    | _, .one _ => none

/-- A scalar is written as the token of its literal. -/
theorem toList_scalar (v : Scalar) : (scalar v).toList = (literalOf v).token.text := by
  cases v with
  | bool b => cases b <;> rfl
  | _ => rfl

/-- Literals behind a first one are each written behind a comma and a blank. -/
theorem source_furtherLexemes (values : List Literal) :
    source (furtherLexemes values) = values.flatMap fun v => [',', ' '] ++ v.token.text := by
  induction values with
  | nil => rfl
  | cons v values ih =>
    unfold furtherLexemes at ih ⊢
    simp [ih, Token.text]

/-- A list of scalars is written as the list of their literals. -/
theorem toList_scalarList (values : List Scalar) :
    (scalarList values).toList =
      ['('] ++ source (listLexemes (values.map literalOf)) ++ [')'] := by
  unfold scalarList
  rw [String.toList_append, String.toList_append, String.toList_intercalate]
  cases values with
  | nil => rfl
  | cons v values =>
    simp only [List.map_cons, Text.intercalate_cons, listLexemes, source_cons,
      source_furtherLexemes]
    simp [toList_scalar, List.flatMap_map]

/-- The text of a test whether a field is one of several scalars. -/
theorem text_among (field : String) (values : List Scalar) :
    (⟨field, .among (values.map literalOf)⟩ : Test).text =
      field ++ " IN " ++ scalarList values := by
  rw [← String.toList_inj]
  simp [Test.text, Test.lexemes, Relation.lexemes, Token.text, toList_scalarList]

/-- The renderer spells the operators that compare by a symbol with that symbol. -/
theorem comparisonSymbol_eq_token {op : Operator} (h : (!op.isLogical && op != .member) = true) :
    comparisonSymbol op = token op := by
  have htable : ∀ p ∈ comparisonSymbols, p.1 = token p.2 := by decide
  exact htable _ (comparisonSymbol_mem h)

/-- The text of a test that compares a field with a scalar. -/
theorem text_compare (field : String) {op : Operator}
    (hop : (!op.isLogical && op != .member) = true) (v : Scalar) :
    (⟨field, .compare op (literalOf v)⟩ : Test).text =
      field ++ " " ++ token op ++ " " ++ scalar v := by
  rw [← String.toList_inj]
  simp [Test.text, Test.lexemes, Relation.lexemes, Token.text, toList_scalar,
    comparisonSymbol_eq_token hop]

/-- The text of a test whether a field is null. -/
theorem text_isNull (field : String) : (⟨field, .isNull⟩ : Test).text = field ++ " IS NULL" := by
  rw [← String.toList_inj]
  simp [Test.text, Test.lexemes, Relation.lexemes, Token.text]

/-- The text of a test whether a field is not null. -/
theorem text_isNotNull (field : String) :
    (⟨field, .isNotNull⟩ : Test).text = field ++ " IS NOT NULL" := by
  rw [← String.toList_inj]
  simp [Test.text, Test.lexemes, Relation.lexemes, Token.text]

/-- A comparison of a field path with a single value is written as its test. -/
theorem comparison_one {field : String} {op : Operator} (v : Scalar)
    (hfield : isFieldPath field = true) (hop : op.isLogical = false) :
    comparison field op (.one v) = .ok (testOf ⟨field, op, .one v⟩).text := by
  unfold comparison checkName
  rw [if_pos hfield, hop]
  cases op with
  | member => exact congrArg Except.ok (text_among field [v]).symm
  | eq =>
    cases v with
    | null => exact congrArg Except.ok (text_isNull field).symm
    | _ => exact congrArg Except.ok (text_compare field rfl _).symm
  | ne =>
    cases v with
    | null => exact congrArg Except.ok (text_isNotNull field).symm
    | _ => exact congrArg Except.ok (text_compare field rfl _).symm
  | gt | gte | lt | lte => exact congrArg Except.ok (text_compare field rfl v).symm
  | and | or => exact absurd hop (by decide)

/-- A comparison is written as its test, unless it cannot be expressed. -/
theorem comparison_eq (c : Comparison) :
    comparison c.field c.op c.operand = succeedUnless (fault? c) (testOf c).text := by
  obtain ⟨field, op, operand⟩ := c
  unfold fault?
  -- The field is looked at first, then the operator, then the operand.
  by_cases hfield : isFieldPath field = true
  · by_cases hop : op.isLogical = true
    · simp only [hfield, hop, Bool.not_true, Bool.false_eq_true, if_false, if_true]
      unfold comparison checkName
      rw [if_pos hfield, hop]
      rfl
    · rw [Bool.not_eq_true] at hop
      simp only [hfield, hop, Bool.not_true, Bool.false_eq_true, if_false]
      cases operand with
      | one v =>
        rw [comparison_one v hfield hop]
        cases op <;> rfl
      | many values =>
        unfold comparison checkName
        rw [if_pos hfield, hop]
        cases op with
        | member => exact congrArg Except.ok (text_among field values).symm
        | _ => rfl
  · simp only [hfield, Bool.not_false, if_true]
    unfold comparison checkName
    rw [if_neg hfield]
    rfl

/-! ## Terms -/

/-- Two terms with `AND` between them, as one term. -/
def Term.append : Term → Term → Term
  | .primary p, u => .and p u
  | .and p rest, u => .and p (rest.append u)

/-- Terms with `AND` between them, as one term. -/
def conjoin (t : Term) : List Term → Term
  | [] => t
  | u :: us => t.append (conjoin u us)

/-- Terms with `OR` between them. -/
def disjoin (t : Term) : List Term → Predicate
  | [] => .term t
  | u :: us => .or t (disjoin u us)

/-- Terms with `AND` between them, if there are any. -/
def conjoin? : List Term → Option Term
  | [] => none
  | t :: ts => some (conjoin t ts)

/-- Terms joined by an operator, if there are any. Two or more are a group in parentheses. -/
def grouped? (op : Operator) : List Term → Option Term
  | [] => none
  | [t] => some t
  | t :: ts => some (.primary (.group (if op = .or then disjoin t ts else .term (conjoin t ts))))

/-- The term for a comparison. -/
def comparisonTerm (c : Comparison) : Term :=
  .primary (.test (testOf c).text (testOf c))

/-- The term for a field with its condition, if it has comparisons. -/
def fieldTerm? (f : FieldFilter) : Option Term :=
  grouped? .and (f.comparisons.map comparisonTerm)

mutual
/-- The term for a filter, if it has comparisons. -/
def filterTerm? : Filter → Option Term
  | .fields entries => conjoin? (entries.map fieldTerm?).reduceOption
  | .group conj disj => conjoin? [groupTerm? .and conj, groupTerm? .or disj].reduceOption

/-- The term for one list of a group, if it has comparisons. -/
def groupTerm? (op : Operator) : Option (List Filter) → Option Term
  | none => none
  | some filters => grouped? op (listTerms filters).reduceOption

/-- The terms for the filters of a list, as far as they have comparisons. -/
def listTerms : List Filter → List (Option Term)
  | [] => []
  | f :: rest => filterTerm? f :: listTerms rest
end

/-- The text of a term. -/
def Term.text (t : Term) : String :=
  String.ofList (source (t.lexemes []))

/-- The text of a term, or the empty text if there is none. -/
def spell (t : Option Term) : String :=
  (t.map Term.text).getD ""

/-! ## Texts of terms -/

/-- A term behind a gap is written as without it, behind the gap. -/
theorem Term.source_lexemes (t : Term) (gap : List Char) :
    source (t.lexemes gap) = gap ++ t.text.toList := by
  obtain ⟨token, tail, ht⟩ := t.lexemes_eq
  simp [Term.text, ht]

/-- A predicate behind a gap is written as without it, behind the gap. -/
theorem Predicate.source_lexemes (p : Predicate) (gap : List Char) :
    source (p.lexemes gap) = gap ++ p.text.toList := by
  obtain ⟨token, tail, hp⟩ := p.lexemes_eq
  simp [Predicate.text, hp]

/-- The text of a term is not empty: a test has a blank behind its field, and a group has
parentheses. -/
theorem Term.text_ne_empty (t : Term) : t.text ≠ "" := by
  have hprimary : ∀ p : Primary, source (p.lexemes []) ≠ [] := by
    intro p
    cases p with
    | test text t =>
      obtain ⟨field, relation⟩ := t
      cases relation <;> simp [Primary.lexemes, Test.lexemes, Relation.lexemes]
    | group p => simp [Primary.lexemes, Token.text]
  -- A term starts with a primary.
  unfold Term.text
  rw [ne_eq, ← String.toList_inj, String.toList_ofList]
  cases t with
  | primary p => exact hprimary p
  | and p t => simp [Term.lexemes, hprimary p]

/-- Two terms with `AND` between them are written so. -/
theorem Term.lexemes_append (t u : Term) (gap : List Char) :
    (t.append u).lexemes gap = t.lexemes gap ++ ⟨[' '], .word "AND"⟩ :: u.lexemes [' '] := by
  fun_induction Term.append t u generalizing gap with
  | case1 u p => simp only [Term.lexemes]
  | case2 u p rest ih => simp only [Term.lexemes, ih, List.append_assoc, List.cons_append]

/-- Terms joined by `AND` are written with it between them. -/
theorem text_conjoin (t : Term) (ts : List Term) :
    (conjoin t ts).text = " AND ".intercalate ((t :: ts).map Term.text) := by
  induction ts generalizing t with
  | nil => simp [conjoin]
  | cons u us ih =>
    rw [List.map_cons, List.map_cons, String.intercalate_cons_cons, ← List.map_cons, ← ih u,
      ← String.toList_inj, conjoin, Term.text, String.toList_ofList, Term.lexemes_append]
    simp [Term.source_lexemes, Token.text]

/-- Terms joined by `OR` are written with it between them. -/
theorem text_disjoin (t : Term) (ts : List Term) :
    (disjoin t ts).text = " OR ".intercalate ((t :: ts).map Term.text) := by
  induction ts generalizing t with
  | nil => simp [disjoin, Predicate.text, Predicate.lexemes, Term.text]
  | cons u us ih =>
    rw [List.map_cons, List.map_cons, String.intercalate_cons_cons, ← List.map_cons, ← ih u,
      ← String.toList_inj, disjoin, Predicate.text, String.toList_ofList, Predicate.lexemes]
    simp [Term.source_lexemes, Predicate.source_lexemes, Token.text]

/-- The texts of the terms that there are, among those that there may be. -/
theorem filter_map_spell (ts : List (Option Term)) :
    (ts.map spell).filter (· != "") = ts.reduceOption.map Term.text := by
  induction ts with
  | nil => rfl
  | cons t ts ih =>
    cases t with
    | none =>
      rw [List.reduceOption_cons_of_none, ← ih]
      simp [spell]
    | some t =>
      have hne := t.text_ne_empty
      rw [List.reduceOption_cons_of_some, List.map_cons, List.map_cons, ← ih]
      simp [spell, hne]

/-- A conjunction without parentheses is written from the texts of its parts. -/
theorem conjunction_spell (ts : List (Option Term)) :
    conjunction (ts.map spell) = spell (conjoin? ts.reduceOption) := by
  unfold conjunction
  rw [filter_map_spell]
  cases ts.reduceOption with
  | nil => simp [conjoin?, spell]
  | cons t ts => simp [conjoin?, spell, text_conjoin]

/-- A group is written from the texts of its parts. -/
theorem joined_spell {op : Operator} (hop : op = .and ∨ op = .or) (ts : List (Option Term)) :
    joined op (ts.map spell) = spell (grouped? op ts.reduceOption) := by
  unfold joined
  rw [filter_map_spell]
  -- Parentheses stand around two parts or more.
  match ts.reduceOption with
  | [] => rfl
  | [t] => rfl
  | t :: u :: us =>
    have hgroup : ∀ p : Predicate, (Term.primary (.group p)).text = "(" ++ p.text ++ ")" := by
      intro p
      rw [← String.toList_inj]
      simp [Term.text, Term.lexemes, Primary.lexemes, Predicate.source_lexemes, Token.text]
    rcases hop with rfl | rfl
    · have hterm : (Predicate.term (conjoin t (u :: us))).text = (conjoin t (u :: us)).text := rfl
      simp only [List.map_cons, grouped?, spell, Option.map_some, Option.getD_some, hgroup]
      rw [if_neg (by decide), hterm, text_conjoin]
      rfl
    · simp only [List.map_cons, grouped?, spell, Option.map_some, Option.getD_some, hgroup]
      rw [if_true, text_disjoin]
      rfl

/-! ## Predicates -/

/-- Terms that are all there are all kept. -/
theorem reduceOption_map_some {α β : Type} (f : α → β) (l : List α) :
    (l.map fun a => some (f a)).reduceOption = l.map f := by
  simp [List.reduceOption, List.filterMap_map]

/-- The renderer writes the term of a field, or fails with its first fault. -/
theorem fieldPredicate_eq (f : FieldFilter) :
    fieldPredicate f =
      succeedUnless (f.comparisons.findSome? fault?) (spell (fieldTerm? f)) := by
  have hmap : f.condition.comparisons.mapM (fun p => comparison f.field p.1 p.2) =
      succeedUnless (f.comparisons.findSome? fault?)
        (f.comparisons.map fun c => (testOf c).text) := by
    have hcomparison : ∀ p : Operator × Operand, comparison f.field p.1 p.2 =
        succeedUnless (fault? ⟨f.field, p.1, p.2⟩) (testOf ⟨f.field, p.1, p.2⟩).text :=
      fun p => comparison_eq ⟨f.field, p.1, p.2⟩
    rw [mapM_succeedUnless hcomparison]
    simp [FieldFilter.comparisons, List.findSome?_map, Function.comp_def]
  have hterms : f.comparisons.map (fun c => (testOf c).text) =
      (f.comparisons.map fun c => some (comparisonTerm c)).map spell := by
    simp [spell, comparisonTerm, Term.text, Term.lexemes, Primary.lexemes, Test.text]
  show (f.condition.comparisons.mapM (fun p => comparison f.field p.1 p.2) >>= fun texts =>
    pure (joined .and texts)) = _
  unfold fieldTerm?
  rw [hmap, map_succeedUnless, hterms, joined_spell (.inl rfl), reduceOption_map_some]

mutual
/-- The renderer writes the term of a filter, or fails with its first fault. -/
theorem predicate_eq (f : Filter) :
    predicate f = succeedUnless (f.comparisons.findSome? fault?) (spell (filterTerm? f)) := by
  cases f with
  | fields entries =>
    rw [predicate, mapM_succeedUnless fieldPredicate_eq, map_succeedUnless, filterTerm?,
      ← conjunction_spell, List.map_map, Filter.comparisons, findSome?_flatMap]
    rfl
  | group conj disj =>
    rw [predicate, groupPredicate_eq .and (.inl rfl) conj, groupPredicate_eq .or (.inr rfl) disj,
      filterTerm?, ← conjunction_spell, Filter.comparisons, List.findSome?_append]
    exact bind_succeedUnless (map_succeedUnless _ _ _)

/-- The renderer writes the term of one list of a group, or fails with its first fault. -/
theorem groupPredicate_eq (op : Operator) (hop : op = .and ∨ op = .or)
    (filters : Option (List Filter)) :
    groupPredicate op filters =
      succeedUnless ((Filter.groupComparisons filters).findSome? fault?)
        (spell (groupTerm? op filters)) := by
  cases filters with
  | none => rfl
  | some filters =>
    rw [groupPredicate, predicates_eq filters, map_succeedUnless, groupTerm?, ← joined_spell hop,
      Filter.groupComparisons]

/-- The renderer writes the terms of the filters of a list, or fails with the first fault. -/
theorem predicates_eq (filters : List Filter) :
    predicates filters =
      succeedUnless ((Filter.listComparisons filters).findSome? fault?)
        ((listTerms filters).map spell) := by
  cases filters with
  | nil => rfl
  | cons f rest =>
    rw [predicates, predicate_eq f, predicates_eq rest, Filter.listComparisons,
      List.findSome?_append]
    exact bind_succeedUnless (map_succeedUnless _ _ _)
end

/-! ## The tests of a filter -/

/-- The tests of a term, if there is one. -/
def termTests (t : Option Term) : List (String × Test) :=
  (t.map Term.tests).getD []

/-- The tests of two terms with `AND` between them. -/
theorem Term.tests_append (t u : Term) : (t.append u).tests = t.tests ++ u.tests := by
  fun_induction Term.append t u with
  | case1 u p => rfl
  | case2 u p rest ih => rw [Term.tests, ih, Term.tests, List.append_assoc]

/-- The tests of terms joined by `AND`. -/
theorem tests_conjoin (t : Term) (ts : List Term) :
    (conjoin t ts).tests = (t :: ts).flatMap Term.tests := by
  induction ts generalizing t with
  | nil => simp [conjoin]
  | cons u us ih => rw [conjoin, Term.tests_append, ih, ← List.flatMap_cons]

/-- The tests of terms joined by `OR`. -/
theorem tests_disjoin (t : Term) (ts : List Term) :
    (disjoin t ts).tests = (t :: ts).flatMap Term.tests := by
  induction ts generalizing t with
  | nil => simp [disjoin, Predicate.tests]
  | cons u us ih => rw [disjoin, Predicate.tests, ih, ← List.flatMap_cons]

/-- The tests of the terms that there are, among those that there may be. -/
theorem tests_reduceOption (ts : List (Option Term)) :
    ts.reduceOption.flatMap Term.tests = ts.flatMap termTests := by
  induction ts with
  | nil => rfl
  | cons t ts ih =>
    rw [List.flatMap_cons, ← ih]
    cases t with
    | none => rw [List.reduceOption_cons_of_none]; rfl
    | some t => rw [List.reduceOption_cons_of_some]; rfl

/-- A conjunction without parentheses has the tests of its parts. -/
theorem termTests_conjoin? (ts : List (Option Term)) :
    termTests (conjoin? ts.reduceOption) = ts.flatMap termTests := by
  rw [← tests_reduceOption]
  cases ts.reduceOption with
  | nil => rfl
  | cons t ts => exact tests_conjoin t ts

/-- A group has the tests of its parts. -/
theorem termTests_grouped? (op : Operator) (ts : List (Option Term)) :
    termTests (grouped? op ts.reduceOption) = ts.flatMap termTests := by
  rw [← tests_reduceOption]
  match ts.reduceOption with
  | [] => rfl
  | [t] => simp [grouped?, termTests]
  | t :: u :: us =>
    by_cases hop : op = .or
    · simp only [grouped?, hop, if_true]
      exact tests_disjoin t (u :: us)
    · simp only [grouped?, hop, if_false]
      exact tests_conjoin t (u :: us)

/-- The test for a comparison, with its text. -/
def writtenTest (c : Comparison) : String × Test :=
  ((testOf c).text, testOf c)

/-- The term of a field has a test for each of its comparisons, in order. -/
theorem termTests_fieldTerm? (f : FieldFilter) :
    termTests (fieldTerm? f) = f.comparisons.map writtenTest := by
  rw [fieldTerm?, ← reduceOption_map_some, termTests_grouped?, List.flatMap_map,
    List.map_eq_flatMap]
  rfl

mutual
/-- The term of a filter has a test for each of its comparisons, in order. -/
theorem termTests_filterTerm? (f : Filter) :
    termTests (filterTerm? f) = f.comparisons.map writtenTest := by
  cases f with
  | fields entries =>
    rw [filterTerm?, termTests_conjoin?, List.flatMap_map, Filter.comparisons, List.map_flatMap]
    exact congrArg (List.flatMap · entries) (funext termTests_fieldTerm?)
  | group conj disj =>
    rw [filterTerm?, termTests_conjoin?, Filter.comparisons, List.map_append,
      ← termTests_groupTerm? .and conj, ← termTests_groupTerm? .or disj]
    simp

/-- The term of one list of a group has a test for each of its comparisons, in order. -/
theorem termTests_groupTerm? (op : Operator) (filters : Option (List Filter)) :
    termTests (groupTerm? op filters) = (Filter.groupComparisons filters).map writtenTest := by
  cases filters with
  | none => rfl
  | some filters =>
    rw [groupTerm?, termTests_grouped?, Filter.groupComparisons]
    exact tests_listTerms filters

/-- The terms of the filters of a list have a test for each of their comparisons, in order. -/
theorem tests_listTerms (filters : List Filter) :
    (listTerms filters).flatMap termTests =
      (Filter.listComparisons filters).map writtenTest := by
  cases filters with
  | nil => rfl
  | cons f rest =>
    rw [listTerms, Filter.listComparisons, List.map_append, List.flatMap_cons,
      termTests_filterTerm? f, tests_listTerms rest]
end

/-- The literal for a scalar can be written. -/
theorem isValid_literalOf (v : Scalar) : (literalOf v).isValid = true := by
  cases v with
  | number n => exact n.isNumeral_toText
  | _ => rfl

/-- The test for a comparison without fault can be written. -/
theorem isValid_testOf {c : Comparison} (h : fault? c = none) : (testOf c).isValid = true := by
  obtain ⟨field, op, operand⟩ := c
  have hlist : ∀ values : List Scalar, (Relation.among (values.map literalOf)).isValid = true :=
    fun values => by simp [Relation.isValid, isValid_literalOf]
  have hone : ∀ (op : Operator) (v : Scalar), op.isLogical = false → op ≠ .member →
      (Relation.compare op (literalOf v)).isValid = true := fun op v hop hmember => by
    simp [Relation.isValid, isValid_literalOf, hop, hmember]
  unfold fault? at h
  by_cases hfield : isFieldPath field = true
  · simp only [hfield, Bool.not_true, Bool.false_eq_true, if_false] at h
    rw [Test.isValid, Bool.and_eq_true]
    refine ⟨hfield, ?_⟩
    -- The relation follows `relationOf`: lists, then nulls, then single values.
    cases operand with
    | many values => exact hlist values
    | one v =>
      cases op with
      | member => exact hlist [v]
      | and | or => simp [Operator.isLogical] at h
      | eq =>
        cases v with
        | null => rfl
        | _ => exact hone .eq _ rfl (by decide)
      | ne =>
        cases v with
        | null => rfl
        | _ => exact hone .ne _ rfl (by decide)
      | gt | gte | lt | lte => exact hone _ v rfl (by simp)
  · simp [hfield] at h

/-- The tests of a filter without fault are written. -/
theorem allWritten_termTests {f : Filter} (h : f.comparisons.findSome? fault? = none) :
    AllWritten (termTests (filterTerm? f)) := by
  rw [termTests_filterTerm?]
  intro p hp
  obtain ⟨c, hc, rfl⟩ := List.mem_map.1 hp
  exact ⟨rfl, isValid_testOf (List.findSome?_eq_none_iff.1 h c hc)⟩

end FindSelect.Sql
