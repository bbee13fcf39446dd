import FindSelect.Proofs.Masking
import FindSelect.Proofs.Sql.Statement

/-!
# Values and names stay in their places

Whatever the strings of a query hold, in the statement for it each of them is one string token, and
every other token is fixed by the rest of the query. Words are keywords, numbers or names of the
query, and names are field paths (`Token.BelongsTo`); the only semicolon is the last token.

The arguments go through the tests of a term: besides their tokens a term has connectives and
parentheses only. `render_confines` puts the parts together.
-/

namespace FindSelect.Sql

/-! ## Words and marks -/

/-- The words of statements that are neither names nor numbers. -/
def keywords : List String :=
  ["SELECT", "*", "FROM", "WHERE", "AND", "OR", "IN", "IS", "NOT", "NULL", "TRUE", "FALSE"]

/-- Whether a token may stand before the semicolon of a statement that has the given names. -/
def Token.BelongsTo (names : List String) : Token → Prop
  | .word w => w ∈ keywords ∨ isNumeral w = true ∨ w ∈ names
  | .mark c => c ≠ ';'
  | .symbol _ | .string _ => True

/-- The names that a query has: of its collection, of the wanted fields and of the compared ones. -/
def queryNames (q : Query) : List String :=
  q.collection :: wantedNames q ++ q.filter.comparisons.map Comparison.field

/-- A keyword belongs to every statement. -/
theorem belongsTo_keyword (names : List String) {w : String} (hw : w ∈ keywords) :
    (Token.word w).BelongsTo names :=
  .inl hw

/-- A mark other than the semicolon belongs to every statement. -/
theorem belongsTo_mark (names : List String) {c : Char} (hc : c ≠ ';') :
    (Token.mark c).BelongsTo names :=
  hc

mutual
/-- The tokens of a predicate belong to a statement if those of its tests do. -/
theorem Predicate.belongsTo {names : List String} (p : Predicate) (gap : List Char)
    (hp : ∀ t ∈ p.tests, ∀ gap, ∀ l ∈ t.2.lexemes gap, l.token.BelongsTo names) :
    ∀ l ∈ p.lexemes gap, l.token.BelongsTo names := by
  cases p with
  | term t => exact t.belongsTo gap hp
  | or t rest =>
    rw [Predicate.tests, List.forall_mem_append] at hp
    rw [Predicate.lexemes, List.forall_mem_append, List.forall_mem_cons]
    have hor := belongsTo_keyword names (w := "OR") (by decide)
    exact ⟨t.belongsTo gap hp.1, hor, rest.belongsTo [' '] hp.2⟩

/-- The tokens of a term belong to a statement if those of its tests do. -/
theorem Term.belongsTo {names : List String} (t : Term) (gap : List Char)
    (ht : ∀ u ∈ t.tests, ∀ gap, ∀ l ∈ u.2.lexemes gap, l.token.BelongsTo names) :
    ∀ l ∈ t.lexemes gap, l.token.BelongsTo names := by
  cases t with
  | primary p => exact p.belongsTo gap ht
  | and p rest =>
    rw [Term.tests, List.forall_mem_append] at ht
    rw [Term.lexemes, List.forall_mem_append, List.forall_mem_cons]
    have hand := belongsTo_keyword names (w := "AND") (by decide)
    exact ⟨p.belongsTo gap ht.1, hand, rest.belongsTo [' '] ht.2⟩

/-- The tokens of a primary belong to a statement if those of its tests do. -/
theorem Primary.belongsTo {names : List String} (p : Primary) (gap : List Char)
    (hp : ∀ t ∈ p.tests, ∀ gap, ∀ l ∈ t.2.lexemes gap, l.token.BelongsTo names) :
    ∀ l ∈ p.lexemes gap, l.token.BelongsTo names := by
  cases p with
  | test text t => exact hp (text, t) (by simp [Primary.tests]) gap
  | group p =>
    rw [Primary.lexemes, List.forall_mem_cons, List.forall_mem_append, List.forall_mem_singleton]
    exact ⟨belongsTo_mark names (by decide), p.belongsTo [] hp, belongsTo_mark names (by decide)⟩
end

/-- The literal of a scalar belongs to every statement. -/
theorem belongsTo_literalOf (names : List String) (v : Scalar) :
    (literalOf v).token.BelongsTo names := by
  cases v with
  | null => exact .inl (by decide)
  | bool b => cases b <;> exact .inl (by decide)
  | number n => exact .inr (.inl n.isNumeral_toText)
  | string s => trivial

/-- The literals of a list of scalars belong to every statement. -/
theorem belongsTo_listLexemes (names : List String) (values : List Scalar) :
    ∀ l ∈ listLexemes (values.map literalOf), l.token.BelongsTo names := by
  cases values with
  | nil => simp [listLexemes]
  | cons v values =>
    rw [List.map_cons, listLexemes, List.forall_mem_cons]
    refine ⟨belongsTo_literalOf names v, fun l hl => ?_⟩
    obtain ⟨w, hw, hl⟩ := List.mem_flatMap.1 hl
    obtain ⟨value, -, rfl⟩ := List.mem_map.1 hw
    rcases List.mem_pair.1 hl with rfl | rfl
    · exact belongsTo_mark names (by decide)
    · exact belongsTo_literalOf names value

/-- What a comparison says of its field belongs to every statement. -/
theorem belongsTo_relationOf (names : List String) (op : Operator) (operand : Operand) :
    ∀ l ∈ (relationOf op operand).lexemes, l.token.BelongsTo names := by
  have hamong : ∀ values : List Scalar,
      ∀ l ∈ (Relation.among (values.map literalOf)).lexemes, l.token.BelongsTo names := by
    intro values
    rw [Relation.lexemes, List.forall_mem_cons, List.forall_mem_cons, List.forall_mem_append,
      List.forall_mem_singleton]
    exact ⟨belongsTo_keyword names (by decide), belongsTo_mark names (by decide),
      belongsTo_listLexemes names values, belongsTo_mark names (by decide)⟩
  have his := belongsTo_keyword names (w := "IS") (by decide)
  have hnot := belongsTo_keyword names (w := "NOT") (by decide)
  have hnull := belongsTo_keyword names (w := "NULL") (by decide)
  fun_cases relationOf op operand with
  | case1 op values => exact hamong values
  | case2 v => exact hamong [v]
  | case3 => simp [Relation.lexemes, his, hnull]
  | case4 => simp [Relation.lexemes, his, hnot, hnull]
  | case5 op v =>
    rw [Relation.lexemes, List.forall_mem_cons, List.forall_mem_singleton]
    exact ⟨trivial, belongsTo_literalOf names v⟩

/-- The columns belong to a statement that has their names. -/
theorem belongsTo_columnLexemes {names columns : List String} (h : columns ⊆ names) :
    ∀ l ∈ columnLexemes columns, l.token.BelongsTo names := by
  cases columns with
  | nil => simpa [columnLexemes] using belongsTo_keyword names (w := "*") (by decide)
  | cons name columns =>
    rw [List.cons_subset] at h
    rw [columnLexemes, List.forall_mem_cons]
    refine ⟨.inr (.inr h.1), fun l hl => ?_⟩
    obtain ⟨n, hn, hl⟩ := List.mem_flatMap.1 hl
    rcases List.mem_pair.1 hl with rfl | rfl
    · exact belongsTo_mark names (by decide)
    · exact .inr (.inr (h.2 hn))

/-- The condition of a filter belongs to a statement that has the names of its fields. -/
theorem belongsTo_whereLexemes {names : List String} {f : Filter}
    (h : f.comparisons.map Comparison.field ⊆ names) :
    ∀ l ∈ whereLexemes (filterTerm? f), l.token.BelongsTo names := by
  have htests := termTests_filterTerm? f
  cases ht : filterTerm? f with
  | none => simp [whereLexemes]
  | some t =>
    rw [whereLexemes, List.forall_mem_cons]
    refine ⟨belongsTo_keyword names (by decide), t.belongsTo [' '] fun u hu gap => ?_⟩
    -- Every test of the condition comes from a comparison of the filter.
    have hmem : u ∈ f.comparisons.map writtenTest := by
      rw [← htests, ht]
      exact hu
    obtain ⟨c, hc, rfl⟩ := List.mem_map.1 hmem
    refine List.forall_mem_cons.2 ⟨.inr (.inr ?_), belongsTo_relationOf names c.op c.operand⟩
    exact h (List.mem_map_of_mem hc)

/-- The tokens before the semicolon are keywords, numbers, names of the query, strings, symbols and
other marks. -/
theorem belongsTo_bodyLexemes (q : Query) :
    ∀ l ∈ bodyLexemes q, l.token.BelongsTo (queryNames q) := by
  have hcolumns : wantedNames q ⊆ queryNames q := fun n hn => by simp [queryNames, hn]
  have hfields : q.filter.comparisons.map Comparison.field ⊆ queryNames q :=
    fun n hn => List.mem_append_right _ hn
  have hcollection : q.collection ∈ queryNames q := by simp [queryNames]
  rw [bodyLexemes, List.forall_mem_cons, List.forall_mem_append, List.forall_mem_cons,
    List.forall_mem_cons]
  exact ⟨belongsTo_keyword _ (by decide), belongsTo_columnLexemes hcolumns,
    belongsTo_keyword _ (by decide), .inr (.inr hcollection), belongsTo_whereLexemes hfields⟩

/-! ## Strings -/

/-- The content of a string token. -/
def Token.content? : Token → Option String
  | .string s => some s
  | _ => none

/-- The contents of the string tokens, in order. -/
def contents (ls : List Lexeme) : List String :=
  ls.filterMap fun l => l.token.content?

@[simp] theorem contents_nil : contents [] = [] := rfl

@[simp] theorem contents_append (ls ms : List Lexeme) :
    contents (ls ++ ms) = contents ls ++ contents ms :=
  List.filterMap_append

/-- A token that is not a string has no content. -/
@[simp] theorem contents_word (gap : List Char) (w : String) (ls : List Lexeme) :
    contents (⟨gap, .word w⟩ :: ls) = contents ls := rfl

@[simp] theorem contents_symbol (gap : List Char) (w : String) (ls : List Lexeme) :
    contents (⟨gap, .symbol w⟩ :: ls) = contents ls := rfl

@[simp] theorem contents_mark (gap : List Char) (c : Char) (ls : List Lexeme) :
    contents (⟨gap, .mark c⟩ :: ls) = contents ls := rfl

/-- The literal of a string holds it, and the others hold none. -/
@[simp] theorem contents_literal (gap : List Char) (v : Scalar) (ls : List Lexeme) :
    contents (⟨gap, (literalOf v).token⟩ :: ls) = v.content?.toList ++ contents ls := by
  cases v with
  | bool b => cases b <;> rfl
  | _ => rfl

/-- The further literals of a list hold the strings of the scalars. -/
theorem contents_furtherLexemes (values : List Scalar) :
    contents (furtherLexemes (values.map literalOf)) = values.filterMap Scalar.content? := by
  induction values with
  | nil => rfl
  | cons v values ih =>
    have hcons : furtherLexemes ((v :: values).map literalOf) = ⟨[], .mark ','⟩ ::
        ⟨[' '], (literalOf v).token⟩ :: furtherLexemes (values.map literalOf) := rfl
    rw [hcons, contents_mark, contents_literal, ih, List.filterMap_cons]
    cases v.content? <;> rfl

/-- The test for a comparison holds the strings of its operand. -/
theorem contents_relationOf (op : Operator) (operand : Operand) :
    contents (relationOf op operand).lexemes = operand.strings := by
  have hlist : ∀ values : List Scalar,
      contents (listLexemes (values.map literalOf)) = values.filterMap Scalar.content? := by
    intro values
    cases values with
    | nil => rfl
    | cons v values =>
      rw [List.map_cons, listLexemes, contents_literal, contents_furtherLexemes,
        List.filterMap_cons]
      cases v.content? <;> rfl
  fun_cases relationOf op operand with
  | case1 op values => simp [Relation.lexemes, hlist, Operand.strings]
  | case2 v =>
    have hone := hlist [v]
    rw [List.map_singleton] at hone
    simp only [Relation.lexemes, contents_word, contents_mark, contents_append, hone,
      contents_nil, List.append_nil, Operand.strings]
    cases hv : v.content? <;> simp [hv]
  | case3 => rfl
  | case4 => rfl
  | case5 op v => simp [Relation.lexemes, Operand.strings]

mutual
/-- The strings of a predicate are those of its tests. -/
theorem Predicate.contents_lexemes (p : Predicate) (gap : List Char) :
    contents (p.lexemes gap) = p.tests.flatMap fun t => contents t.2.relation.lexemes := by
  cases p with
  | term t => exact t.contents_lexemes gap
  | or t rest =>
    rw [Predicate.lexemes, Predicate.tests, contents_append, contents_word, List.flatMap_append,
      t.contents_lexemes gap, rest.contents_lexemes [' ']]

/-- The strings of a term are those of its tests. -/
theorem Term.contents_lexemes (t : Term) (gap : List Char) :
    contents (t.lexemes gap) = t.tests.flatMap fun u => contents u.2.relation.lexemes := by
  cases t with
  | primary p => exact p.contents_lexemes gap
  | and p rest =>
    rw [Term.lexemes, Term.tests, contents_append, contents_word, List.flatMap_append,
      p.contents_lexemes gap, rest.contents_lexemes [' ']]

/-- The strings of a primary are those of its tests. -/
theorem Primary.contents_lexemes (p : Primary) (gap : List Char) :
    contents (p.lexemes gap) = p.tests.flatMap fun t => contents t.2.relation.lexemes := by
  cases p with
  | test text t => simp [Primary.lexemes, Primary.tests, Test.lexemes]
  | group p =>
    rw [Primary.lexemes, contents_mark, contents_append, p.contents_lexemes [], contents_mark,
      contents_nil, List.append_nil]
    rfl
end

/-- The strings of a condition are those of the filter. -/
theorem contents_whereLexemes (f : Filter) :
    contents (whereLexemes (filterTerm? f)) = f.strings := by
  have hterm : contents (whereLexemes (filterTerm? f)) =
      (termTests (filterTerm? f)).flatMap fun t => contents t.2.relation.lexemes := by
    cases filterTerm? f with
    | none => rfl
    | some t => exact t.contents_lexemes [' ']
  rw [hterm, termTests_filterTerm?, List.flatMap_map]
  exact congrArg (List.flatMap · f.comparisons)
    (funext fun c => contents_relationOf c.op c.operand)

/-- Columns hold no strings. -/
theorem contents_columnLexemes (names : List String) : contents (columnLexemes names) = [] := by
  cases names with
  | nil => rfl
  | cons name names =>
    rw [columnLexemes, contents_word]
    induction names with
    | nil => rfl
    | cons n names ih => rwa [List.flatMap_cons, contents_append]

/-- The string tokens of a statement are the strings of the filter, in order. -/
theorem contents_statementLexemes (q : Query) :
    contents (statementLexemes q) = q.filter.strings := by
  simp [statementLexemes, bodyLexemes, contents_columnLexemes, contents_whereLexemes]

/-! ## Everything else -/

/-- A lexeme, a string without its content. -/
def Lexeme.masked (l : Lexeme) : Lexeme :=
  match l.token with
  | .string _ => ⟨l.gap, .string ""⟩
  | _ => l

/-- A literal, a string without its content. -/
def Literal.masked : Literal → Literal
  | string _ => string ""
  | v => v

/-- What a test says of its field, strings without their contents. -/
def Relation.masked : Relation → Relation
  | compare op value => compare op value.masked
  | among values => among (values.map Literal.masked)
  | r => r

/-- A test, strings without their contents. -/
def Test.masked (t : Test) : Test :=
  ⟨t.field, t.relation.masked⟩

mutual
/-- A predicate, strings without their contents. -/
def Predicate.masked : Predicate → Predicate
  | .term t => .term t.masked
  | .or t rest => .or t.masked rest.masked

/-- A term, strings without their contents. -/
def Term.masked : Term → Term
  | .primary p => .primary p.masked
  | .and p rest => .and p.masked rest.masked

/-- A primary, strings without their contents. -/
def Primary.masked : Primary → Primary
  | .test _ t => .test t.masked.text t.masked
  | .group p => .group p.masked
end

/-- Masking a literal masks its token. -/
theorem Literal.token_masked (v : Literal) (gap : List Char) :
    (⟨gap, v.masked.token⟩ : Lexeme) = Lexeme.masked ⟨gap, v.token⟩ := by
  cases v with
  | bool b => cases b <;> rfl
  | _ => rfl

/-- Masking literals masks their tokens. -/
theorem furtherLexemes_masked (values : List Literal) :
    furtherLexemes (values.map Literal.masked) = (furtherLexemes values).map Lexeme.masked := by
  unfold furtherLexemes
  rw [List.flatMap_map, List.map_flatMap]
  refine congrArg (List.flatMap · values) (funext fun v => ?_)
  rw [v.token_masked]
  rfl

/-- Masking what is said of a field masks its tokens. -/
theorem Relation.lexemes_masked (r : Relation) :
    r.masked.lexemes = r.lexemes.map Lexeme.masked := by
  cases r with
  | compare op v =>
    rw [Relation.masked, Relation.lexemes, v.token_masked]
    rfl
  | among values =>
    have hlist : listLexemes (values.map Literal.masked) =
        (listLexemes values).map Lexeme.masked := by
      cases values with
      | nil => rfl
      | cons v values =>
        rw [List.map_cons, listLexemes, furtherLexemes_masked, v.token_masked]
        rfl
    rw [Relation.masked, Relation.lexemes, hlist, Relation.lexemes, List.map_cons, List.map_cons,
      List.map_append]
    rfl
  | isNull => rfl
  | isNotNull => rfl

mutual
/-- Masking a predicate masks its tokens. -/
theorem Predicate.lexemes_masked (p : Predicate) (gap : List Char) :
    p.masked.lexemes gap = (p.lexemes gap).map Lexeme.masked := by
  cases p with
  | term t => exact t.lexemes_masked gap
  | or t rest =>
    rw [Predicate.masked, Predicate.lexemes, t.lexemes_masked, rest.lexemes_masked,
      Predicate.lexemes, List.map_append]
    rfl

/-- Masking a term masks its tokens. -/
theorem Term.lexemes_masked (t : Term) (gap : List Char) :
    t.masked.lexemes gap = (t.lexemes gap).map Lexeme.masked := by
  cases t with
  | primary p => exact p.lexemes_masked gap
  | and p rest =>
    rw [Term.masked, Term.lexemes, p.lexemes_masked, rest.lexemes_masked, Term.lexemes,
      List.map_append]
    rfl

/-- Masking a primary masks its tokens. -/
theorem Primary.lexemes_masked (p : Primary) (gap : List Char) :
    p.masked.lexemes gap = (p.lexemes gap).map Lexeme.masked := by
  cases p with
  | test text t =>
    rw [Primary.masked, Primary.lexemes, Test.lexemes, Test.masked, t.relation.lexemes_masked]
    rfl
  | group p =>
    rw [Primary.masked, Primary.lexemes, p.lexemes_masked, Primary.lexemes, List.map_cons,
      List.map_append]
    rfl
end

/-- Masking two terms with `AND` between them masks both. -/
theorem Term.masked_append (t u : Term) : (t.append u).masked = t.masked.append u.masked := by
  fun_induction Term.append t u with
  | case1 u p => rfl
  | case2 u p rest ih => rw [Term.masked, ih, Term.masked, Term.append]

/-- Masking terms with `AND` between them masks each of them. -/
theorem masked_conjoin (t : Term) (ts : List Term) :
    (conjoin t ts).masked = conjoin t.masked (ts.map Term.masked) := by
  induction ts generalizing t with
  | nil => rfl
  | cons u us ih => rw [conjoin, Term.masked_append, ih, List.map_cons, conjoin]

/-- Masking terms with `OR` between them masks each of them. -/
theorem masked_disjoin (t : Term) (ts : List Term) :
    (disjoin t ts).masked = disjoin t.masked (ts.map Term.masked) := by
  induction ts generalizing t with
  | nil => rfl
  | cons u us ih => rw [disjoin, Predicate.masked, ih, List.map_cons, disjoin]

/-- Masking a conjunction masks each of its parts. -/
theorem map_masked_conjoin? (ts : List (Option Term)) :
    (conjoin? ts.reduceOption).map Term.masked =
      conjoin? (ts.map (Option.map Term.masked)).reduceOption := by
  rw [List.reduceOption_map]
  cases ts.reduceOption with
  | nil => rfl
  | cons t ts => exact congrArg some (masked_conjoin t ts)

/-- Masking a group masks each of its parts. -/
theorem map_masked_grouped? (op : Operator) (ts : List Term) :
    (grouped? op ts).map Term.masked = grouped? op (ts.map Term.masked) := by
  match ts with
  | [] => rfl
  | [t] => rfl
  | t :: u :: us =>
    simp only [grouped?, List.map_cons, Option.map_some, Term.masked, Primary.masked]
    by_cases hop : op = .or
    · rw [if_pos hop, if_pos hop, masked_disjoin, List.map_cons]
    · rw [if_neg hop, if_neg hop, Predicate.masked, masked_conjoin, List.map_cons]

/-- The literal of a masked scalar. -/
theorem literalOf_masked (v : Scalar) : literalOf v.masked = (literalOf v).masked := by
  cases v <;> rfl

/-- Masking an operand masks what the comparison says. -/
theorem relationOf_masked (op : Operator) (operand : Operand) :
    relationOf op operand.masked = (relationOf op operand).masked := by
  cases operand with
  | many values =>
    simp [Operand.masked, relationOf, Relation.masked, Function.comp_def, literalOf_masked]
  | one v => cases op <;> cases v <;> rfl

/-- The term of a masked comparison. -/
theorem comparisonTerm_masked (c : Comparison) :
    comparisonTerm c.masked = (comparisonTerm c).masked := by
  have htest : testOf c.masked = (testOf c).masked := by
    rw [testOf, Comparison.masked, relationOf_masked]
    rfl
  rw [comparisonTerm, htest]
  rfl

/-- The term of a masked field. -/
theorem fieldTerm?_masked (f : FieldFilter) :
    fieldTerm? f.masked = (fieldTerm? f).map Term.masked := by
  rw [fieldTerm?, fieldTerm?, map_masked_grouped?, f.comparisons_masked, List.map_map, List.map_map]
  exact congrArg (fun g => grouped? .and (f.comparisons.map g)) (funext comparisonTerm_masked)

mutual
/-- The term of a masked filter. -/
theorem filterTerm?_masked (f : Filter) :
    filterTerm? f.masked = (filterTerm? f).map Term.masked := by
  cases f with
  | fields entries =>
    rw [Filter.masked, filterTerm?, filterTerm?, map_masked_conjoin?, List.map_map, List.map_map]
    exact congrArg (fun g => conjoin? (entries.map g).reduceOption) (funext fieldTerm?_masked)
  | group conj disj =>
    rw [Filter.masked, filterTerm?, filterTerm?, map_masked_conjoin?, groupTerm?_masked .and conj,
      groupTerm?_masked .or disj]
    rfl

/-- The term of one masked list of a group. -/
theorem groupTerm?_masked (op : Operator) (filters : Option (List Filter)) :
    groupTerm? op (Filter.maskedGroup filters) = (groupTerm? op filters).map Term.masked := by
  cases filters with
  | none => rfl
  | some filters =>
    rw [Filter.maskedGroup, groupTerm?, groupTerm?, listTerms_masked filters, map_masked_grouped?,
      List.reduceOption_map]

/-- The terms of a masked list of filters. -/
theorem listTerms_masked (filters : List Filter) :
    listTerms (Filter.maskedList filters) = (listTerms filters).map (Option.map Term.masked) := by
  cases filters with
  | nil => rfl
  | cons f rest =>
    rw [Filter.maskedList, listTerms, listTerms, filterTerm?_masked f, listTerms_masked rest]
    rfl
end

/-- Masking a query masks the tokens of its statement. -/
theorem statementLexemes_masked (q : Query) :
    statementLexemes q.masked = (statementLexemes q).map Lexeme.masked := by
  have hcolumns : (columnLexemes (wantedNames q)).map Lexeme.masked =
      columnLexemes (wantedNames q) := by
    cases wantedNames q with
    | nil => rfl
    | cons name names => simp [columnLexemes, Lexeme.masked, List.map_flatMap]
  have hwhere : (whereLexemes (filterTerm? q.filter)).map Lexeme.masked =
      whereLexemes (filterTerm? q.masked.filter) := by
    rw [Query.masked, filterTerm?_masked]
    cases filterTerm? q.filter with
    | none => rfl
    | some t =>
      rw [Option.map_some, whereLexemes, whereLexemes, t.lexemes_masked]
      rfl
  unfold statementLexemes bodyLexemes
  rw [List.map_append, List.map_cons, List.map_append, List.map_cons, List.map_cons, hcolumns,
    hwhere]
  rfl

/-- Masking a query does not change its fault. -/
theorem queryFault?_masked (q : Query) : queryFault? q.masked = queryFault? q := by
  have hfault : ∀ c : Comparison, fault? c.masked = fault? c := by
    rintro ⟨field, op, operand⟩
    cases operand <;> cases op <;> rfl
  unfold queryFault?
  rw [show q.masked.filter = q.filter.masked from rfl, Filter.comparisons_masked,
    List.findSome?_map, show fault? ∘ Comparison.masked = fault? from funext hfault]
  rfl

/-- The statement for a query has the tokens that the query asks for. Before the semicolon at its
end there are only keywords, numbers, names of the query, which are field paths, and string tokens,
which hold the strings of the filter in order. A query that differs in the contents of its strings
alone has a statement too, whose tokens differ in the contents of the string tokens alone. -/
theorem render_confines {q : Query} {sql : String} (h : render q = .ok sql) :
    lexemes sql.toList = some (statementLexemes q) ∧
    source (statementLexemes q) = sql.toList ∧
    (∀ l ∈ bodyLexemes q, l.token.BelongsTo (queryNames q) ∧ l.token ≠ .mark ';') ∧
    (∀ name ∈ queryNames q, isFieldPath name = true) ∧
    contents (statementLexemes q) = q.filter.strings ∧
    ∀ q' : Query, q'.masked = q.masked → ∃ sql', render q' = .ok sql' ∧
      lexemes sql'.toList = some (statementLexemes q') ∧
      (statementLexemes q').map Lexeme.masked = (statementLexemes q).map Lexeme.masked := by
  rw [render_eq, succeedUnless_eq_ok] at h
  obtain ⟨hfault, rfl⟩ := h
  obtain ⟨-, hnames, hcomparisons⟩ := queryFault?_eq_none.1 hfault
  refine ⟨lexemes_statement hfault, (String.toList_ofList).symm, fun l hl => ?_,
    fun name hname => ?_, contents_statementLexemes q, fun q' hq => ?_⟩
  · have hbelongs := belongsTo_bodyLexemes q l hl
    refine ⟨hbelongs, fun hmark => ?_⟩
    rw [hmark] at hbelongs
    exact hbelongs rfl
  · rcases List.mem_append.1 hname with hname | hname
    · exact hnames name hname
    · obtain ⟨c, hc, rfl⟩ := List.mem_map.1 hname
      have hvalid := isValid_testOf (hcomparisons c hc)
      rw [Test.isValid, Bool.and_eq_true] at hvalid
      exact hvalid.1
  · -- Faults and tokens, as far as they are not strings, can be told from the masked query.
    have hfault' : queryFault? q' = none := by
      rw [← queryFault?_masked, hq, queryFault?_masked, hfault]
    refine ⟨statement q', ?_, lexemes_statement hfault', ?_⟩
    · rw [render_eq, hfault']
      rfl
    · rw [← statementLexemes_masked, hq, statementLexemes_masked]

/-- A query for the documents of `users` with the given name. -/
def namedUsers (name : String) : Query where
  collection := "users"
  method := .find
  filter := .fields [⟨"name", .equals (.one (.string name))⟩]
  projection := some ["name", "address.city"]

/-- A name with a quote, a semicolon and keywords is one string token, in the place of the empty
name. -/
theorem render_confines_namedUsers :
    render (namedUsers "x'; DROP TABLE users; --") =
      .ok "SELECT name, address.city FROM users WHERE name = 'x''; DROP TABLE users; --';" ∧
    contents (statementLexemes (namedUsers "x'; DROP TABLE users; --")) =
      ["x'; DROP TABLE users; --"] ∧
    ∃ sql, render (namedUsers "") = .ok sql ∧
      lexemes sql.toList = some (statementLexemes (namedUsers "")) ∧
      (statementLexemes (namedUsers "")).map Lexeme.masked =
        (statementLexemes (namedUsers "x'; DROP TABLE users; --")).map Lexeme.masked := by
  have hrender : render (namedUsers "x'; DROP TABLE users; --") =
      .ok "SELECT name, address.city FROM users WHERE name = 'x''; DROP TABLE users; --';" := by
    decide +kernel
  obtain ⟨-, -, -, -, hstrings, hmasked⟩ := render_confines hrender
  exact ⟨hrender, hstrings, hmasked (namedUsers "") rfl⟩

end FindSelect.Sql
