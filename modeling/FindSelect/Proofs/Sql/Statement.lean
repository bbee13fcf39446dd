import FindSelect.Proofs.Sql.Rendering

/-!
# Statements

`statementLexemes` lists the tokens that the statement for a query has to have, with the blanks
between them. `render_eq` says that the renderer writes these tokens, unless the query cannot be
expressed, and then fails with the first fault: of the method, of the collection, of the wanted
fields, of the comparisons. `lexemes_statement` says that the lexer of SQL finds exactly these
tokens in what is written.
-/

namespace FindSelect.Sql

/-- The wanted columns: the given names, or `*` if there are none. -/
def columnLexemes : List String → List Lexeme
  | [] => [⟨[' '], .word "*"⟩]
  | name :: names =>
    ⟨[' '], .word name⟩ :: names.flatMap fun n => [⟨[], .mark ','⟩, ⟨[' '], .word n⟩]

/-- The condition of a statement, if it has one. -/
def whereLexemes : Option Term → List Lexeme
  | none => []
  | some t => ⟨[' '], .word "WHERE"⟩ :: t.lexemes [' ']

/-- The fields that a query wants by name. -/
def wantedNames (q : Query) : List String :=
  q.projection.getD []

/-- A statement without its semicolon. -/
def bodyLexemes (q : Query) : List Lexeme :=
  ⟨[], .word "SELECT"⟩ :: (columnLexemes (wantedNames q) ++
    ⟨[' '], .word "FROM"⟩ :: ⟨[' '], .word q.collection⟩ :: whereLexemes (filterTerm? q.filter))

/-- The statement for a query. -/
def statementLexemes (q : Query) : List Lexeme :=
  bodyLexemes q ++ [⟨[], .mark ';'⟩]

/-- Why a name cannot be written, if it cannot. -/
def nameFault? (name : String) : Option Error :=
  if isFieldPath name then none else some (.invalidCondition name .notAFieldPath)

/-- Why a method cannot be expressed, if it cannot. -/
def methodFault? (m : Method) : Option Error :=
  if m = .find then none else some (.unsupportedMethod displayName m.name)

/-- Why a query cannot be expressed, if it cannot: its first fault. -/
def queryFault? (q : Query) : Option Error :=
  (methodFault? q.method).or
    (((q.collection :: wantedNames q).findSome? nameFault?).or
      (q.filter.comparisons.findSome? fault?))

/-! ## What is rendered -/

/-- A name is accepted unless it cannot be written. -/
theorem checkName_eq (name : String) : checkName name = succeedUnless (nameFault? name) () := by
  unfold checkName nameFault?
  split <;> rfl

/-- Names are accepted unless one of them cannot be written. -/
theorem forM_checkName (names : List String) :
    names.forM checkName = succeedUnless (names.findSome? nameFault?) () := by
  induction names with
  | nil => rfl
  | cons name names ih =>
    show (checkName name >>= fun _ => names.forM checkName) = _
    rw [checkName_eq, findSome?_cons_or]
    exact bind_succeedUnless ih

/-- The text of the wanted columns, behind the blank before them. -/
def columnText (names : List String) : String :=
  String.ofList ((source (columnLexemes names)).drop 1)

/-- The columns are written unless one of their names cannot be. -/
theorem columns_eq (projection : Option (List String)) :
    columns projection =
      succeedUnless ((projection.getD []).findSome? nameFault?)
        (columnText (projection.getD [])) := by
  match projection with
  | none => rfl
  | some [] => rfl
  | some (name :: names) =>
    have htext : ", ".intercalate (name :: names) = columnText (name :: names) := by
      rw [← String.toList_inj, String.toList_intercalate, List.map_cons, Text.intercalate_cons]
      unfold columnText
      rw [String.toList_ofList, columnLexemes, source_cons]
      simp [source, List.flatMap_map, List.flatMap_assoc, Token.text]
    rw [columns, forM_checkName, htext]
    · exact map_succeedUnless _ () _
    · simp

/-- The columns stand behind a blank. -/
theorem source_columnLexemes (names : List String) :
    source (columnLexemes names) = ' ' :: (columnText names).toList := by
  unfold columnText
  rw [String.toList_ofList]
  cases names with
  | nil => rfl
  | cons name names => rfl

/-- The text of a statement. -/
def statement (q : Query) : String :=
  String.ofList (source (statementLexemes q))

/-- A statement without a condition ends behind the collection. -/
theorem statement_eq_of_none {q : Query} (h : filterTerm? q.filter = none) :
    statement q = "SELECT " ++ columnText (wantedNames q) ++ " FROM " ++ q.collection ++ ";" := by
  rw [← String.toList_inj]
  simp [statement, statementLexemes, bodyLexemes, whereLexemes, h, source_columnLexemes, Token.text]

/-- The condition of a statement stands behind the collection. -/
theorem statement_eq_of_some {q : Query} {t : Term} (h : filterTerm? q.filter = some t) :
    statement q = "SELECT " ++ columnText (wantedNames q) ++ " FROM " ++ q.collection ++
      " WHERE " ++ t.text ++ ";" := by
  rw [← String.toList_inj]
  simp [statement, statementLexemes, bodyLexemes, whereLexemes, h, source_columnLexemes, Token.text,
    Term.source_lexemes]

/-- Once the names are accepted, the statement is written unless a comparison has a fault. -/
theorem condition_eq (q : Query) :
    (predicate q.filter >>= fun condition =>
      if condition = "" then
        pure ("SELECT " ++ columnText (wantedNames q) ++ " FROM " ++ q.collection ++ ";")
      else
        pure ("SELECT " ++ columnText (wantedNames q) ++ " FROM " ++ q.collection ++
          " WHERE " ++ condition ++ ";")) =
      succeedUnless (q.filter.comparisons.findSome? fault?) (statement q) := by
  rw [predicate_eq]
  cases q.filter.comparisons.findSome? fault? with
  | some e => rfl
  | none =>
    cases ht : filterTerm? q.filter with
    | none =>
      rw [statement_eq_of_none ht]
      rfl
    | some t =>
      rw [statement_eq_of_some ht]
      exact if_neg t.text_ne_empty

/-- A query is rendered unless it has a fault, and then the first one is reported. -/
theorem render_eq (q : Query) : render q = succeedUnless (queryFault? q) (statement q) := by
  unfold render queryFault?
  by_cases hm : q.method = .find
  · -- The checks of the collection, the columns and the condition come in this order.
    have hmethod : methodFault? q.method = none := by simp [methodFault?, hm]
    have hnames := findSome?_cons_or nameFault? q.collection (wantedNames q)
    rw [hmethod, Option.none_or, hnames, Option.or_assoc, checkName_eq, columns_eq]
    simp only [hm, ne_eq, not_true_eq_false, if_false]
    exact bind_succeedUnless (bind_succeedUnless (condition_eq q))
  · have hmethod : methodFault? q.method = some (.unsupportedMethod displayName q.method.name) := by
      simp [methodFault?, hm]
    rw [hmethod, Option.some_or]
    simp only [ne_eq, hm, not_false_eq_true, if_true]
    rfl

/-! ## The tokens of a statement -/

/-- A query has no fault if its method is supported, the names of its collection and of the wanted
fields are field paths, and no comparison has a fault. -/
theorem queryFault?_eq_none {q : Query} :
    queryFault? q = none ↔ q.method = .find ∧
      (∀ name ∈ q.collection :: wantedNames q, isFieldPath name = true) ∧
      ∀ c ∈ q.filter.comparisons, fault? c = none := by
  have hname : ∀ name, nameFault? name = none ↔ isFieldPath name = true := by
    intro name
    unfold nameFault?
    split <;> simp_all
  have hmethod : methodFault? q.method = none ↔ q.method = .find := by
    unfold methodFault?
    split <;> simp_all
  unfold queryFault?
  rw [Option.or_eq_none_iff, Option.or_eq_none_iff, List.findSome?_eq_none_iff,
    List.findSome?_eq_none_iff, hmethod]
  simp only [hname]

/-- The columns are well spaced before a well spaced rest that stays apart from words. -/
theorem wellSpaced_columnLexemes {names : List String} {rest : List Lexeme}
    (hnames : ∀ name ∈ names, isFieldPath name = true) (hrest : WellSpaced rest)
    (hhead : ∀ l ∈ rest.head?, l.gap ≠ [] ∨ ∃ c, l.token = .mark c) :
    WellSpaced (columnLexemes names ++ rest) := by
  cases names with
  | nil => exact .cons_spaced (by decide) hrest hhead
  | cons name names =>
    rw [List.forall_mem_cons] at hnames
    induction names generalizing name with
    | nil => exact .cons_spaced (isValid_word_of_isFieldPath hnames.1) hrest hhead
    | cons n names ih =>
      rw [List.forall_mem_cons] at hnames
      have hfurther := ih n hnames.2
      refine .cons_spaced (isValid_word_of_isFieldPath hnames.1) ?_ (by simp)
      exact .cons rfl (by decide) hfurther (by simp [Lexeme.Apart])

/-- A condition whose tests can be written is well spaced before a semicolon. -/
theorem wellSpaced_whereLexemes {t : Option Term} (ht : AllWritten (termTests t)) :
    WellSpaced (whereLexemes t ++ [⟨[], .mark ';'⟩]) := by
  have hend : WellSpaced [⟨[], .mark ';'⟩] := .cons rfl (by decide) .nil (by simp)
  cases t with
  | none => exact hend
  | some t =>
    obtain ⟨token, tail, htail⟩ := t.lexemes_eq
    have hterm := (t.wellSpaced ht [' '] (by decide)).append hend (by simp [Lexeme.Apart])
    exact .cons_spaced (by decide) hterm (by simp [htail])

/-- The statement for a query without a fault is well spaced. -/
theorem wellSpaced_statementLexemes {q : Query} (h : queryFault? q = none) :
    WellSpaced (statementLexemes q) := by
  obtain ⟨-, hnames, hcomparisons⟩ := queryFault?_eq_none.1 h
  rw [List.forall_mem_cons] at hnames
  have hwhere := wellSpaced_whereLexemes
    (allWritten_termTests (List.findSome?_eq_none_iff.2 hcomparisons))
  have hcollection := hwhere.cons_spaced (isValid_word_of_isFieldPath hnames.1) (by
    cases filterTerm? q.filter <;> simp [whereLexemes])
  have hfrom := hcollection.cons_spaced (t := .word "FROM") (by decide) (by simp)
  have hcolumns := wellSpaced_columnLexemes hnames.2 hfrom (by simp)
  have hselect : WellSpaced (⟨[], .word "SELECT"⟩ :: _) := .cons rfl (by decide) hcolumns (by
    cases wantedNames q <;> simp [columnLexemes, Lexeme.Apart])
  unfold statementLexemes bodyLexemes
  simpa using hselect

/-- The lexer finds in a statement the tokens that the query asks for. -/
theorem lexemes_statement {q : Query} (h : queryFault? q = none) :
    lexemes (statement q).toList = some (statementLexemes q) := by
  unfold statement
  rw [String.toList_ofList]
  exact lexemes_source (wellSpaced_statementLexemes h)

end FindSelect.Sql
