import FindSelect.Proofs.Sql.Disjunction
import FindSelect.Proofs.Sql.Statement

/-!
# Every comparison of a filter is tested once, in order

Two predicates can mean the same and still test different things, or the same things in another
order. `predicate_keeps_comparisons` says that the tests which are read from the predicate of a
filter, from left to right, are those for the comparisons of the filter: none is lost, none comes
twice that did not come twice in the filter, and the order is that in which the filter is gone
through. So nothing is written for a filter exactly when it has no comparison at any depth, and the
statement then has no condition.

A statement is read by `condition?`, which goes by the commas between the columns and not by the
words: a column or a collection may well be called `FROM` or `WHERE`.
-/

namespace FindSelect.Sql

/-! ## Reading tests -/

/-- The tests that are read from a text, from left to right. The empty text has none. -/
def testsIn? (text : String) : Option (List Test) :=
  if text = "" then some [] else (read? text).map fun p => p.tests.map Prod.snd

/-- What follows the columns of a statement. -/
def behindColumns? : List Lexeme → Option (List Lexeme)
  | ⟨_, .word _⟩ :: ⟨_, .mark ','⟩ :: rest => behindColumns? rest
  | ⟨_, .word _⟩ :: rest => some rest
  | _ => none

/-- The condition that follows the collection of a statement: none if the statement ends there, and
otherwise a predicate behind `WHERE`. -/
def behindCollection? : List Lexeme → Option (Option Predicate)
  | [⟨_, .mark ';'⟩] => some none
  | ⟨_, .word "WHERE"⟩ :: rest => do
    match ← predicate? (3 * rest.length) rest with
    | (p, [⟨_, .mark ';'⟩]) => return some p
    | _ => none
  | _ => none

/-- The condition of a statement. A text that is not a statement is not read at all. -/
def condition? (sql : String) : Option (Option Predicate) := do
  match ← lexemes sql.toList with
  | ⟨_, .word "SELECT"⟩ :: rest =>
    match ← behindColumns? rest with
    | ⟨_, .word "FROM"⟩ :: ⟨_, .word _⟩ :: rest => behindCollection? rest
    | _ => none
  | _ => none

/-! ## What is read from what is written -/

/-- The columns of a statement end before a word. -/
theorem behindColumns?_columnLexemes (names : List String) (gap : List Char) (w : String)
    (rest : List Lexeme) :
    behindColumns? (columnLexemes names ++ ⟨gap, .word w⟩ :: rest) =
      some (⟨gap, .word w⟩ :: rest) := by
  cases names with
  | nil => rfl
  | cons name names =>
    induction names generalizing name with
    | nil => rfl
    | cons n names ih => exact ih n

/-- The condition that is written behind a collection is read. -/
theorem behindCollection?_whereLexemes {t : Option Term} (ht : AllWritten (termTests t)) :
    behindCollection? (whereLexemes t ++ [⟨[], .mark ';'⟩]) = some (t.map Predicate.term) := by
  cases t with
  | none => rfl
  | some t =>
    let semicolon : Lexeme := ⟨[], .mark ';'⟩
    have hread := predicate?_lexemes (.term t) [' '] [semicolon]
      (3 * (t.lexemes [' '] ++ [semicolon]).length) ht
      (by rw [Predicate.lexemes, List.length_append]; omega) rfl rfl
    rw [Predicate.lexemes] at hread
    rw [whereLexemes, List.cons_append, behindCollection?, hread]
    rfl

/-- The condition of the statement for a query is the term of its filter. -/
theorem condition?_statement {q : Query} (h : queryFault? q = none) :
    condition? (statement q) = some ((filterTerm? q.filter).map Predicate.term) := by
  have hwritten := allWritten_termTests
    (List.findSome?_eq_none_iff.2 (queryFault?_eq_none.1 h).2.2)
  have hcolumns := behindColumns?_columnLexemes (wantedNames q) [' '] "FROM"
    (⟨[' '], .word q.collection⟩ ::
      (whereLexemes (filterTerm? q.filter) ++ [⟨[], .mark ';'⟩]))
  have hcondition := behindCollection?_whereLexemes hwritten
  unfold condition?
  rw [lexemes_statement h, statementLexemes, bodyLexemes]
  simp only [Option.bind_eq_bind, Option.bind_some, List.cons_append, List.append_assoc, hcolumns,
    hcondition]

/-- The text of a term without faults is read as that term, and the empty text is not read. -/
theorem read?_spell {t : Option Term} (ht : AllWritten (termTests t)) :
    read? (spell t) = t.map Predicate.term := by
  cases t with
  | none =>
    -- No lexeme is found, so the bound of the reading is zero.
    have hlexemes : lexemes (spell none).toList = some [] := lexemes_source .nil
    unfold read?
    rw [hlexemes]
    rfl
  | some t => exact read?_text (.term t) ht

/-- The tests in the text of a term are those of the term. -/
theorem testsIn?_spell {t : Option Term} (ht : AllWritten (termTests t)) :
    testsIn? (spell t) = some ((termTests t).map Prod.snd) := by
  unfold testsIn?
  rw [read?_spell ht]
  cases t with
  | none => rfl
  | some t => exact if_neg t.text_ne_empty

/-! ## The main result -/

/-- The tests that are read from the predicate of a filter are those for its comparisons, one for
each and in order: a single value behind `IN` is a list of one, and null is tested by `IS NULL` and
`IS NOT NULL`. The predicate is empty exactly when the filter has no comparison. A statement with
this filter has the predicate as its condition, and it has no condition exactly when the filter has
no comparison. -/
theorem predicate_keeps_comparisons {f : Filter} {text : String} (h : predicate f = .ok text) :
    testsIn? text = some (f.comparisons.map testOf) ∧
    (text = "" ↔ f.comparisons = []) ∧
    ∀ (q : Query) (sql : String), q.filter = f → render q = .ok sql →
      condition? sql = some (read? text) ∧
      (condition? sql = some none ↔ f.comparisons = []) := by
  rw [predicate_eq, succeedUnless_eq_ok] at h
  obtain ⟨hfault, rfl⟩ := h
  have hwritten := allWritten_termTests hfault
  have hnone : filterTerm? f = none ↔ f.comparisons = [] :=
    filterTerm?_eq_none.trans Filter.hasComparison_eq_false
  refine ⟨?_, ?_, ?_⟩
  · rw [testsIn?_spell hwritten, termTests_filterTerm?, List.map_map]
    rfl
  · rw [← hnone]
    cases filterTerm? f with
    | none => exact iff_of_true rfl rfl
    | some t => exact iff_of_false t.text_ne_empty (Option.some_ne_none t)
  · rintro q sql rfl hrender
    rw [render_eq, succeedUnless_eq_ok] at hrender
    obtain ⟨hquery, rfl⟩ := hrender
    rw [condition?_statement hquery, read?_spell hwritten, ← hnone]
    exact ⟨rfl, by rw [Option.some.injEq, Option.map_eq_none_iff]⟩

/-- A filter that has a comparison twice, names that are words of SQL, a single value and no value
behind `IN`, null under both operators, and parts without comparisons. -/
def wordyFilter : Filter :=
  .group
    (some [.fields [⟨"AND", ⟨[(.eq, .one .null), (.ne, .one .null)]⟩⟩, ⟨"x", .empty⟩],
      .anyOf [.fields [], .allOf []], .fields [⟨"AND", ⟨[(.eq, .one .null)]⟩⟩]])
    (some [.fields [⟨"a.b", ⟨[(.member, .one (.string "' OR AND = '"))]⟩⟩],
      .fields [⟨"OR", ⟨[(.member, .many []), (.lt, .one (.bool true))]⟩⟩]])

/-- The predicate of `wordyFilter`. -/
def wordyText : String :=
  "((AND IS NULL AND AND IS NOT NULL) AND AND IS NULL) AND " ++
    "(a.b IN (''' OR AND = ''') OR (OR IN () AND OR < TRUE))"

/-- The comparisons of `wordyFilter` are tested in order, also in the statement of a query on a
collection that is called `WHERE`. -/
theorem predicate_keeps_comparisons_wordyFilter :
    testsIn? wordyText =
      some [⟨"AND", .isNull⟩, ⟨"AND", .isNotNull⟩, ⟨"AND", .isNull⟩,
        ⟨"a.b", .among [.string "' OR AND = '"]⟩, ⟨"OR", .among []⟩,
        ⟨"OR", .compare .lt (.bool true)⟩] ∧
    condition? ("SELECT FROM, x FROM WHERE WHERE " ++ wordyText ++ ";") = some (read? wordyText) ∧
    condition? ("SELECT FROM, x FROM WHERE WHERE " ++ wordyText ++ ";") ≠ some none := by
  have hpredicate : predicate wordyFilter = .ok wordyText := by decide +kernel
  obtain ⟨htests, -, hstatement⟩ := predicate_keeps_comparisons hpredicate
  obtain ⟨hcondition, hnone⟩ := hstatement ⟨"WHERE", .find, wordyFilter, some ["FROM", "x"]⟩
    ("SELECT FROM, x FROM WHERE WHERE " ++ wordyText ++ ";") rfl (by decide +kernel)
  have hsome : wordyFilter.comparisons ≠ [] := by decide +kernel
  exact ⟨htests, hcondition, fun h => hsome (hnone.1 h)⟩

end FindSelect.Sql
