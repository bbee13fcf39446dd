import FindSelect.Proofs.Sql.Syntax
import Mathlib.Tactic.IntervalCases

/-!
# How a predicate is written down

`Predicate.lexemes` writes a predicate with one blank around its connectives and operators.
`read?_text` says that reading undoes writing: the grammar finds in the text of a predicate that
predicate and no other, whatever the strings in it hold.
-/

namespace FindSelect.Sql

/-! ## Writing -/

/-- The token of a literal. -/
def Literal.token : Literal → Token
  | null => .word "NULL"
  | bool true => .word "TRUE"
  | bool false => .word "FALSE"
  | number text => .word text
  | string content => .string content

/-- Literals that follow another one in a list. -/
def furtherLexemes (values : List Literal) : List Lexeme :=
  values.flatMap fun v => [⟨[], .mark ','⟩, ⟨[' '], v.token⟩]

/-- The literals of a list, without the parentheses. -/
def listLexemes : List Literal → List Lexeme
  | [] => []
  | v :: values => ⟨[], v.token⟩ :: furtherLexemes values

/-- The comparison symbol that writes an operator. The operators that do not compare by a symbol
have none. -/
def comparisonSymbol (op : Operator) : String :=
  ((comparisonSymbols.find? fun p => p.2 = op).map Prod.fst).getD ""

/-- What is said of a field, behind its name. -/
def Relation.lexemes : Relation → List Lexeme
  | compare op value => [⟨[' '], .symbol (comparisonSymbol op)⟩, ⟨[' '], value.token⟩]
  | among values =>
    ⟨[' '], .word "IN"⟩ :: ⟨[' '], .mark '('⟩ :: (listLexemes values ++ [⟨[], .mark ')'⟩])
  | isNull => [⟨[' '], .word "IS"⟩, ⟨[' '], .word "NULL"⟩]
  | isNotNull => [⟨[' '], .word "IS"⟩, ⟨[' '], .word "NOT"⟩, ⟨[' '], .word "NULL"⟩]

/-- A test, with the given gap before it. -/
def Test.lexemes (gap : List Char) (t : Test) : List Lexeme :=
  ⟨gap, .word t.field⟩ :: t.relation.lexemes

/-- The text of a test. -/
def Test.text (t : Test) : String :=
  String.ofList (source (t.lexemes []))

mutual
/-- A predicate, with the given gap before it. -/
def Predicate.lexemes (gap : List Char) : Predicate → List Lexeme
  | .term t => t.lexemes gap
  | .or t rest => t.lexemes gap ++ ⟨[' '], .word "OR"⟩ :: rest.lexemes [' ']

/-- A term, with the given gap before it. -/
def Term.lexemes (gap : List Char) : Term → List Lexeme
  | .primary p => p.lexemes gap
  | .and p rest => p.lexemes gap ++ ⟨[' '], .word "AND"⟩ :: rest.lexemes [' ']

/-- A primary, with the given gap before it. -/
def Primary.lexemes (gap : List Char) : Primary → List Lexeme
  | .test _ t => t.lexemes gap
  | .group p => ⟨gap, .mark '('⟩ :: (p.lexemes [] ++ [⟨[], .mark ')'⟩])
end

mutual
/-- The tests of a predicate with their texts, in order. -/
def Predicate.tests : Predicate → List (String × Test)
  | .term t => t.tests
  | .or t rest => t.tests ++ rest.tests

/-- The tests of a term. -/
def Term.tests : Term → List (String × Test)
  | .primary p => p.tests
  | .and p rest => p.tests ++ rest.tests

/-- The tests of a primary. -/
def Primary.tests : Primary → List (String × Test)
  | .test text t => [(text, t)]
  | .group p => p.tests
end

/-! ## What can be written -/

/-- Whether a literal can be written: a number has to look like one. -/
def Literal.isValid : Literal → Bool
  | number text => isNumeral text
  | _ => true

/-- Whether what is said of a field can be written: a comparison needs a comparison symbol. -/
def Relation.isValid : Relation → Bool
  | compare op value => !op.isLogical && op != .member && value.isValid
  | among values => values.all Literal.isValid
  | _ => true

/-- Whether a test can be written: its field has to be a field path. -/
def Test.isValid (t : Test) : Bool :=
  isFieldPath t.field && t.relation.isValid

/-- Whether tests can be written and have the texts that are written. -/
def AllWritten (tests : List (String × Test)) : Prop :=
  ∀ p ∈ tests, p.1 = p.2.text ∧ p.2.isValid = true

/-- The tests of two lists are written exactly when those of each of them are. -/
theorem allWritten_append {ts us : List (String × Test)} :
    AllWritten (ts ++ us) ↔ AllWritten ts ∧ AllWritten us :=
  List.forall_mem_append

/-! ## Reading undoes writing -/

/-- A literal is read from its token. -/
theorem literal?_token {v : Literal} (h : v.isValid = true) : literal? v.token = some v := by
  cases v with
  | null => rfl
  | bool b => cases b <;> rfl
  | string content => rfl
  | number text =>
    -- A numeral is none of the keywords that are tried before it.
    have hkeyword : ∀ w, isNumeral w = false → text ≠ w := by
      rintro w hw rfl
      exact absurd h (by simp [Literal.isValid, hw])
    have hnumeral : isNumeral text = true := h
    simp [Literal.token, literal?, hkeyword "NULL" (by decide), hkeyword "TRUE" (by decide),
      hkeyword "FALSE" (by decide), hnumeral]

/-- The literals behind the first one are read up to the closing parenthesis. -/
theorem furtherLiterals?_lexemes {values : List Literal} (h : values.all Literal.isValid = true)
    (gap : List Char) (rest : List Lexeme) :
    furtherLiterals? (furtherLexemes values ++ ⟨gap, .mark ')'⟩ :: rest) = some (values, rest) := by
  induction values with
  | nil => simp [furtherLexemes, furtherLiterals?]
  | cons v values ih =>
    rw [List.all_cons, Bool.and_eq_true] at h
    have ih := ih h.2
    unfold furtherLexemes at ih ⊢
    simp [furtherLiterals?, literal?_token h.1, ih]

/-- The token of a literal is not a mark. -/
theorem Literal.token_ne_mark (v : Literal) (c : Char) : v.token ≠ .mark c := by
  cases v with
  | bool b => cases b <;> simp [Literal.token]
  | _ => simp [Literal.token]

/-- A list of literals is read up to its closing parenthesis. -/
theorem literals?_lexemes {values : List Literal} (h : values.all Literal.isValid = true)
    (gap : List Char) (rest : List Lexeme) :
    literals? (listLexemes values ++ ⟨gap, .mark ')'⟩ :: rest) = some (values, rest) := by
  cases values with
  | nil => simp [listLexemes, literals?]
  | cons v values =>
    rw [List.all_cons, Bool.and_eq_true] at h
    have hmark := v.token_ne_mark ')'
    rw [listLexemes, List.cons_append, literals?]
    · simp [literal?_token h.1, furtherLiterals?_lexemes h.2]
    · intro gap' heq
      rw [Lexeme.mk.injEq] at heq
      exact hmark heq.2

/-- An operator that compares by a symbol is in the table with its symbol. -/
theorem comparisonSymbol_mem {op : Operator} (h : (!op.isLogical && op != .member) = true) :
    (comparisonSymbol op, op) ∈ comparisonSymbols := by
  cases op with
  | eq | ne | gt | gte | lt | lte => decide
  | member | and | or => exact absurd h (by decide)

/-- An operator is read from its comparison symbol. -/
theorem symbolOperator?_comparisonSymbol {op : Operator}
    (h : (!op.isLogical && op != .member) = true) :
    symbolOperator? (comparisonSymbol op) = some op := by
  have htable : ∀ p ∈ comparisonSymbols, symbolOperator? p.1 = some p.2 := by decide
  exact htable _ (comparisonSymbol_mem h)

/-- What is said of a field is read behind its name. -/
theorem relation?_lexemes {r : Relation} (h : r.isValid = true) (rest : List Lexeme) :
    relation? (r.lexemes ++ rest) = some (r, rest) := by
  cases r with
  | compare op v =>
    rw [Relation.isValid, Bool.and_eq_true] at h
    simp [Relation.lexemes, relation?, symbolOperator?_comparisonSymbol h.1, literal?_token h.2]
  | among values => simp [Relation.lexemes, relation?, literals?_lexemes h]
  | isNull => rfl
  | isNotNull => rfl

/-- A test is read with the text that writes it. -/
theorem test?_lexemes {t : Test} (h : t.isValid = true) (gap : List Char) (rest : List Lexeme) :
    test? (t.lexemes gap ++ rest) = some (.test t.text t, rest) := by
  rw [Test.isValid, Bool.and_eq_true] at h
  -- The text of a test is cut out by the length of what follows it.
  have htake : (t.relation.lexemes ++ rest).take
      ((t.relation.lexemes ++ rest).length - rest.length) = t.relation.lexemes := by
    rw [List.length_append, Nat.add_sub_cancel, List.take_left]
  rw [Test.lexemes, List.cons_append, test?, if_pos h.1, relation?_lexemes h.2, Option.bind_eq_bind,
    Option.bind_some]
  simp only [htake]
  rfl

/-- The gap before a primary stands before its first token, and changes nothing else. -/
theorem Primary.lexemes_eq (p : Primary) :
    ∃ token tail, ∀ gap, p.lexemes gap = ⟨gap, token⟩ :: tail := by
  cases p with
  | test text t => exact ⟨.word t.field, t.relation.lexemes, fun gap => rfl⟩
  | group p => exact ⟨.mark '(', p.lexemes [] ++ [⟨[], .mark ')'⟩], fun gap => rfl⟩

/-- The gap before a term stands before its first token, and changes nothing else. -/
theorem Term.lexemes_eq (t : Term) :
    ∃ token tail, ∀ gap, t.lexemes gap = ⟨gap, token⟩ :: tail := by
  cases t with
  | primary p => exact p.lexemes_eq
  | and p t =>
    obtain ⟨token, tail, hp⟩ := p.lexemes_eq
    refine ⟨token, tail ++ ⟨[' '], .word "AND"⟩ :: t.lexemes [' '], fun gap => ?_⟩
    rw [Term.lexemes, hp, List.cons_append]

/-- The gap before a predicate stands before its first token, and changes nothing else. -/
theorem Predicate.lexemes_eq (p : Predicate) :
    ∃ token tail, ∀ gap, p.lexemes gap = ⟨gap, token⟩ :: tail := by
  cases p with
  | term t => exact t.lexemes_eq
  | or t p =>
    obtain ⟨token, tail, ht⟩ := t.lexemes_eq
    refine ⟨token, tail ++ ⟨[' '], .word "OR"⟩ :: p.lexemes [' '], fun gap => ?_⟩
    rw [Predicate.lexemes, ht, List.cons_append]

/-- Whether a list of lexemes starts with the given word. -/
def startsWith (w : String) (ls : List Lexeme) : Bool :=
  ls.head?.any fun l => l.token == .word w

mutual
/-- A predicate is read up to what follows it, if that is no connective. -/
theorem predicate?_lexemes (p : Predicate) (gap : List Char) (rest : List Lexeme) (n : Nat)
    (hp : AllWritten p.tests) (hn : 3 * (p.lexemes gap).length ≤ n)
    (hand : startsWith "AND" rest = false) (hor : startsWith "OR" rest = false) :
    predicate? n (p.lexemes gap ++ rest) = some (p, rest) := by
  -- Each level of the grammar takes a step of its own, so three steps go by for a token. A term is
  -- read one step later than the predicate, and a primary two, and their bounds leave out as many.
  obtain ⟨token, tail, hlexemes⟩ := p.lexemes_eq
  have hpos : 1 ≤ (p.lexemes gap).length := by rw [hlexemes, List.length_cons]; omega
  obtain ⟨n, rfl⟩ : ∃ m, n = m + 1 := ⟨n - 1, by omega⟩
  cases p with
  | term t =>
    rw [Predicate.lexemes] at hn ⊢
    rw [predicate?, term?_lexemes t gap rest n hp (by omega) hand, Option.bind_eq_bind,
      Option.bind_some]
    split
    · -- What follows is not `OR`.
      next heq =>
        rw [Prod.mk.injEq] at heq
        rw [heq.2] at hor
        exact absurd hor (by simp [startsWith])
    · next heq =>
        rw [Prod.mk.injEq] at heq
        rw [heq.1, heq.2]
        rfl
  | or t p =>
    rw [Predicate.tests, allWritten_append] at hp
    rw [Predicate.lexemes, List.length_append, List.length_cons] at hn
    rw [Predicate.lexemes, List.append_assoc, List.cons_append, predicate?,
      term?_lexemes t gap _ n hp.1 (by omega) (by simp [startsWith]), Option.bind_eq_bind,
      Option.bind_some]
    simp only [predicate?_lexemes p [' '] rest n hp.2 (by omega) hand hor]
    rfl

/-- A term is read up to what follows it, if that is no `AND`. -/
theorem term?_lexemes (t : Term) (gap : List Char) (rest : List Lexeme) (n : Nat)
    (ht : AllWritten t.tests) (hn : 3 * (t.lexemes gap).length ≤ n + 1)
    (hand : startsWith "AND" rest = false) :
    term? n (t.lexemes gap ++ rest) = some (t, rest) := by
  obtain ⟨token, tail, hlexemes⟩ := t.lexemes_eq
  have hpos : 1 ≤ (t.lexemes gap).length := by rw [hlexemes, List.length_cons]; omega
  obtain ⟨n, rfl⟩ : ∃ m, n = m + 1 := ⟨n - 1, by omega⟩
  cases t with
  | primary p =>
    rw [Term.lexemes] at hn ⊢
    rw [term?, primary?_lexemes p gap rest n ht (by omega), Option.bind_eq_bind, Option.bind_some]
    split
    · -- What follows is not `AND`.
      next heq =>
        rw [Prod.mk.injEq] at heq
        rw [heq.2] at hand
        exact absurd hand (by simp [startsWith])
    · next heq =>
        rw [Prod.mk.injEq] at heq
        rw [heq.1, heq.2]
        rfl
  | and p t =>
    rw [Term.tests, allWritten_append] at ht
    rw [Term.lexemes, List.length_append, List.length_cons] at hn
    rw [Term.lexemes, List.append_assoc, List.cons_append, term?,
      primary?_lexemes p gap _ n ht.1 (by omega), Option.bind_eq_bind, Option.bind_some]
    simp only [term?_lexemes t [' '] rest n ht.2 (by omega) hand]
    rfl

/-- A primary is read up to what follows it. -/
theorem primary?_lexemes (p : Primary) (gap : List Char) (rest : List Lexeme) (n : Nat)
    (hp : AllWritten p.tests) (hn : 3 * (p.lexemes gap).length ≤ n + 2) :
    primary? n (p.lexemes gap ++ rest) = some (p, rest) := by
  obtain ⟨token, tail, hlexemes⟩ := p.lexemes_eq
  have hpos : 1 ≤ (p.lexemes gap).length := by rw [hlexemes, List.length_cons]; omega
  obtain ⟨n, rfl⟩ : ∃ m, n = m + 1 := ⟨n - 1, by omega⟩
  cases p with
  | test text t =>
    obtain ⟨htext, hvalid⟩ : text = t.text ∧ t.isValid = true :=
      hp (text, t) (by simp [Primary.tests])
    rw [Primary.lexemes, Test.lexemes, List.cons_append, primary?]
    · rw [← List.cons_append, ← Test.lexemes, test?_lexemes hvalid, ← htext]
    · -- A test starts with a word, not with a parenthesis.
      intro gap' rest' heq
      simp at heq
  | group p =>
    rw [Primary.lexemes, List.length_cons, List.length_append] at hn
    rw [Primary.lexemes, List.cons_append, List.append_assoc, primary?,
      predicate?_lexemes p [] _ n hp (by omega) (by simp [startsWith]) (by simp [startsWith])]
    rfl
end

/-! ## Spacing -/

/-- A numeral character may stand in a bare word. -/
theorem isWordChar_of_isNumeralChar {c : Char} (h : isNumeralChar c = true) :
    isWordChar c = true := by
  simp only [isNumeralChar, Text.isAsciiDigit, Bool.or_eq_true, Bool.and_eq_true,
    decide_eq_true_eq, beq_iff_eq] at h
  rcases h with (((⟨hlow, hhigh⟩ | rfl) | rfl) | rfl) | rfl
  · -- The ten digits, one by one.
    have hlow : 48 ≤ c.toNat := hlow
    have hhigh : c.toNat ≤ 57 := hhigh
    rw [← Char.ofNat_toNat c]
    generalize c.toNat = n at hlow hhigh
    interval_cases n <;> decide
  all_goals decide

/-- The token of a literal can be found by the lexer. -/
theorem Literal.isValid_token {v : Literal} (h : v.isValid = true) : v.token.isValid = true := by
  cases v with
  | null => decide
  | bool b => cases b <;> decide
  | string content => rfl
  | number text =>
    rw [Literal.isValid, isNumeral, Bool.and_eq_true] at h
    simp only [Literal.token, Token.isValid, Bool.and_eq_true, List.all_eq_true]
    exact ⟨h.1, fun c hc => isWordChar_of_isNumeralChar (List.all_eq_true.1 h.2 c hc)⟩

/-- A lexeme with a gap, or a mark, stays apart from what stands before it. -/
theorem Lexeme.apart_of_boundary (l : Lexeme) {m : Lexeme}
    (h : m.gap ≠ [] ∨ ∃ c, m.token = .mark c) : l.Apart m :=
  h.elim .inl fun h => .inr (.inr h)

/-- A keyword between blanks is well spaced before a list that starts with a gap. -/
theorem WellSpaced.cons_spaced {t : Token} {ls : List Lexeme} (ht : t.isValid = true)
    (hls : WellSpaced ls) (hhead : ∀ l ∈ ls.head?, l.gap ≠ [] ∨ ∃ c, l.token = .mark c) :
    WellSpaced (⟨[' '], t⟩ :: ls) := by
  have hgap : [' '].all Text.isBlank = true := by decide
  exact .cons hgap ht hls fun l hl => Lexeme.apart_of_boundary _ (hhead l hl)

/-- The further literals of a list are well spaced up to its closing parenthesis. -/
theorem wellSpaced_furtherLexemes {values : List Literal}
    (h : values.all Literal.isValid = true) :
    WellSpaced (furtherLexemes values ++ [⟨[], .mark ')'⟩]) := by
  induction values with
  | nil => exact .cons rfl (by decide) .nil (by simp)
  | cons v values ih =>
    rw [List.all_cons, Bool.and_eq_true] at h
    have hv := WellSpaced.cons_spaced (Literal.isValid_token h.1) (ih h.2) (by
      cases values <;> simp [furtherLexemes])
    exact .cons rfl (by decide) hv (by simp [Lexeme.Apart])

/-- What is said of a field is well spaced, and starts with a gap. -/
theorem Relation.wellSpaced {r : Relation} (h : r.isValid = true) :
    WellSpaced r.lexemes ∧ ∀ l ∈ r.lexemes.head?, l.gap ≠ [] := by
  have hword : ∀ w : String, (Token.word w).isValid = true → WellSpaced [⟨[' '], .word w⟩] :=
    fun w hw => .cons_spaced hw .nil (by simp)
  cases r with
  | compare op v =>
    rw [Relation.isValid, Bool.and_eq_true] at h
    have htable : ∀ p ∈ comparisonSymbols, (Token.symbol p.1).isValid = true := by decide
    have hop := htable _ (comparisonSymbol_mem h.1)
    have hv : WellSpaced [⟨[' '], v.token⟩] :=
      .cons_spaced (Literal.isValid_token h.2) .nil (by simp)
    exact ⟨.cons_spaced hop hv (by simp), by simp [Relation.lexemes]⟩
  | among values =>
    refine ⟨.cons_spaced (by decide) (.cons (by decide) (by decide) ?_ (by simp [Lexeme.Apart]))
      (by simp), by simp [Relation.lexemes]⟩
    -- The first literal stands right behind the parenthesis, and the others behind commas.
    cases values with
    | nil => exact .cons rfl (by decide) .nil (by simp)
    | cons v values =>
      rw [Relation.isValid, List.all_cons, Bool.and_eq_true] at h
      refine .cons rfl (Literal.isValid_token h.1) (wellSpaced_furtherLexemes h.2) ?_
      cases values <;> simp [furtherLexemes, Lexeme.Apart]
  | isNull =>
    exact ⟨.cons_spaced (by decide) (hword _ (by decide)) (by simp), by simp [Relation.lexemes]⟩
  | isNotNull =>
    have hrest : WellSpaced [⟨[' '], .word "NOT"⟩, ⟨[' '], .word "NULL"⟩] :=
      .cons_spaced (by decide) (hword _ (by decide)) (by simp)
    exact ⟨.cons_spaced (by decide) hrest (by simp), by simp [Relation.lexemes]⟩

/-- A test is well spaced behind a blank gap. -/
theorem Test.wellSpaced {t : Test} (h : t.isValid = true) {gap : List Char}
    (hgap : gap.all Text.isBlank = true) : WellSpaced (t.lexemes gap) := by
  rw [Test.isValid, Bool.and_eq_true] at h
  obtain ⟨hrelation, hhead⟩ := Relation.wellSpaced h.2
  exact .cons hgap (isValid_word_of_isFieldPath h.1) hrelation fun l hl => .inl (hhead l hl)

/-- Two parts with a connective between them are well spaced. -/
theorem WellSpaced.connect {ls ms : List Lexeme} (hls : WellSpaced ls) {w : String}
    (hw : (Token.word w).isValid = true) (hms : WellSpaced ms)
    (hhead : ∃ token tail, ms = ⟨[' '], token⟩ :: tail) :
    WellSpaced (ls ++ ⟨[' '], .word w⟩ :: ms) := by
  obtain ⟨token, tail, rfl⟩ := hhead
  refine hls.append (.cons_spaced hw hms (by simp)) fun l _ m hm => ?_
  rw [List.head?_cons, Option.mem_some_iff] at hm
  exact .inl (by simp [← hm])

mutual
/-- A predicate is well spaced behind a blank gap. -/
theorem Predicate.wellSpaced (p : Predicate) (hp : AllWritten p.tests) (gap : List Char)
    (hgap : gap.all Text.isBlank = true) : WellSpaced (p.lexemes gap) := by
  cases p with
  | term t => exact t.wellSpaced hp gap hgap
  | or t p =>
    rw [Predicate.tests, allWritten_append] at hp
    obtain ⟨token, tail, hlexemes⟩ := p.lexemes_eq
    exact (t.wellSpaced hp.1 gap hgap).connect (by decide) (p.wellSpaced hp.2 [' '] (by decide))
      ⟨token, tail, hlexemes _⟩

/-- A term is well spaced behind a blank gap. -/
theorem Term.wellSpaced (t : Term) (ht : AllWritten t.tests) (gap : List Char)
    (hgap : gap.all Text.isBlank = true) : WellSpaced (t.lexemes gap) := by
  cases t with
  | primary p => exact p.wellSpaced ht gap hgap
  | and p t =>
    rw [Term.tests, allWritten_append] at ht
    obtain ⟨token, tail, hlexemes⟩ := t.lexemes_eq
    exact (p.wellSpaced ht.1 gap hgap).connect (by decide) (t.wellSpaced ht.2 [' '] (by decide))
      ⟨token, tail, hlexemes _⟩

/-- A primary is well spaced behind a blank gap. -/
theorem Primary.wellSpaced (p : Primary) (hp : AllWritten p.tests) (gap : List Char)
    (hgap : gap.all Text.isBlank = true) : WellSpaced (p.lexemes gap) := by
  cases p with
  | test text t => exact Test.wellSpaced (hp (text, t) (by simp [Primary.tests])).2 hgap
  | group p =>
    have hinner := p.wellSpaced hp [] rfl
    have hclosing : WellSpaced [⟨[], .mark ')'⟩] := .cons rfl (by decide) .nil (by simp)
    -- Both parentheses are marks, which stay apart from everything.
    exact .cons hgap rfl (hinner.append hclosing (by simp [Lexeme.Apart]))
      fun m _ => .inr (.inl ⟨'(', rfl⟩)
end

/-- The text of a predicate. -/
def Predicate.text (p : Predicate) : String :=
  String.ofList (source (p.lexemes []))

/-- A predicate whose tests are written is read from its text. -/
theorem read?_text (p : Predicate) (hp : AllWritten p.tests) : read? p.text = some p := by
  have hlexemes := lexemes_source (p.wellSpaced hp [] rfl)
  have hread := predicate?_lexemes p [] [] _ hp le_rfl rfl rfl
  rw [List.append_nil] at hread
  unfold read? Predicate.text
  rw [String.toList_ofList, hlexemes, Option.bind_eq_bind, Option.bind_some, hread]
  rfl

end FindSelect.Sql
