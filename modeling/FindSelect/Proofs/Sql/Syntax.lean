import FindSelect.Proofs.NumberText
import FindSelect.Proofs.Sql.Lexer

/-!
# The grammar of SQL predicates

A predicate is one term or several with `OR` between them, a term is one primary or several with
`AND` between them, and a primary is a predicate in parentheses or a single test of a field. So
`AND` binds tighter than `OR`. `read?` reads a text by this grammar, and `Predicate.value` is the
truth value of what was read, given those of the tests. Which symbol compares in which way is part
of the grammar (`comparisonSymbols`), and does not depend on how the renderer spells operators.
-/

namespace FindSelect.Sql

/-- A literal in a test. A number is kept as it is written. -/
inductive Literal where
  /-- The null value. -/
  | null
  /-- A truth value. -/
  | bool (value : Bool)
  /-- A number. -/
  | number (text : String)
  /-- A string. -/
  | string (content : String)
deriving DecidableEq, Repr

/-- What a test says of its field. -/
inductive Relation where
  /-- The field compares with a literal, by a comparison symbol. -/
  | compare (op : Operator) (value : Literal)
  /-- The field is one of the listed literals. -/
  | among (values : List Literal)
  /-- The field is null. -/
  | isNull
  /-- The field is not null. -/
  | isNotNull
deriving DecidableEq, Repr

/-- A test of a field. -/
structure Test where
  /-- The name of the field. -/
  field : String
  /-- What is said of it. -/
  relation : Relation
deriving DecidableEq, Repr

mutual
/-- A predicate. -/
inductive Predicate where
  /-- A term alone. -/
  | term (t : Term)
  /-- A term, `OR`, and a predicate. -/
  | or (t : Term) (rest : Predicate)

/-- A term. -/
inductive Term where
  /-- A primary alone. -/
  | primary (p : Primary)
  /-- A primary, `AND`, and a term. -/
  | and (p : Primary) (rest : Term)

/-- A primary. -/
inductive Primary where
  /-- A test, with the text that it was read from. -/
  | test (text : String) (t : Test)
  /-- A predicate in parentheses. -/
  | group (p : Predicate)
end

/-! ## Reading -/

/-- The comparison symbols, each with the operator that it writes. -/
def comparisonSymbols : List (String × Operator) :=
  [("=", .eq), ("!=", .ne), (">", .gt), (">=", .gte), ("<", .lt), ("<=", .lte)]

/-- The operator that a comparison symbol writes. -/
def symbolOperator? (text : String) : Option Operator :=
  (comparisonSymbols.find? fun p => p.1 = text).map Prod.snd

/-- The literal that a token writes. -/
def literal? : Token → Option Literal
  | .word text =>
    if text = "NULL" then some .null
    else if text = "TRUE" then some (.bool true)
    else if text = "FALSE" then some (.bool false)
    else if isNumeral text then some (.number text)
    else none
  | .string content => some (.string content)
  | _ => none

/-- The further literals of a list, each behind a comma, and what follows the list. -/
def furtherLiterals? : List Lexeme → Option (List Literal × List Lexeme)
  | ⟨_, .mark ')'⟩ :: rest => some ([], rest)
  | ⟨_, .mark ','⟩ :: l :: rest => do
    let value ← literal? l.token
    let (values, rest) ← furtherLiterals? rest
    return (value :: values, rest)
  | _ => none

/-- The literals of a list, given what follows its opening parenthesis, and what follows the
list. -/
def literals? : List Lexeme → Option (List Literal × List Lexeme)
  | ⟨_, .mark ')'⟩ :: rest => some ([], rest)
  | l :: rest => do
    let value ← literal? l.token
    let (values, rest) ← furtherLiterals? rest
    return (value :: values, rest)
  | [] => none

/-- What is said of a field whose name has been read, and what follows that. -/
def relation? : List Lexeme → Option (Relation × List Lexeme)
  | ⟨_, .symbol text⟩ :: l :: rest => do
    let op ← symbolOperator? text
    let value ← literal? l.token
    return (.compare op value, rest)
  | ⟨_, .word "IN"⟩ :: ⟨_, .mark '('⟩ :: rest => do
    let (values, rest) ← literals? rest
    return (.among values, rest)
  | ⟨_, .word "IS"⟩ :: ⟨_, .word "NULL"⟩ :: rest => some (.isNull, rest)
  | ⟨_, .word "IS"⟩ :: ⟨_, .word "NOT"⟩ :: ⟨_, .word "NULL"⟩ :: rest => some (.isNotNull, rest)
  | _ => none

/-- The test at the start of a text, with its own text, and what follows it. -/
def test? : List Lexeme → Option (Primary × List Lexeme)
  | ⟨_, .word field⟩ :: rest =>
    if isFieldPath field then do
      let (relation, rest') ← relation? rest
      let text := source (⟨[], .word field⟩ :: rest.take (rest.length - rest'.length))
      return (.test (String.ofList text) ⟨field, relation⟩, rest')
    else none
  | _ => none

mutual
/-- The predicate at the start of a text, and what follows it. The number bounds how deep the
reading may go. -/
def predicate? : Nat → List Lexeme → Option (Predicate × List Lexeme)
  | 0, _ => none
  | n + 1, ls => do
    match ← term? n ls with
    | (t, ⟨_, .word "OR"⟩ :: rest) =>
      let (p, rest) ← predicate? n rest
      return (.or t p, rest)
    | (t, rest) => return (.term t, rest)

/-- The term at the start of a text, and what follows it. -/
def term? : Nat → List Lexeme → Option (Term × List Lexeme)
  | 0, _ => none
  | n + 1, ls => do
    match ← primary? n ls with
    | (p, ⟨_, .word "AND"⟩ :: rest) =>
      let (t, rest) ← term? n rest
      return (.and p t, rest)
    | (p, rest) => return (.primary p, rest)

/-- The primary at the start of a text, and what follows it. -/
def primary? : Nat → List Lexeme → Option (Primary × List Lexeme)
  | 0, _ => none
  | n + 1, ⟨_, .mark '('⟩ :: rest => do
    match ← predicate? n rest with
    | (p, ⟨_, .mark ')'⟩ :: rest) => return (.group p, rest)
    | _ => none
  | _ + 1, ls => test? ls
end

/-- The predicate that a text writes. Every token takes part in it, and at most three steps of the
reading go by without a token, so the bound is never reached. -/
def read? (text : String) : Option Predicate := do
  let ls ← lexemes text.toList
  match ← predicate? (3 * ls.length) ls with
  | (p, []) => return p
  | _ => none

/-! ## Truth -/

mutual
/-- The truth value of a predicate, given those of the texts of its tests. -/
def Predicate.value (σ : String → Bool) : Predicate → Bool
  | .term t => t.value σ
  | .or t rest => t.value σ || rest.value σ

/-- The truth value of a term. -/
def Term.value (σ : String → Bool) : Term → Bool
  | .primary p => p.value σ
  | .and p rest => p.value σ && rest.value σ

/-- The truth value of a primary. -/
def Primary.value (σ : String → Bool) : Primary → Bool
  | .test text _ => σ text
  | .group p => p.value σ
end

end FindSelect.Sql
