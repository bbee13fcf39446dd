import FindSelect.Proofs.Sql.Statement

/-!
# Which queries can be written in SQL

A query is expressible if it finds documents, its names are field paths, and each of its comparisons
is one that SQL has. `violations` lists all that stands against a query: its method, the names of
its collection and of the wanted fields, and what is wrong with its comparisons, in the order in
which the query is gone through. `render_stops_at_first_violation` says that a statement is written
for the expressible queries and for no others, and that of several violations the first one is
reported.

A comparison is looked at only as part of a condition, so the name of a field with an empty
condition can be anything.
-/

namespace FindSelect

/-- Whether a comparison can be written: it compares a field path, and it has a list only beside the
operator that takes one. -/
structure Comparison.Expressible (c : Comparison) : Prop where
  /-- The field is a field path. -/
  field : isFieldPath c.field = true
  /-- The operator compares. -/
  op : c.op.isLogical = false
  /-- A list of values stands beside the operator for lists. -/
  operand : ∀ values, c.operand = .many values → c.op = .member

/-- Whether a statement can be written for a query. -/
structure Query.Expressible (q : Query) : Prop where
  /-- The query finds documents. -/
  method : q.method = .find
  /-- The collection is a field path. -/
  collection : isFieldPath q.collection = true
  /-- The wanted fields are field paths. -/
  projection : ∀ names ∈ q.projection, ∀ name ∈ names, isFieldPath name = true
  /-- The comparisons of the filter can be written, at any depth. -/
  comparisons : ∀ c ∈ q.filter.comparisons, c.Expressible

namespace Sql

/-! ## Violations -/

/-- What can stand against a query. -/
inductive Violation where
  /-- The method is not one that finds documents. -/
  | method (m : Method)
  /-- A name is not a field path. -/
  | name (name : String)
  /-- A field is compared by an operator that joins filters. -/
  | logicalOperator (field : String) (op : Operator)
  /-- A field is compared with a list by an operator that takes a single value. -/
  | strayList (field : String) (op : Operator)

/-- The error that is reported for a violation. All but the first kind carry the name that they are
about. -/
def Violation.error : Violation → Error
  | method m => .unsupportedMethod displayName m.name
  | name n => .invalidCondition n .notAFieldPath
  | logicalOperator field op => .invalidCondition field (.logicalOperator op)
  | strayList field op => .invalidCondition field (.listOperand op)

/-- The violation by a name. -/
def nameViolations (name : String) : List Violation :=
  if isFieldPath name then [] else [.name name]

/-- The violations by the operator of a comparison. -/
def operatorViolations (c : Comparison) : List Violation :=
  if c.op.isLogical then [.logicalOperator c.field c.op] else []

/-- The violations by the operand of a comparison. -/
def operandViolations (c : Comparison) : List Violation :=
  match c.operand with
  | .one _ => []
  | .many _ => if c.op = .member then [] else [.strayList c.field c.op]

/-- The violations by a comparison: by its field, by its operator, by its operand. -/
def comparisonViolations (c : Comparison) : List Violation :=
  nameViolations c.field ++ (operatorViolations c ++ operandViolations c)

/-- The violations by a query, in order: by its method, by the names of its collection and of the
wanted fields, by its comparisons. -/
def violations (q : Query) : List Violation :=
  (if q.method = .find then [] else [.method q.method]) ++
    (nameViolations q.collection ++ ((wantedNames q).flatMap nameViolations ++
      q.filter.comparisons.flatMap comparisonViolations))

/-! ## Queries without violations -/

/-- A name without violations is a field path. -/
theorem nameViolations_eq_nil {name : String} :
    nameViolations name = [] ↔ isFieldPath name = true := by
  unfold nameViolations
  split <;> simp_all

/-- A comparison without violations can be written. -/
theorem comparisonViolations_eq_nil {c : Comparison} :
    comparisonViolations c = [] ↔ c.Expressible := by
  obtain ⟨field, op, operand⟩ := c
  have hoperator : operatorViolations ⟨field, op, operand⟩ = [] ↔ op.isLogical = false := by
    unfold operatorViolations
    split <;> simp_all
  have hoperand : operandViolations ⟨field, op, operand⟩ = [] ↔
      ∀ values, operand = .many values → op = .member := by
    cases operand with
    | one v => simp [operandViolations]
    | many values => simp [operandViolations]
  unfold comparisonViolations
  rw [List.append_eq_nil_iff, List.append_eq_nil_iff, nameViolations_eq_nil, hoperator, hoperand]
  exact ⟨fun ⟨hfield, hop, hvalues⟩ => ⟨hfield, hop, hvalues⟩, fun h => ⟨h.field, h.op, h.operand⟩⟩

/-- A query without violations is expressible. -/
theorem violations_eq_nil {q : Query} : violations q = [] ↔ q.Expressible := by
  have hmethod : (if q.method = .find then [] else [Violation.method q.method]) = [] ↔
      q.method = .find := by
    split <;> simp_all
  have hnames : (∀ name ∈ wantedNames q, isFieldPath name = true) ↔
      ∀ names ∈ q.projection, ∀ name ∈ names, isFieldPath name = true := by
    unfold wantedNames
    cases q.projection <;> simp
  unfold violations
  simp only [List.append_eq_nil_iff, List.flatMap_eq_nil_iff, hmethod, nameViolations_eq_nil,
    hnames, comparisonViolations_eq_nil]
  exact ⟨fun ⟨hm, hc, hp, hall⟩ => ⟨hm, hc, hp, hall⟩,
    fun h => ⟨h.method, h.collection, h.projection, h.comparisons⟩⟩

/-! ## The first violation -/

/-- The fault of a name is its violation. -/
theorem nameFault?_eq (name : String) :
    nameFault? name = (nameViolations name).head?.map Violation.error := by
  unfold nameFault? nameViolations
  split <;> rfl

/-- The fault of a comparison is its first violation. -/
theorem fault?_eq (c : Comparison) :
    fault? c = (comparisonViolations c).head?.map Violation.error := by
  obtain ⟨field, op, operand⟩ := c
  unfold fault? comparisonViolations nameViolations operatorViolations operandViolations
  by_cases hfield : isFieldPath field = true
  · by_cases hop : op.isLogical = true
    · simp [hfield, hop, Violation.error]
    · cases operand with
      | one v => cases op <;> simp_all
      | many values => cases op <;> simp_all [Violation.error]
  · simp [hfield, Violation.error]

/-- Over a list, the first fault is the first violation. -/
theorem findSome?_eq_head?_flatMap {α : Type} {fault : α → Option Error}
    {violations : α → List Violation}
    (h : ∀ a, fault a = (violations a).head?.map Violation.error) (l : List α) :
    l.findSome? fault = (l.flatMap violations).head?.map Violation.error := by
  rw [List.head?_flatMap, List.map_findSome?]
  exact congrArg (l.findSome? ·) (funext h)

/-- The fault of a query is its first violation. -/
theorem queryFault?_eq (q : Query) :
    queryFault? q = (violations q).head?.map Violation.error := by
  have hmethod : methodFault? q.method =
      (if q.method = .find then [] else [Violation.method q.method]).head?.map
        Violation.error := by
    unfold methodFault?
    split <;> rfl
  unfold queryFault? violations
  rw [findSome?_cons_or, Option.or_assoc, List.head?_append, Option.map_or, List.head?_append,
    Option.map_or, List.head?_append, Option.map_or, hmethod, nameFault?_eq,
    findSome?_eq_head?_flatMap nameFault?_eq, findSome?_eq_head?_flatMap fault?_eq]

/-- A statement is written for a query if and only if the query is expressible. Otherwise the error
is that of the first of its violations: by the method, by the collection, by the wanted fields from
left to right, by the comparisons in the order of the filter, and in a comparison by the field, by
the operator, by the operand. -/
theorem render_stops_at_first_violation (q : Query) :
    ((∃ text, render q = .ok text) ↔ q.Expressible) ∧
      ∀ e, render q = .error e ↔ ∃ v rest, violations q = v :: rest ∧ e = v.error := by
  have hstops : StopsAtFirst Violation.error (violations q) (render q) := by
    rw [render_eq, queryFault?_eq]
    exact stopsAtFirst_succeedUnless Violation.error (violations q) (statement q)
  exact ⟨hstops.exists_ok_iff.trans violations_eq_nil, hstops⟩

/-- The name of a field that is not compared with anything is not looked at. -/
example : render ⟨"users", .find, .fields [⟨"a b", .empty⟩], some []⟩ =
    .ok "SELECT * FROM users;" := by
  decide +kernel

end Sql

end FindSelect
