import FindSelect.Proofs.Shell.Reading

/-!
# Which values are filter documents

`IsDocument` says what a filter document is, without a word on how it is read: an object whose
members are fields, each with a value or with an object of comparisons, and logical operators, each
with an array of documents. `violations` lists all that keeps a value from being one, in the order
of the document. `filter_stops_at_first_violation` says that a filter is read from the documents and
from nothing else, and that of several violations the first one is reported.

The same key can be right in one place and wrong in another. `$or` joins documents as a key of a
document, but compares nothing under a field; the empty key compares under a field, but is not the
name of one.
-/

namespace FindSelect

/-- Whether a value is neither an array nor an object. -/
inductive Value.IsScalar : Value → Prop
  | null : IsScalar .null
  | bool (b : Bool) : IsScalar (.bool b)
  | number (n : Number) : IsScalar (.number n)
  | string (s : String) : IsScalar (.string s)

namespace Shell

/-! ## Documents -/

/-- Whether a key is one of the two that join filters. -/
def IsLogicalKey (key : String) : Prop := key = "$and" ∨ key = "$or"

instance (key : String) : Decidable (IsLogicalKey key) :=
  inferInstanceAs (Decidable (key = "$and" ∨ key = "$or"))

/-- Whether a field can be compared with a value: with a scalar, or with an array of scalars. -/
inductive IsOperand : Value → Prop
  | one {v : Value} (h : v.IsScalar) : IsOperand v
  | many {items : List Value} (h : ∀ item ∈ items, item.IsScalar) : IsOperand (.array items)

/-- Whether a value can stand beside the name of a field: an operand, or an object of operands whose
keys do not join filters. -/
inductive IsFieldValue : Value → Prop
  | operand {v : Value} (h : IsOperand v) : IsFieldValue v
  | comparisons {members : List (String × Value)}
      (h : ∀ m ∈ members, ¬ IsLogicalKey m.1 ∧ IsOperand m.2) : IsFieldValue (.object members)

mutual
/-- Whether a value is a filter document. -/
inductive IsDocument : Value → Prop
  | object {members : List (String × Value)} (h : ∀ m ∈ members, IsMember m.1 m.2) :
      IsDocument (.object members)

/-- Whether a key with a value is a member of a filter document: a logical operator with an array of
documents, or a field with a value for it. -/
inductive IsMember : String → Value → Prop
  | group {key : String} {items : List Value} (hkey : IsLogicalKey key)
      (h : ∀ item ∈ items, IsDocument item) : IsMember key (.array items)
  | field {key : String} {v : Value} (hkey : ¬ IsLogicalKey key) (hpath : isFieldPath key = true)
      (h : IsFieldValue v) : IsMember key v
end

/-! ## Violations -/

/-- What can keep a value from being a filter document. -/
inductive Violation where
  /-- The whole is not an object. -/
  | notAnObject (found : Value.Kind)
  /-- A logical operator has something other than an array. -/
  | notAnArray (key : String) (found : Value.Kind)
  /-- The array of a logical operator has an item that is not an object. -/
  | itemNotAnObject (key : String) (found : Value.Kind)
  /-- The name of a field is not a field path. -/
  | fieldName (name : String)
  /-- A field is compared by a logical operator. -/
  | logicalKey (field key : String)
  /-- A field is compared with something other than a scalar or an array of scalars. -/
  | value (field : String) (found : Value.Kind)
deriving DecidableEq

/-- The error that is reported for a violation. A wrong shape and a wrong name are wrong in the
document; what is wrong under a field is wrong in its condition. -/
def Violation.error : Violation → Error
  | notAnObject found => .format (.filterKind found)
  | notAnArray key found => .format (.groupKind key found)
  | itemNotAnObject key found => .format (.groupItemKind key found)
  | fieldName name => .format (.fieldName name)
  | logicalKey field key => .invalidCondition field (.logicalToken key)
  | value field found => .invalidCondition field (.valueKind found)

/-- The violation by a value in the place of a scalar. -/
def scalarViolations (field : String) : Value → List Violation
  | .array _ => [.value field .array]
  | .object _ => [.value field .object]
  | _ => []

/-- The violations by a value in the place of an operand. -/
def operandViolations (field : String) : Value → List Violation
  | .array items => items.flatMap (scalarViolations field)
  | v => scalarViolations field v

/-- The violation by the key of a comparison. -/
def keyViolations (field key : String) : List Violation :=
  if IsLogicalKey key then [.logicalKey field key] else []

/-- The violations by the value of a field. -/
def valueViolations (field : String) : Value → List Violation
  | .object members =>
    members.flatMap fun m => keyViolations field m.1 ++ operandViolations field m.2
  | v => operandViolations field v

/-- The violations by a field: by its name, by its value. -/
def fieldViolations (field : String) (v : Value) : List Violation :=
  (if isFieldPath field then [] else [.fieldName field]) ++ valueViolations field v

mutual
/-- The violations by the members of a document. -/
def memberViolations : List (String × Value) → List Violation
  | [] => []
  | (key, v) :: rest =>
    -- The key alone decides what the value has to be.
    (if IsLogicalKey key then groupViolations key v else fieldViolations key v) ++
      memberViolations rest

/-- The violations by the value of a logical operator. -/
def groupViolations (key : String) : Value → List Violation
  | .array items => itemViolations key items
  | v => [.notAnArray key v.kind]

/-- The violations by the items of the array of a logical operator. -/
def itemViolations (key : String) : List Value → List Violation
  | [] => []
  | .object members :: rest => memberViolations members ++ itemViolations key rest
  | v :: rest => .itemNotAnObject key v.kind :: itemViolations key rest
end

/-- The violations by a value in the place of a filter document, in the order of the document. -/
def violations : Value → List Violation
  | .object members => memberViolations members
  | v => [.notAnObject v.kind]

/-! ## Values without violations -/

/-- A value without violations in the place of a scalar is one. -/
theorem scalarViolations_eq_nil (field : String) {v : Value} :
    scalarViolations field v = [] ↔ v.IsScalar := by
  cases v with
  | null => exact iff_of_true rfl .null
  | bool b => exact iff_of_true rfl (.bool b)
  | number n => exact iff_of_true rfl (.number n)
  | string s => exact iff_of_true rfl (.string s)
  | array items => exact iff_of_false (by simp [scalarViolations]) nofun
  | object members => exact iff_of_false (by simp [scalarViolations]) nofun

/-- A value without violations in the place of an operand is one. -/
theorem operandViolations_eq_nil (field : String) {v : Value} :
    operandViolations field v = [] ↔ IsOperand v := by
  -- Nothing but an array is an operand without being a scalar.
  have hone : ¬ (∃ items, v = .array items) → (IsOperand v ↔ v.IsScalar) := by
    intro hnot
    refine ⟨fun h => ?_, .one⟩
    cases h with
    | one h => exact h
    | many _ => exact absurd ⟨_, rfl⟩ hnot
  cases v with
  | array items =>
    rw [operandViolations, List.flatMap_eq_nil_iff]
    simp only [scalarViolations_eq_nil]
    refine ⟨.many, fun h => ?_⟩
    cases h with
    | one h => cases h
    | many h => exact h
  | null | bool _ | number _ | string _ | object _ =>
    rw [hone (by simp), ← scalarViolations_eq_nil field]
    rfl

/-- A value without violations in the place of the value of a field is one. -/
theorem valueViolations_eq_nil (field : String) {v : Value} :
    valueViolations field v = [] ↔ IsFieldValue v := by
  -- Nothing but an object can stand beside a field without being an operand.
  have hone : ¬ (∃ members, v = .object members) → (IsFieldValue v ↔ IsOperand v) := by
    intro hnot
    refine ⟨fun h => ?_, .operand⟩
    cases h with
    | operand h => exact h
    | comparisons _ => exact absurd ⟨_, rfl⟩ hnot
  cases v with
  | object members =>
    have hkey : ∀ key, keyViolations field key = [] ↔ ¬ IsLogicalKey key := by
      intro key
      unfold keyViolations
      split <;> simp_all
    rw [valueViolations, List.flatMap_eq_nil_iff]
    simp only [List.append_eq_nil_iff, hkey, operandViolations_eq_nil]
    refine ⟨.comparisons, fun h => ?_⟩
    cases h with
    | operand h =>
      -- An object is no operand.
      cases h with
      | one h => cases h
    | comparisons h => exact h
  | null | bool _ | number _ | string _ | array _ =>
    rw [hone (by simp), ← operandViolations_eq_nil field]
    rfl

/-- A field without violations has a field path for its name and a value that can stand beside
it. -/
theorem fieldViolations_eq_nil (field : String) {v : Value} :
    fieldViolations field v = [] ↔ isFieldPath field = true ∧ IsFieldValue v := by
  have hname : (if isFieldPath field then [] else [Violation.fieldName field]) = [] ↔
      isFieldPath field = true := by
    split <;> simp_all
  unfold fieldViolations
  rw [List.append_eq_nil_iff, hname, valueViolations_eq_nil]

/-- A field is a member of a document if its name is a field path and its value can stand beside
it. -/
theorem isMember_field {key : String} {v : Value} (hkey : ¬ IsLogicalKey key) :
    IsMember key v ↔ isFieldPath key = true ∧ IsFieldValue v := by
  refine ⟨fun h => ?_, fun ⟨hpath, h⟩ => .field hkey hpath h⟩
  cases h with
  | group hlogical _ => exact absurd hlogical hkey
  | field _ hpath h => exact ⟨hpath, h⟩

/-- A logical operator is a member of a document if it has an array of documents. -/
theorem isMember_group {key : String} {v : Value} (hkey : IsLogicalKey key) :
    IsMember key v ↔ ∃ items, v = .array items ∧ ∀ item ∈ items, IsDocument item := by
  constructor
  · intro h
    cases h with
    | group _ h => exact ⟨_, rfl, h⟩
    | field hfield _ _ => exact absurd hkey hfield
  · rintro ⟨items, rfl, h⟩
    exact .group hkey h

mutual
/-- Members without violations are those of a document. -/
theorem memberViolations_eq_nil : (members : List (String × Value)) →
    (memberViolations members = [] ↔ ∀ m ∈ members, IsMember m.1 m.2)
  | [] => by simp [memberViolations]
  | (key, v) :: rest => by
    rw [memberViolations, List.append_eq_nil_iff, memberViolations_eq_nil rest,
      List.forall_mem_cons]
    refine and_congr_left' ?_
    by_cases hkey : IsLogicalKey key
    · rw [if_pos hkey, isMember_group hkey]
      exact groupViolations_eq_nil key v
    · rw [if_neg hkey, isMember_field hkey]
      exact fieldViolations_eq_nil key

/-- A value without violations under a logical operator is an array of documents. -/
theorem groupViolations_eq_nil (key : String) : (v : Value) →
    (groupViolations key v = [] ↔ ∃ items, v = .array items ∧ ∀ item ∈ items, IsDocument item)
  | .array items => by simp [groupViolations, itemViolations_eq_nil key items]
  | .null | .bool _ | .number _ | .string _ | .object _ => by simp [groupViolations]

/-- Items without violations are documents. -/
theorem itemViolations_eq_nil (key : String) : (items : List Value) →
    (itemViolations key items = [] ↔ ∀ item ∈ items, IsDocument item)
  | [] => by simp [itemViolations]
  | .object members :: rest => by
    rw [itemViolations, List.append_eq_nil_iff, memberViolations_eq_nil members,
      itemViolations_eq_nil key rest, List.forall_mem_cons]
    exact and_congr_left' ⟨.object, fun ⟨h⟩ => h⟩
  | .null :: _ | .bool _ :: _ | .number _ :: _ | .string _ :: _ | .array _ :: _ =>
    iff_of_false (by simp [itemViolations]) fun h => nomatch h _ List.mem_cons_self
end

/-- A value without violations is a filter document. -/
theorem violations_eq_nil {v : Value} : violations v = [] ↔ IsDocument v := by
  cases v with
  | object members =>
    rw [violations, memberViolations_eq_nil]
    exact ⟨.object, fun ⟨h⟩ => h⟩
  | null | bool _ | number _ | string _ | array _ =>
    exact iff_of_false (by simp [violations]) nofun

/-! ## The first violation -/

/-- The logical keys are how the shell writes the operators that join filters. -/
theorem isLogicalKey_iff {key : String} :
    IsLogicalKey key ↔ operator? key = some .and ∨ operator? key = some .or := by
  constructor
  · rintro (rfl | rfl)
    · exact .inl (operator?_token .and)
    · exact .inr (operator?_token .or)
  · rintro (hkey | hkey)
    · exact .inl (token_of_operator? hkey).symm
    · exact .inr (token_of_operator? hkey).symm

/-- A scalar is read up to its violation. -/
theorem stopsAtFirst_scalar (field : String) (v : Value) :
    StopsAtFirst Violation.error (scalarViolations field v) (scalar field v) := by
  cases v with
  | array items => exact stopsAtFirst_error Violation.error (.value field .array) []
  | object members => exact stopsAtFirst_error Violation.error (.value field .object) []
  | null | bool _ | number _ | string _ => exact stopsAtFirst_ok _ _

/-- An operand is read up to its first violation. -/
theorem stopsAtFirst_operand (field : String) (v : Value) :
    StopsAtFirst Violation.error (operandViolations field v) (operand field v) := by
  cases v with
  | array items => exact (stopsAtFirst_mapM (stopsAtFirst_scalar field) items).map Operand.many
  | null | bool _ | number _ | string _ | object _ =>
    exact (stopsAtFirst_scalar field _).map Operand.one

/-- The key of a comparison is read up to its violation. -/
theorem stopsAtFirst_comparisonOperator (field key : String) :
    StopsAtFirst Violation.error (keyViolations field key) (comparisonOperator field key) := by
  unfold comparisonOperator keyViolations
  cases hop : operator? key with
  | none =>
    rw [if_neg (by simp [isLogicalKey_iff, hop])]
    exact stopsAtFirst_ok _ _
  | some op =>
    have hlogical : IsLogicalKey key ↔ op.isLogical = true := by
      rw [isLogicalKey_iff, hop]
      cases op <;> decide
    by_cases hkey : IsLogicalKey key
    · rw [if_pos hkey]
      simp only [hlogical.1 hkey, if_true]
      exact stopsAtFirst_error Violation.error (.logicalKey field key) []
    · rw [if_neg hkey]
      simp only [mt hlogical.2 hkey]
      exact stopsAtFirst_ok _ _

/-- Comparisons are added to a condition up to the first violation, whatever the condition is. -/
theorem stopsAtFirst_addComparisons (field : String) (c : Condition)
    (members : List (String × Value)) :
    StopsAtFirst Violation.error
      (members.flatMap fun m => keyViolations field m.1 ++ operandViolations field m.2)
      (addComparisons field c members) := by
  -- The condition grows with every comparison, so the induction is for any condition.
  induction members generalizing c with
  | nil => exact stopsAtFirst_ok _ _
  | cons m members ih =>
    rw [List.flatMap_cons, List.append_assoc]
    exact (stopsAtFirst_comparisonOperator field m.1).bind fun op _ =>
      (stopsAtFirst_operand field m.2).bind fun o _ => ih (c.insert op o)

/-- The condition on a field is read up to the first violation by its value. -/
theorem stopsAtFirst_condition (field : String) (v : Value) :
    StopsAtFirst Violation.error (valueViolations field v) (condition field v) := by
  cases v with
  | object members => exact stopsAtFirst_addComparisons field .empty members
  | null | bool _ | number _ | string _ | array _ =>
    exact (stopsAtFirst_operand field _).map Condition.equals

/-- A field is read up to its first violation. -/
theorem stopsAtFirst_fieldFilter (field : String) (v : Value) :
    StopsAtFirst Violation.error (fieldViolations field v) (fieldFilter field v) := by
  unfold fieldFilter fieldViolations
  by_cases hpath : isFieldPath field = true
  · rw [if_pos hpath, if_pos hpath, List.nil_append]
    exact (stopsAtFirst_condition field v).map _
  · rw [if_neg hpath, if_neg hpath]
    exact stopsAtFirst_error Violation.error (.fieldName field) _

mutual
/-- The members of a document are read up to the first violation. -/
theorem stopsAtFirst_parts : (members : List (String × Value)) →
    StopsAtFirst Violation.error (memberViolations members) (parts members)
  | [] => stopsAtFirst_ok _ _
  | (key, v) :: rest => by
    have hrest := stopsAtFirst_parts rest
    rw [parts, memberViolations]
    by_cases hkey : IsLogicalKey key
    · -- Where the filters go depends on the key, what can be wrong with them does not.
      rw [if_pos hkey]
      have hgroup := stopsAtFirst_groupFilters key v
      rcases isLogicalKey_iff.1 hkey with hop | hop
      · rw [hop]
        exact hgroup.bind fun filters _ => hrest.map _
      · rw [hop]
        exact hgroup.bind fun filters _ => hrest.map _
    · -- Any other key is a field, also one that compares under a field.
      rw [if_neg hkey]
      obtain ⟨hand, hor⟩ := not_or.1 (mt isLogicalKey_iff.2 hkey)
      split
      · next hop => exact absurd hop hand
      · next hop => exact absurd hop hor
      · exact (stopsAtFirst_fieldFilter key v).bind fun f _ => hrest.map _

/-- The filters under a logical operator are read up to the first violation. -/
theorem stopsAtFirst_groupFilters (key : String) : (v : Value) →
    StopsAtFirst Violation.error (groupViolations key v) (groupFilters key v)
  | .array items => stopsAtFirst_itemFilters key items
  | .null | .bool _ | .number _ | .string _ | .object _ =>
    stopsAtFirst_error Violation.error (.notAnArray key _) []

/-- The documents in an array are read up to the first violation. -/
theorem stopsAtFirst_itemFilters (key : String) : (items : List Value) →
    StopsAtFirst Violation.error (itemViolations key items) (itemFilters key items)
  | [] => stopsAtFirst_ok _ _
  | .object members :: rest =>
    (stopsAtFirst_parts members).bind fun _ _ => (stopsAtFirst_itemFilters key rest).map _
  | .null :: rest | .bool _ :: rest | .number _ :: rest | .string _ :: rest | .array _ :: rest =>
    stopsAtFirst_error Violation.error (.itemNotAnObject key _) (itemViolations key rest)
end

/-- A filter is read from a value if and only if the value is a filter document. Otherwise the error
is that of the first of its violations in the order of the document. -/
theorem filter_stops_at_first_violation (v : Value) :
    ((∃ f, filter v = .ok f) ↔ IsDocument v) ∧
      ∀ e, filter v = .error e ↔ ∃ w rest, violations v = w :: rest ∧ e = w.error := by
  have hstops : StopsAtFirst Violation.error (violations v) (filter v) := by
    cases v with
    | object members => exact (stopsAtFirst_parts members).map Parts.toFilter
    | null | bool _ | number _ | string _ | array _ =>
      exact stopsAtFirst_error Violation.error (.notAnObject _) []
  exact ⟨hstops.exists_ok_iff.trans violations_eq_nil, hstops⟩

/-- The empty key is right under a field and wrong as the name of one, and `$or` is the other way
round. -/
example : violations (.object [("$or", .array []), ("", .null),
    ("a", .object [("", .null), ("$or", .null)])]) = [.fieldName "", .logicalKey "a" "$or"] := by
  decide +kernel

end Shell

end FindSelect
