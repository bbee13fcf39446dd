import FindSelect.Proofs.Shell.Keys
import FindSelect.Proofs.Shell.WellFormed
import FindSelect.Query.Json

/-!
# A filter means what its document means

A filter document can be given a truth value without a filter being made of it: it is the
conjunction of its members, of which `$and` is a conjunction of documents, `$or` a disjunction, and
any other key compares a field (`documentHolds`). A filter has a truth value of its own
(`Filter.holds`). Both are given the same truth values of comparisons, and a comparison is a field,
an operator and the value as the document writes it.

`filter_meaning` says that the two agree for every document from which a filter is read. What has to
be seen is that nothing is lost on the way. The comparisons of a field are written to its condition
one by one, and one that is written over does not count in the document either
(`comparedWith?_of_addComparisons`). The fields of a document are put together and moved, to the
front of a conjunction that may not have been there, and no list is lost since keys are distinct
(`holds_of_parts`).
-/

namespace FindSelect

/-- Truth values of comparisons: of a field, by an operator, with a value. -/
abbrev Truth : Type :=
  String → Operator → Value → Bool

/-! ## Truth values of filters -/

/-- Whether a field meets a condition: all its comparisons hold. -/
def Condition.holds (σ : Truth) (field : String) (c : Condition) : Bool :=
  c.comparisons.all fun (op, operand) => σ field op operand.toValue

/-- Whether a field with a condition on it meets the condition. -/
def FieldFilter.holds (σ : Truth) (f : FieldFilter) : Bool :=
  f.condition.holds σ f.field

namespace Filter

mutual
/-- Whether a filter holds. A list of a group that is not given asks for nothing, but an empty
disjunction does not hold. -/
def holds (σ : Truth) : Filter → Bool
  | fields entries => entries.all (FieldFilter.holds σ)
  | group conj disj => conjHolds σ conj && disjHolds σ disj

/-- Whether the conjunction of a group holds, as far as it is given. -/
def conjHolds (σ : Truth) : Option (List Filter) → Bool
  | none => true
  | some filters => (listHolds σ filters).all id

/-- Whether the disjunction of a group holds, as far as it is given. -/
def disjHolds (σ : Truth) : Option (List Filter) → Bool
  | none => true
  | some filters => (listHolds σ filters).any id

/-- Which filters of a list hold. -/
def listHolds (σ : Truth) : List Filter → List Bool
  | [] => []
  | f :: rest => holds σ f :: listHolds σ rest
end

end Filter

namespace Shell

/-! ## Truth values of documents -/

/-- The value that a field is compared with by an operator: that of the last key which stands for
the operator. -/
def lastValue? (op : Operator) (members : List (String × Value)) : Option Value :=
  (members.reverse.find? fun m => keyOperator m.1 = op).map Prod.snd

/-- Whether a field is as a document says, under the key of that field: it equals a value, or each
operator that the document has compares it with the last value of that operator. -/
def fieldHolds (σ : Truth) (field : String) : Value → Bool
  | .object members => Operator.all.all fun op => (lastValue? op members).all (σ field op)
  | value => σ field .eq value

mutual
/-- Whether a document holds. What is not an object asks for nothing. -/
def documentHolds (σ : Truth) : Value → Bool
  | .object members => membersHold σ members
  | _ => true

/-- Whether all members of a document hold. -/
def membersHold (σ : Truth) : List (String × Value) → Bool
  | [] => true
  | (key, value) :: rest =>
    (if key = "$and" then (entriesHold σ value).all id
      else if key = "$or" then (entriesHold σ value).any id
      else fieldHolds σ key value) && membersHold σ rest

/-- Which of the documents in an array hold. -/
def entriesHold (σ : Truth) : Value → List Bool
  | .array items => itemsHold σ items
  | _ => []

/-- Which documents of a list hold. -/
def itemsHold (σ : Truth) : List Value → List Bool
  | [] => []
  | item :: rest => documentHolds σ item :: itemsHold σ rest
end

/-! ## Operands -/

/-- A scalar is read as the value that it is. -/
theorem toValue_of_scalar {field : String} {v : Value} {s : Scalar} (h : scalar field v = .ok s) :
    s.toValue = v := by
  cases v with
  | null | bool b | number n | string t =>
    obtain rfl := Except.ok.inj h
    rfl
  | array items | object members => exact absurd h (by simp [scalar])

/-- Scalars are read as the values that they are. -/
theorem map_toValue_of_mapM {field : String} {items : List Value} {scalars : List Scalar}
    (h : items.mapM (scalar field) = .ok scalars) : scalars.map Scalar.toValue = items := by
  induction items generalizing scalars with
  | nil =>
    obtain rfl := Except.ok.inj h
    rfl
  | cons v items ih =>
    rw [List.mapM_cons] at h
    obtain ⟨s, hs, h⟩ := bind_eq_ok.1 h
    obtain ⟨others, hothers, h⟩ := bind_eq_ok.1 h
    obtain rfl := Except.ok.inj h
    rw [List.map_cons, toValue_of_scalar hs, ih hothers]

/-- An operand is read as the value that it is. -/
theorem toValue_of_operand {field : String} {v : Value} {o : Operand}
    (h : operand field v = .ok o) : o.toValue = v := by
  unfold operand at h
  split at h
  · obtain ⟨scalars, hscalars, h⟩ := bind_eq_ok.1 h
    obtain rfl := Except.ok.inj h
    exact congrArg Value.array (map_toValue_of_mapM hscalars)
  · obtain ⟨s, hs, h⟩ := bind_eq_ok.1 h
    obtain rfl := Except.ok.inj h
    exact toValue_of_scalar hs

/-! ## Conditions -/

/-- The operator of a comparison is the one that its key stands for. -/
theorem keyOperator_of_comparisonOperator {field key : String} {op : Operator}
    (h : comparisonOperator field key = .ok op) : keyOperator key = op := by
  unfold comparisonOperator at h
  rw [keyOperator_eq]
  split at h
  · next hnone =>
    obtain rfl := Except.ok.inj h
    rw [hnone, Option.getD_none]
  · next hsome =>
    split at h
    · exact absurd h (by simp)
    · obtain rfl := Except.ok.inj h
      rw [hsome, Option.getD_some]

/-- The last value of an operator is that of a later member, or else that of the first one. -/
theorem lastValue?_cons (op : Operator) (key : String) (v : Value)
    (members : List (String × Value)) :
    lastValue? op ((key, v) :: members) =
      (lastValue? op members).or (if keyOperator key = op then some v else none) := by
  unfold lastValue?
  rw [List.reverse_cons, List.find?_append]
  by_cases hkey : keyOperator key = op
  · cases (members.reverse.find? fun m => keyOperator m.1 = op) <;> simp [hkey]
  · cases (members.reverse.find? fun m => keyOperator m.1 = op) <;> simp [hkey]

/-- What a condition compares a field with by an operator, as a value. -/
def comparedWith? (c : Condition) (op : Operator) : Option Value :=
  (c.get? op).map Operand.toValue

/-- An operator of an object has the last value there; the others are as they were. -/
theorem comparedWith?_of_addComparisons {field : String} {c c' : Condition}
    {members : List (String × Value)} (h : addComparisons field c members = .ok c')
    (op : Operator) : comparedWith? c' op = (lastValue? op members).or (comparedWith? c op) := by
  induction members generalizing c with
  | nil =>
    obtain rfl := Except.ok.inj h
    rfl
  | cons m members ih =>
    obtain ⟨key, v⟩ := m
    obtain ⟨op', hop, h⟩ := bind_eq_ok.1 h
    obtain ⟨o, ho, h⟩ := bind_eq_ok.1 h
    have hkey : keyOperator key = op' := keyOperator_of_comparisonOperator hop
    have hvalue : o.toValue = v := toValue_of_operand ho
    -- The write of this member is seen unless a later one has the same operator.
    have hwrite : comparedWith? (c.insert op' o) op =
        (if keyOperator key = op then some v else none).or (comparedWith? c op) := by
      unfold comparedWith?
      rw [Condition.get?_insert, hkey]
      by_cases heq : op = op'
      · simp [heq, hvalue]
      · simp [heq, Ne.symm heq]
    rw [ih h, lastValue?_cons, hwrite, Option.or_assoc]

/-- A condition with every operator once holds if the comparison of each operator does. -/
theorem holds_eq_all_operators (σ : Truth) (field : String) {c : Condition}
    (hc : c.operators.Nodup) :
    c.holds σ field = Operator.all.all fun op => (comparedWith? c op).all (σ field op) := by
  have hget : ∀ op o, c.get? op = some o ↔ (op, o) ∈ c.comparisons :=
    fun op o => Entries.get?_eq_some_iff hc
  rw [Bool.eq_iff_iff]
  unfold Condition.holds comparedWith?
  simp only [List.all_eq_true, Option.all_eq_true, Option.map_eq_some_iff, Prod.forall]
  constructor
  · rintro h op - v ⟨o, ho, rfl⟩
    exact h op o ((hget op o).1 ho)
  · intro h op o ho
    exact h op op.mem_all o.toValue ⟨o, (hget op o).2 ho, rfl⟩

/-- A condition that is read from a document holds if the field is as the document says. -/
theorem holds_of_condition (σ : Truth) {field : String} {v : Value} {c : Condition}
    (h : condition field v = .ok c) : c.holds σ field = fieldHolds σ field v := by
  have hnodup : c.operators.Nodup := (wellFormed_of_condition h).nodup
  unfold condition at h
  split at h
  · next members =>
    have hcompared : ∀ op, comparedWith? c op = lastValue? op members := by
      intro op
      rw [comparedWith?_of_addComparisons h op]
      exact Option.or_none
    rw [holds_eq_all_operators σ field hnodup, fieldHolds]
    simp only [hcompared]
  · next hscalar =>
    obtain ⟨o, ho, h⟩ := bind_eq_ok.1 h
    obtain rfl := Except.ok.inj h
    have hvalue : o.toValue = v := toValue_of_operand ho
    have hfield : fieldHolds σ field v = σ field .eq v := by
      unfold fieldHolds
      split
      · next members => exact absurd rfl (hscalar members)
      · rfl
    rw [hfield, ← hvalue]
    simp [Condition.holds, Condition.equals, Condition.insert, Condition.empty, Entries.put]

/-- A field that is read from a member of a document holds if the member does. -/
theorem holds_of_fieldFilter (σ : Truth) {key : String} {v : Value} {f : FieldFilter}
    (h : fieldFilter key v = .ok f) : f.holds σ = fieldHolds σ key v := by
  unfold fieldFilter at h
  split at h
  · obtain ⟨c, hc, h⟩ := bind_eq_ok.1 h
    obtain rfl := Except.ok.inj h
    exact holds_of_condition σ hc
  · exact absurd h (by simp)

/-! ## Documents -/

/-- Whether the parts of a document hold. -/
def Parts.holds (σ : Truth) (p : Parts) : Bool :=
  p.fields.all (FieldFilter.holds σ) && (Filter.conjHolds σ p.conj && Filter.disjHolds σ p.disj)

/-- The filter of a document holds if its parts do, wherever its fields are put. -/
theorem Parts.holds_toFilter (σ : Truth) (p : Parts) : p.toFilter.holds σ = p.holds σ := by
  obtain ⟨fields, conj, disj⟩ := p
  cases conj with
  | none =>
    cases disj with
    | none => simp [Parts.toFilter, Parts.holds, Filter.holds, Filter.conjHolds, Filter.disjHolds]
    | some filters =>
      -- The fields are in a conjunction that the document does not have.
      cases fields with
      | nil => simp [Parts.toFilter, Parts.holds, Filter.holds]
      | cons f fields =>
        simp [Parts.toFilter, Parts.holds, Filter.holds, Filter.conjHolds, Filter.listHolds]
  | some filters =>
    cases fields with
    | nil => simp [Parts.toFilter, Parts.holds, Filter.holds]
    | cons f fields =>
      simp [Parts.toFilter, Parts.holds, Filter.holds, Filter.conjHolds, Filter.listHolds,
        Bool.and_assoc]

/-- Without its key a document has no conjunction, and without its key no disjunction. -/
theorem lists_eq_none_of_parts {members : List (String × Value)} {p : Parts}
    (h : parts members = .ok p) :
    ("$and" ∉ members.map Prod.fst → p.conj = none) ∧
      ("$or" ∉ members.map Prod.fst → p.disj = none) := by
  induction members generalizing p with
  | nil =>
    obtain rfl := Except.ok.inj h
    exact ⟨fun _ => rfl, fun _ => rfl⟩
  | cons m members ih =>
    obtain ⟨key, v⟩ := m
    obtain ⟨others, hothers, hadded⟩ := parts_cons_eq_ok h
    obtain ⟨hconj, hdisj⟩ := ih hothers
    simp only [List.map_cons, List.mem_cons, not_or]
    rcases hadded with ⟨rfl, filters, -, rfl⟩ | ⟨rfl, filters, -, rfl⟩ | ⟨-, -, f, -, rfl⟩
    · exact ⟨fun hkey => absurd rfl hkey.1, fun hkey => hdisj hkey.2⟩
    · exact ⟨fun hkey => hconj hkey.2, fun hkey => absurd rfl hkey.1⟩
    · exact ⟨fun hkey => hconj hkey.2, fun hkey => hdisj hkey.2⟩

mutual
/-- The parts of a document with distinct keys hold if its members do. -/
theorem holds_of_parts (σ : Truth) : (members : List (String × Value)) → {p : Parts} →
    parts members = .ok p → (members.map Prod.fst).Nodup → Value.MembersDistinctKeys members →
    p.holds σ = membersHold σ members
  | [], p, h, _, _ => by
    obtain rfl := Except.ok.inj h
    rfl
  | (key, v) :: rest, p, h, hkeys, hinner => by
    obtain ⟨others, hothers, hadded⟩ := parts_cons_eq_ok h
    rw [List.map_cons, List.nodup_cons] at hkeys
    have hrest := holds_of_parts σ rest hothers hkeys.2 hinner.2
    obtain ⟨hconj, hdisj⟩ := lists_eq_none_of_parts hothers
    rw [membersHold, ← hrest]
    rcases hadded with ⟨rfl, filters, hfilters, rfl⟩ | ⟨rfl, filters, hfilters, rfl⟩ |
      ⟨hand, hor, f, hf, rfl⟩
    · -- The key is not there again, so the conjunction is that of this member.
      have hlist := listHolds_of_groupFilters σ "$and" v hfilters hinner.1
      rw [if_pos rfl, ← hlist]
      simp [Parts.holds, hconj hkeys.1, Filter.conjHolds, Bool.and_left_comm]
    · have hlist := listHolds_of_groupFilters σ "$or" v hfilters hinner.1
      rw [if_neg (by decide), if_pos rfl, ← hlist]
      simp [Parts.holds, hdisj hkeys.1, Filter.disjHolds, Bool.and_comm, Bool.and_assoc]
    · rw [if_neg hand, if_neg hor, ← holds_of_fieldFilter σ hf]
      simp [Parts.holds, Bool.and_assoc]

/-- The filters under a logical operator hold if the documents of its array do. -/
theorem listHolds_of_groupFilters (σ : Truth) (key : String) : (v : Value) →
    {filters : List Filter} → groupFilters key v = .ok filters → v.DistinctKeys →
    Filter.listHolds σ filters = entriesHold σ v
  | .array items, filters, h, hkeys => listHolds_of_itemFilters σ key items h hkeys
  | .null, _, h, _ | .bool _, _, h, _ | .number _, _, h, _ | .string _, _, h, _
  | .object _, _, h, _ => by simp [groupFilters] at h

/-- The filters of the documents in an array hold if the documents do. -/
theorem listHolds_of_itemFilters (σ : Truth) (key : String) : (items : List Value) →
    {filters : List Filter} → itemFilters key items = .ok filters →
    Value.ItemsDistinctKeys items → Filter.listHolds σ filters = itemsHold σ items
  | [], filters, h, _ => by
    obtain rfl := Except.ok.inj h
    rfl
  | .object members :: rest, filters, h, hkeys => by
    obtain ⟨p, hp, h⟩ := bind_eq_ok.1 h
    obtain ⟨others, hothers, h⟩ := bind_eq_ok.1 h
    obtain rfl := Except.ok.inj h
    have hdocument := holds_of_parts σ members hp hkeys.1.1 hkeys.1.2
    have hrest := listHolds_of_itemFilters σ key rest hothers hkeys.2
    rw [Filter.listHolds, p.holds_toFilter, hdocument, hrest]
    rfl
  | .null :: _, _, h, _ | .bool _ :: _, _, h, _ | .number _ :: _, _, h, _ | .string _ :: _, _, h, _
  | .array _ :: _, _, h, _ => by simp [itemFilters] at h
end

/-- The filter that is read from a document with distinct keys has the truth value of the document,
whatever truth values comparisons are given. -/
theorem filter_meaning {v : Value} {f : Filter} (hkeys : v.DistinctKeys) (h : filter v = .ok f)
    (σ : Truth) : f.holds σ = documentHolds σ v := by
  unfold filter at h
  split at h
  · obtain ⟨p, hp, h⟩ := bind_eq_ok.1 h
    obtain rfl := Except.ok.inj h
    rw [p.holds_toFilter, holds_of_parts σ _ hp hkeys.1 hkeys.2]
    rfl
  · exact absurd h (by simp)

/-- A document with fields before, between and behind its groups, keys that stand for the same
operator, an empty disjunction, and a field beside a group further in. -/
def mixedDocument : Value :=
  .object [("a", .number (.integer 1)),
    ("$or", .array [.object [("b", .object [("$lt", .number (.integer 2)), ("$eq", .string "x"),
      ("$regex", .array [.null])])], .object []]),
    ("c.d", .object [("$ne", .null)]),
    ("$and", .array [.object [("$or", .array [])],
      .object [("e", .bool true), ("$and", .array [])]])]

/-- The filter of the mixed document. -/
def mixedFilter : Filter :=
  .group
    (some [.fields [⟨"a", ⟨[(.eq, .one (.number (.integer 1)))]⟩⟩, ⟨"c.d", ⟨[(.ne, .one .null)]⟩⟩],
      .group none (some []),
      .group (some [.fields [⟨"e", ⟨[(.eq, .one (.bool true))]⟩⟩]]) none])
    (some [.fields [⟨"b", ⟨[(.lt, .one (.number (.integer 2))), (.eq, .many [.null])]⟩⟩],
      .fields []])

/-- The filter of the mixed document has the truth value of the document. -/
theorem filter_meaning_mixedDocument : mixedDocument.DistinctKeys ∧
    filter mixedDocument = .ok mixedFilter ∧
    ∀ σ, mixedFilter.holds σ = documentHolds σ mixedDocument := by
  have hkeys : mixedDocument.DistinctKeys := by
    simp [mixedDocument, Value.DistinctKeys, Value.MembersDistinctKeys, Value.ItemsDistinctKeys]
  have hfilter : filter mixedDocument = .ok mixedFilter := by decide +kernel
  exact ⟨hkeys, hfilter, filter_meaning hkeys hfilter⟩

end Shell

end FindSelect
