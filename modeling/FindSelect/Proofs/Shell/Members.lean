import FindSelect.Proofs.Shell.Meaning

/-!
# Which members of an object of operators are kept

An object of operators and values under a field becomes a condition, and a condition has every
operator once. Different keys can stand for one operator only if it is equality, which is what the
empty key and every key that is no operator mean. So all comparisons but those for equality are
kept, and of the latter the last one (`fieldFilter_represents`). That the others are lost is shown
by `not_forall_represents`.
-/

namespace FindSelect.Shell

variable {field : String} {members before after : List (String × Value)} {m : String × Value}
  {f : FieldFilter} {c : Condition}

/-- Whether a member of an object is represented in a condition: by the operator that its key stands
for, with its value. -/
def Represents (c : Condition) (m : String × Value) : Prop :=
  ∃ o : Operand, (keyOperator m.1, o) ∈ c.comparisons ∧ o.toValue = m.2

/-- In a condition with every operator once, a member is represented if the operator of its key
compares with its value. -/
theorem represents_iff (hc : c.operators.Nodup) :
    Represents c m ↔ comparedWith? c (keyOperator m.1) = some m.2 := by
  have hget : ∀ o, c.get? (keyOperator m.1) = some o ↔ (keyOperator m.1, o) ∈ c.comparisons :=
    fun o => Entries.get?_eq_some_iff hc
  unfold Represents comparedWith?
  simp only [Option.map_eq_some_iff, hget]

/-- A member is represented in the condition of a field if its value is the last one for the
operator of its key. -/
theorem represents_iff_lastValue? (h : fieldFilter field (.object members) = .ok f) :
    Represents f.condition m ↔ lastValue? (keyOperator m.1) members = some m.2 := by
  have hnodup : f.condition.operators.Nodup := (fieldFilter_eq_ok h).2.2.nodup
  rw [represents_iff hnodup]
  unfold fieldFilter at h
  split at h
  · obtain ⟨c, hc, h⟩ := bind_eq_ok.1 h
    obtain rfl := Except.ok.inj h
    have hcompared := comparedWith?_of_addComparisons hc (keyOperator m.1)
    rw [hcompared, show comparedWith? .empty (keyOperator m.1) = none from rfl, Option.or_none]
  · exact absurd h (by simp)

/-- The last value for an operator is that of a member behind which no key stands for it. -/
theorem lastValue?_of_last {op : Operator} (hm : keyOperator m.1 = op)
    (hafter : ∀ m' ∈ after, keyOperator m'.1 ≠ op) :
    lastValue? op (before ++ m :: after) = some m.2 := by
  have hlater : after.reverse.find? (fun m' => keyOperator m'.1 = op) = none := by
    rw [List.find?_eq_none]
    intro m' hm'
    simpa using hafter m' (List.mem_reverse.1 hm')
  unfold lastValue?
  rw [List.reverse_append, List.reverse_cons, List.append_assoc, List.find?_append, hlater]
  simp [hm]

/-- An object of operators and values with distinct keys is read as a condition on a field. Every
member whose key stands for an operator other than equality is represented in it. Of the members
for equality, under the empty key and under keys that are no operators, the last one is represented,
and one before it only if it has the same value. -/
theorem fieldFilter_represents (hkeys : (members.map Prod.fst).Nodup)
    (h : fieldFilter field (.object members) = .ok f) :
    (∀ m ∈ members, keyOperator m.1 ≠ .eq → Represents f.condition m) ∧
    ∀ before m after, members = before ++ m :: after → keyOperator m.1 = .eq →
      (∀ m' ∈ after, keyOperator m'.1 ≠ .eq) →
      Represents f.condition m ∧
        ∀ m' ∈ before, keyOperator m'.1 = .eq → (Represents f.condition m' ↔ m'.2 = m.2) := by
  simp only [represents_iff_lastValue? h]
  constructor
  · intro m hm hop
    obtain ⟨before, after, rfl⟩ := List.append_of_mem hm
    refine lastValue?_of_last rfl fun m' hm' heq => ?_
    -- A later key for the same operator would be the same key.
    have hsame : m.1 = m'.1 := eq_of_keyOperator_eq heq.symm hop
    rw [List.map_append, List.map_cons, List.nodup_append, List.nodup_cons] at hkeys
    exact hkeys.2.1.1 (hsame ▸ List.mem_map_of_mem hm')
  · rintro before m after rfl hop hafter
    have hlast : lastValue? .eq (before ++ m :: after) = some m.2 := lastValue?_of_last hop hafter
    refine ⟨by rw [hop, hlast], fun m' _ hop' => ?_⟩
    rw [hop', hlast, Option.some.injEq, eq_comm]

/-- Two keys that are no operators, with one that is and the empty one. -/
def crowdedMembers : List (String × Value) :=
  [("$eq", .string "x"), ("$gt", .number (.integer 2)), ("", .bool true),
    ("$near", .array [.null, .string "x"])]

/-- Of the crowded members, the one under `$gt` and the last of the others are kept. -/
theorem fieldFilter_represents_crowdedMembers :
    ∃ f, fieldFilter "age" (.object crowdedMembers) = .ok f ∧
      Represents f.condition ("$gt", .number (.integer 2)) ∧
      Represents f.condition ("$near", .array [.null, .string "x"]) ∧
      ¬ Represents f.condition ("$eq", .string "x") := by
  have hread : fieldFilter "age" (.object crowdedMembers) = .ok ⟨"age",
      ⟨[(.eq, .many [.null, .string "x"]), (.gt, .one (.number (.integer 2)))]⟩⟩ := by
    decide +kernel
  obtain ⟨hothers, hequal⟩ := fieldFilter_represents (by decide) hread
  obtain ⟨hlast, hearlier⟩ := hequal _ ("$near", .array [.null, .string "x"]) []
    (show crowdedMembers = [("$eq", .string "x"), ("$gt", .number (.integer 2)),
      ("", .bool true)] ++ [("$near", .array [.null, .string "x"])] from rfl) (by decide) (by simp)
  refine ⟨_, hread, hothers _ (by simp [crowdedMembers]) (by decide), hlast, ?_⟩
  rw [hearlier ("$eq", .string "x") (by simp) (by decide)]
  simp

/-- Not every member of an object of operators and values is represented: of two keys that are no
operators, the second takes the place of the first. -/
theorem not_forall_represents :
    ¬ ∀ (field : String) (members : List (String × Value)) (f : FieldFilter),
      isFieldPath field = true → (members.map Prod.fst).Nodup →
      fieldFilter field (.object members) = .ok f → ∀ m ∈ members, Represents f.condition m := by
  intro h
  have hread : fieldFilter "a" (.object [("$foo", .number (.integer 1)),
      ("$bar", .number (.integer 2))]) = .ok ⟨"a", ⟨[(.eq, .one (.number (.integer 2)))]⟩⟩ := by
    decide +kernel
  obtain ⟨o, ho, hvalue⟩ := h "a" _ _ (by decide +kernel) (by decide) hread
    ("$foo", .number (.integer 1)) (by simp)
  obtain rfl : o = .one (.number (.integer 2)) := (Prod.mk.inj (List.mem_singleton.1 ho)).2
  simp [Operand.toValue, Scalar.toValue] at hvalue

end FindSelect.Shell
