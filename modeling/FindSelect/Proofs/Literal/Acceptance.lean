import FindSelect.Literal.Parse
import FindSelect.Proofs.Entries
import FindSelect.Proofs.Literal.Reading
import FindSelect.Proofs.Literal.Scanning

/-!
# Which texts are literals

`parse_eq_ok` says when a text is accepted as a literal, and with which value: it is the text of a
tree, with blanks around it, and no more than `maxDepth` of its containers stand inside one another.
The value of a tree is not deeper than the tree (`Tree.depth_value_le`); it can be less deep, since
a repeated key keeps its last value only. For the same reason no object of a value has a key twice
(`Tree.distinctKeys_value`).
-/

namespace FindSelect

/-! ## The depth of a value -/

namespace Value

mutual
/-- The number of containers of a value that stand inside one another. -/
def depth : Value → Nat
  | array items => itemsDepth items + 1
  | object members => membersDepth members + 1
  | _ => 0

/-- The depth of the deepest item of an array. -/
def itemsDepth : List Value → Nat
  | [] => 0
  | v :: rest => max (depth v) (itemsDepth rest)

/-- The depth of the deepest member of an object. -/
def membersDepth : List (String × Value) → Nat
  | [] => 0
  | (_, v) :: rest => max (depth v) (membersDepth rest)
end

/-- The items of an array are no deeper than the deepest one. -/
theorem itemsDepth_le {items : List Value} {n : Nat} :
    itemsDepth items ≤ n ↔ ∀ v ∈ items, v.depth ≤ n := by
  induction items with
  | nil => simp [itemsDepth]
  | cons v items ih => rw [itemsDepth, Nat.max_le, ih, List.forall_mem_cons]

/-- The members of an object are no deeper than the deepest one. -/
theorem membersDepth_le {members : List (String × Value)} {n : Nat} :
    membersDepth members ≤ n ↔ ∀ m ∈ members, m.2.depth ≤ n := by
  induction members with
  | nil => simp [membersDepth]
  | cons m members ih =>
    obtain ⟨k, v⟩ := m
    rw [membersDepth, Nat.max_le, ih, List.forall_mem_cons]

/-! ## Distinct keys -/

mutual
/-- Whether no object has a key twice, at any depth. -/
def DistinctKeys : Value → Prop
  | array items => ItemsDistinctKeys items
  | object members => (members.map Prod.fst).Nodup ∧ MembersDistinctKeys members
  | _ => True

/-- Whether no object in the items of an array has a key twice. -/
def ItemsDistinctKeys : List Value → Prop
  | [] => True
  | v :: rest => DistinctKeys v ∧ ItemsDistinctKeys rest

/-- Whether no object in the members of an object has a key twice. -/
def MembersDistinctKeys : List (String × Value) → Prop
  | [] => True
  | (_, v) :: rest => DistinctKeys v ∧ MembersDistinctKeys rest
end

/-- The items of an array have distinct keys if each of them does. -/
theorem itemsDistinctKeys_iff {items : List Value} :
    ItemsDistinctKeys items ↔ ∀ v ∈ items, v.DistinctKeys := by
  induction items with
  | nil => simp [ItemsDistinctKeys]
  | cons v items ih => rw [ItemsDistinctKeys, ih, List.forall_mem_cons]

/-- The members of an object have distinct keys inside if each of them does. -/
theorem membersDistinctKeys_iff {members : List (String × Value)} :
    MembersDistinctKeys members ↔ ∀ m ∈ members, m.2.DistinctKeys := by
  induction members with
  | nil => simp [MembersDistinctKeys]
  | cons m members ih =>
    obtain ⟨k, v⟩ := m
    rw [MembersDistinctKeys, ih, List.forall_mem_cons]

end Value

namespace Literal

/-- The value of an item, without its key. -/
def Kind.itemValue : (k : Kind) → k.Item → Value
  | .array, v => v
  | .object, m => m.2

/-- A label does not change the value behind it. -/
theorem Label.itemValue_item {k : Kind} (label : Label k) (v : Value) :
    k.itemValue (label.item v) = v := by
  cases label <;> rfl

/-- A container is one deeper than its deepest item, or less deep if keys are repeated. -/
theorem Kind.depth_value_le (k : Kind) {items : List k.Item} {n : Nat}
    (h : ∀ i ∈ items, (k.itemValue i).depth ≤ n) : (k.value items).depth ≤ n + 1 := by
  cases k with
  | array => exact Nat.succ_le_succ (Value.itemsDepth_le.2 h)
  | object =>
    refine Nat.succ_le_succ (Value.membersDepth_le.2 fun m hm => ?_)
    exact h m (Entries.mem_of_mem_ofList hm)

mutual
/-- The value of a tree is not deeper than the tree. -/
theorem Tree.depth_value_le (t : Tree) : t.value.depth ≤ t.depth := by
  cases t with
  | null | bool b | number w n h | string q => exact Nat.zero_le _
  | container k lead items trail => exact k.depth_value_le items.depth_values_le

/-- The items of a container are not deeper than it. -/
theorem Items.depth_values_le {k : Kind} :
    (is : Items k) → ∀ i ∈ is.values, (k.itemValue i).depth ≤ is.depth
  | .nil => by simp [Items.values]
  | .last label t => by
    have ht := t.depth_value_le
    rw [Items.values, List.forall_mem_singleton, label.itemValue_item]
    exact ht
  | .cons label t gap lead others => by
    have ht := t.depth_value_le
    have hothers := others.depth_values_le
    rw [Items.values, List.forall_mem_cons, label.itemValue_item]
    exact ⟨Nat.le_trans ht (Nat.le_max_left _ _),
      fun i hi => Nat.le_trans (hothers i hi) (Nat.le_max_right _ _)⟩
end

/-- A container has distinct keys if its items do: keys that are repeated fall together. -/
theorem Kind.distinctKeys_value (k : Kind) {items : List k.Item}
    (h : ∀ i ∈ items, (k.itemValue i).DistinctKeys) : (k.value items).DistinctKeys := by
  cases k with
  | array => exact Value.itemsDistinctKeys_iff.2 h
  | object =>
    refine ⟨Entries.nodup_keys_ofList items, Value.membersDistinctKeys_iff.2 fun m hm => ?_⟩
    exact h m (Entries.mem_of_mem_ofList hm)

mutual
/-- The value of a tree has distinct keys. -/
theorem Tree.distinctKeys_value (t : Tree) : t.value.DistinctKeys := by
  cases t with
  | null | bool b | number w n h | string q => exact trivial
  | container k lead items trail => exact k.distinctKeys_value items.distinctKeys_values

/-- The items of a container have distinct keys. -/
theorem Items.distinctKeys_values {k : Kind} :
    (is : Items k) → ∀ i ∈ is.values, (k.itemValue i).DistinctKeys
  | .nil => by simp [Items.values]
  | .last label t => by
    have ht := t.distinctKeys_value
    rw [Items.values, List.forall_mem_singleton, label.itemValue_item]
    exact ht
  | .cons label t gap lead others => by
    have ht := t.distinctKeys_value
    rw [Items.values, List.forall_mem_cons, label.itemValue_item]
    exact ⟨ht, others.distinctKeys_values⟩
end

/-! ## Acceptance -/

/-- The scan of brackets lets a tree pass, with blanks around it, if it is not too deep. -/
theorem staysWithin_entry (e : Entry .array) (limit : Nat) :
    staysWithin limit .outside 0 e.text = decide (e.tree.depth ≤ limit) := by
  rw [e.writes.staysWithin, e.tree.depth_phrase]

/-- A text is accepted if and only if it is the text of a tree that is not too deep, with blanks
around it. It then has the value of that tree. -/
theorem parse_eq_ok {text : String} {v : Value} :
    parse text = .ok v ↔ ∃ e : Entry .array,
      e.tree.value = v ∧ text.toList = e.text ∧ e.tree.depth ≤ maxDepth := by
  have hmapError : ∀ r : Except Diagnosis Value,
      r.mapError (fun diagnosis => Error.format (.notALiteral diagnosis)) = .ok v ↔ r = .ok v := by
    intro r
    cases r <;> simp [Except.mapError]
  unfold parse
  constructor
  · intro h
    split at h
    · next hscan =>
      obtain ⟨e, hvalue, htext⟩ := read_eq_ok.1 ((hmapError _).1 h)
      rw [htext, staysWithin_entry, decide_eq_true_eq] at hscan
      exact ⟨e, hvalue, htext, hscan⟩
    · exact absurd h (by simp)
  · rintro ⟨e, hvalue, htext, hdepth⟩
    rw [if_pos (by rw [htext, staysWithin_entry, decide_eq_true hdepth]), hmapError]
    exact read_eq_ok.2 ⟨e, hvalue, htext⟩

/-- An accepted value is not too deep. -/
theorem depth_of_parse {text : String} {v : Value} (h : parse text = .ok v) :
    v.depth ≤ maxDepth := by
  obtain ⟨e, rfl, -, hdepth⟩ := parse_eq_ok.1 h
  exact Nat.le_trans e.tree.depth_value_le hdepth

/-- An accepted value has distinct keys. -/
theorem distinctKeys_of_parse {text : String} {v : Value} (h : parse text = .ok v) :
    v.DistinctKeys := by
  obtain ⟨e, rfl, -, -⟩ := parse_eq_ok.1 h
  exact e.tree.distinctKeys_value

end Literal

end FindSelect
