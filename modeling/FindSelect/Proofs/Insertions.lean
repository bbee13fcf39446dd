import FindSelect.Proofs.Entries
import FindSelect.Query.Condition
import Mathlib.Data.Finset.Card

/-!
# Conditions after several insertions

A condition that starts empty and takes comparisons one after another is a map from operators to
operands that remembers the order in which its operators came. `ofList_records` says so for any
number of insertions, with operators repeated as one likes: an operator stays where it was first
inserted, and its operand is the one that was inserted last.
-/

namespace FindSelect.Condition

/-- The condition after inserting comparisons in turn. -/
def ofList (history : List (Operator × Operand)) : Condition :=
  history.foldl (fun c p => c.insert p.1 p.2) empty

/-- The operand that was inserted last for an operator. -/
def lastOperand? (history : List (Operator × Operand)) (op : Operator) : Option Operand :=
  (history.reverse.find? fun p => p.1 = op).map Prod.snd

/-- The condition after one more insertion. -/
theorem ofList_concat (history : List (Operator × Operand)) (p : Operator × Operand) :
    ofList (history ++ [p]) = (ofList history).insert p.1 p.2 := by
  simp [ofList]

/-- The comparisons are the entries after writing the operands to their operators. -/
theorem comparisons_ofList (history : List (Operator × Operand)) :
    (ofList history).comparisons = Entries.ofList history := by
  induction history using List.reverseRecOn with
  | nil => rfl
  | append_singleton history p ih => rw [ofList_concat, insert, ih, Entries.ofList_concat]

/-- The operators are the keys of these entries. -/
theorem operators_ofList (history : List (Operator × Operand)) :
    (ofList history).operators = (Entries.ofList history).map Prod.fst := by
  rw [operators, comparisons_ofList]

/-- The operand of an operator is the one that was inserted last. -/
theorem get?_ofList (history : List (Operator × Operand)) (op : Operator) :
    (ofList history).get? op = lastOperand? history op := by
  rw [get?, comparisons_ofList, (Entries.merges_ofList history).2, Entries.get?_eq_find?,
    lastOperand?]

/-- Nothing was inserted last for an operator if and only if the operator was never inserted. -/
theorem lastOperand?_eq_none {history : List (Operator × Operand)} {op : Operator} :
    lastOperand? history op = none ↔ op ∉ history.map Prod.fst := by
  rw [lastOperand?, Option.map_eq_none_iff, List.find?_eq_none]
  simp only [List.mem_reverse, decide_eq_true_eq, List.mem_map, not_exists, not_and]

/-- There are as many comparisons as different operators were inserted. -/
theorem size_ofList (history : List (Operator × Operand)) :
    (ofList history).size = (history.map Prod.fst).toFinset.card := by
  have hset : ((Entries.ofList history).map Prod.fst).toFinset =
      (history.map Prod.fst).toFinset := by
    ext op
    rw [List.mem_toFinset, List.mem_toFinset, Entries.mem_keys_ofList]
  rw [← hset, List.toFinset_card_of_nodup (Entries.nodup_keys_ofList history), List.length_map,
    size, comparisons_ofList]

/-- After any insertions a condition has each inserted operator once, in the order of their first
insertions, with the operand of its last insertion. That operand is looked up, and nothing is found
if and only if the operator was never inserted. There are as many comparisons as different operators
were inserted. -/
theorem ofList_records (history : List (Operator × Operand)) :
    (ofList history).operators.Nodup ∧
    (∀ op, op ∈ (ofList history).operators ↔ op ∈ history.map Prod.fst) ∧
    ((ofList history).operators.Pairwise fun op op' =>
      (history.map Prod.fst).idxOf op < (history.map Prod.fst).idxOf op') ∧
    (∀ op operand, (op, operand) ∈ (ofList history).comparisons ↔
      lastOperand? history op = some operand) ∧
    (∀ op, (ofList history).get? op = lastOperand? history op) ∧
    (∀ op, (ofList history).get? op = none ↔ op ∉ history.map Prod.fst) ∧
    (ofList history).size = (history.map Prod.fst).toFinset.card := by
  have hnodup : (ofList history).operators.Nodup := by
    rw [operators_ofList]
    exact Entries.nodup_keys_ofList history
  have horder := Entries.pairwise_keys_ofList history
  rw [← operators_ofList] at horder
  refine ⟨hnodup, fun op => ?_, horder, fun op operand => ?_, get?_ofList history, fun op => ?_,
    size_ofList history⟩
  · rw [operators_ofList, Entries.mem_keys_ofList]
  · rw [← get?_ofList]
    exact (Entries.get?_eq_some_iff hnodup).symm
  · rw [get?_ofList, lastOperand?_eq_none]

/-- An operator that comes again stays where it was and takes the new operand. -/
example : ofList [(.gt, .one .null), (.lt, .many []), (.gt, .one (.bool true))] =
    ⟨[(.gt, .one (.bool true)), (.lt, .many [])]⟩ := by
  decide

end FindSelect.Condition
