import FindSelect.Shell.Token
import Mathlib.Data.List.Nodup

/-!
# The keys of operators in documents

A document names the operators by keys. `operatorKeys` is the table of these keys, from which both
what a key stands for (`keyOperator`) and which key is written for an operator (`operatorKey`) are
taken. `operatorKeys_eq` says that the shell spells the operators in this way, and it is the only
place where the two tables meet.

Equality has no key in the table. A key that is no operator stands for it, such as `$eq`, which is
written for it here.
-/

namespace FindSelect.Shell

/-- The keys of the operators other than equality. -/
def operatorKeys : List (String × Operator) :=
  [("$ne", .ne), ("$gt", .gt), ("$gte", .gte), ("$lt", .lt), ("$lte", .lte), ("$in", .member),
   ("$and", .and), ("$or", .or)]

/-- The operator that a key stands for where a field is compared. A key that is no operator means
equality. -/
def keyOperator (key : String) : Operator :=
  ((operatorKeys.find? fun p => p.1 = key).map Prod.snd).getD .eq

/-- The key for an operator. Equality is written like the others here. -/
def operatorKey (op : Operator) : String :=
  ((operatorKeys.find? fun p => p.2 = op).map Prod.fst).getD "$eq"

/-- The keys are how the shell spells the operators other than equality. -/
theorem operatorKeys_eq : operatorKeys = Operator.all.tail.map fun op => (token op, op) :=
  rfl

/-- A key stands for the operator that is read from it, or else for equality. -/
theorem keyOperator_eq (key : String) : keyOperator key = (operator? key).getD .eq := by
  have hkeys : (operatorKeys.find? fun p => p.1 = key).map Prod.snd =
      Operator.all.tail.find? fun op => token op == key := by
    rw [operatorKeys_eq, List.find?_map, Option.map_map]
    simp [Function.comp_def, beq_eq_decide]
  rw [keyOperator, hkeys]
  -- Only the empty key is read as equality by the table of the shell, and it is no key here.
  by_cases hempty : key = ""
  · subst hempty
    decide
  · have hne : (token .eq == key) = false := beq_eq_false_iff_ne.2 (Ne.symm hempty)
    rw [operator?, show Operator.all = .eq :: Operator.all.tail from rfl, List.find?_cons, hne]
    rfl

/-- Other operators than equality have the key by which the shell spells them. -/
theorem operatorKey_eq_token {op : Operator} (h : op ≠ .eq) : operatorKey op = token op := by
  cases op with
  | eq => exact absurd rfl h
  | _ => decide

/-- Other operators than equality are read from their keys. -/
theorem operator?_operatorKey {op : Operator} (h : op ≠ .eq) :
    operator? (operatorKey op) = some op := by
  rw [operatorKey_eq_token h, operator?_token]

/-- Different operators have different keys. -/
theorem operatorKey_injective : Function.Injective operatorKey := by
  have hnodup : (Operator.all.map operatorKey).Nodup := by decide
  intro op op' h
  exact List.inj_on_of_nodup_map hnodup op.mem_all op'.mem_all h

/-- Two keys that stand for the same operator are the same, unless it is equality. -/
theorem eq_of_keyOperator_eq {key key' : String} (heq : keyOperator key = keyOperator key')
    (hne : keyOperator key ≠ .eq) : key = key' := by
  have htoken : ∀ {k : String}, keyOperator k ≠ .eq → token (keyOperator k) = k := by
    intro k hk
    rw [keyOperator_eq] at hk ⊢
    cases hop : operator? k with
    | none => exact absurd (by rw [hop]; rfl) hk
    | some op => exact token_of_operator? hop
  rw [← htoken hne, heq, htoken (heq ▸ hne)]

end FindSelect.Shell
