import FindSelect.Query.Condition

/-!
# Filters

A filter selects documents. It is a list of fields with conditions, all of which must hold, or a
group of other filters under a conjunction and a disjunction.

`Filter` models `FilterNode`, and a group is its `Combinator`.
-/

namespace FindSelect

/-- A field with the condition on it. -/
structure FieldFilter where
  /-- The path of the field. -/
  field : String
  /-- The condition that the field must meet. -/
  condition : Condition
deriving DecidableEq, Repr

/-- A filter. -/
inductive Filter where
  /-- Conditions on fields, all of which must hold. -/
  | fields (entries : List FieldFilter)
  /-- A group: all filters of `conj` must hold and one of `disj`, as far as they are given. -/
  | group (conj disj : Option (List Filter))

namespace Filter

mutual
/-- Whether two filters are equal. -/
def decEq : (f g : Filter) → Decidable (f = g)
  | fields entries, fields entries' =>
    decidable_of_iff (entries = entries') (Filter.fields.injEq entries entries').symm.to_iff
  | group conj disj, group conj' disj' =>
    match groupDecEq conj conj', groupDecEq disj disj' with
    | isTrue h, isTrue h' => isTrue (h ▸ h' ▸ rfl)
    | isFalse h, _ => isFalse fun heq => h (Filter.group.inj heq).1
    | _, isFalse h => isFalse fun heq => h (Filter.group.inj heq).2
  | fields _, group _ _ => isFalse nofun
  | group _ _, fields _ => isFalse nofun

/-- Whether the same list of two groups is equal. -/
def groupDecEq : (fs gs : Option (List Filter)) → Decidable (fs = gs)
  | none, none => isTrue rfl
  | some fs, some gs =>
    match listDecEq fs gs with
    | isTrue h => isTrue (h ▸ rfl)
    | isFalse h => isFalse fun heq => h (Option.some.inj heq)
  | none, some _ => isFalse nofun
  | some _, none => isFalse nofun

/-- Whether two lists of filters are equal. -/
def listDecEq : (fs gs : List Filter) → Decidable (fs = gs)
  | [], [] => isTrue rfl
  | f :: fs, g :: gs =>
    match decEq f g, listDecEq fs gs with
    | isTrue h, isTrue h' => isTrue (h ▸ h' ▸ rfl)
    | isFalse h, _ => isFalse fun heq => h (List.cons.inj heq).1
    | _, isFalse h => isFalse fun heq => h (List.cons.inj heq).2
  | [], _ :: _ => isFalse nofun
  | _ :: _, [] => isFalse nofun
end

instance : DecidableEq Filter := decEq

/-- The filter without conditions, which selects every document. -/
def empty : Filter :=
  fields []

/-- The filter that holds when all the given ones do. -/
def allOf (filters : List Filter) : Filter :=
  group (some filters) none

/-- The filter that holds when one of the given ones does. -/
def anyOf (filters : List Filter) : Filter :=
  group none (some filters)

/-- Whether a filter has no parts: no field, or neither list of a group. -/
def isEmpty : Filter → Bool
  | fields entries => entries.isEmpty
  | group none none => true
  | group _ _ => false

end Filter

end FindSelect
