/-!
# Entries in order of insertion

A list of pairs serves as a finite map that remembers the order in which its keys came. `put` keeps
a key where it first stood: writing to it again changes the value in place, and a new key goes to
the end. `keys_put` and `get?_put` say what a write does to the keys and to the values.
-/

namespace FindSelect.Entries

variable {κ α : Type} [DecidableEq κ]

/-- Writes `v` at `k`: in place if the key is there, else at the end. -/
def put (k : κ) (v : α) : List (κ × α) → List (κ × α)
  | [] => [(k, v)]
  | (k', v') :: rest => if k' = k then (k, v) :: rest else (k', v') :: put k v rest

/-- The entries after writing each pair in turn: every key once, where it first came, with the
value that came last. -/
def ofList (pairs : List (κ × α)) : List (κ × α) :=
  pairs.foldl (fun entries p => put p.1 p.2 entries) []

/-- The value at `k`, if the key is there. -/
def get? (k : κ) : List (κ × α) → Option α
  | [] => none
  | (k', v) :: rest => if k' = k then some v else get? k rest

/-- A write to a key that is there keeps the keys, and a new key comes last. -/
theorem keys_put (k : κ) (v : α) (entries : List (κ × α)) :
    (put k v entries).map Prod.fst =
      if k ∈ entries.map Prod.fst then entries.map Prod.fst else entries.map Prod.fst ++ [k] := by
  induction entries with
  | nil => simp [put]
  | cons p rest ih =>
    obtain ⟨k', v'⟩ := p
    by_cases h : k' = k
    · simp [put, h]
    · have h' : k ≠ k' := fun e => h e.symm
      simp only [put, h, if_false, List.map_cons, ih, List.mem_cons, h', false_or]
      split <;> rfl

/-- A write is seen at its own key and at no other. -/
theorem get?_put (k k' : κ) (v : α) (entries : List (κ × α)) :
    get? k' (put k v entries) = if k' = k then some v else get? k' entries := by
  induction entries with
  | nil =>
    by_cases h : k' = k
    · simp [put, get?, h]
    · have h' : k ≠ k' := fun e => h e.symm
      simp [put, get?, h, h']
  | cons p rest ih =>
    obtain ⟨j, w⟩ := p
    grind [put, get?]

end FindSelect.Entries
