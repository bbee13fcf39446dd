import Mathlib.Data.List.Basic

/-!
# The first of several faults

A computation that checks one thing after another stops at the first fault. `succeedUnless` is the
outcome of such a computation, given its fault, if it has one, and the value that it comes to
otherwise. `bind_succeedUnless` and `mapM_succeedUnless` say that in a sequence of computations the
first fault wins.

`StopsAtFirst` says the same of a computation whose value does not matter, with the list of all that
is wrong with what it is given, of which only the first can be seen.
-/

namespace FindSelect

variable {ε α β ν : Type}

/-- The value, unless there is a fault. -/
def succeedUnless (fault : Option ε) (a : α) : Except ε α :=
  match fault with
  | none => .ok a
  | some e => .error e

/-- A computation without a fault comes to its value. -/
theorem succeedUnless_eq_ok {fault : Option ε} {a b : α} :
    succeedUnless fault a = .ok b ↔ fault = none ∧ a = b := by
  cases fault with
  | none => simp [succeedUnless]
  | some e => simp [succeedUnless]

/-- A computation with a fault fails with it. -/
theorem succeedUnless_eq_error {fault : Option ε} {a : α} {e : ε} :
    succeedUnless fault a = .error e ↔ fault = some e := by
  cases fault with
  | none => simp [succeedUnless]
  | some e' => simp [succeedUnless]

/-- Of two computations in a row, the first one that has a fault fails. -/
theorem bind_succeedUnless {fault fault' : Option ε} {a : α} {b : β} {f : α → Except ε β}
    (hf : f a = succeedUnless fault' b) :
    (succeedUnless fault a >>= f) = succeedUnless (fault.or fault') b := by
  cases fault with
  | none => exact hf
  | some e => rfl

/-- Of two computations in a row that succeed, both do. -/
theorem bind_eq_ok {x : Except ε α} {f : α → Except ε β} {b : β} :
    (x >>= f) = .ok b ↔ ∃ a, x = .ok a ∧ f a = .ok b := by
  cases x with
  | error e => exact ⟨fun h => (nomatch h), fun ⟨a, ha, _⟩ => (nomatch ha)⟩
  | ok a => exact ⟨fun h => ⟨a, rfl, h⟩, fun ⟨a', ha, h⟩ => (Except.ok.inj ha) ▸ h⟩

/-- A value that is passed on after a computation does not change its fault. -/
theorem map_succeedUnless (fault : Option ε) (a : α) (f : α → β) :
    (succeedUnless fault a >>= fun x => pure (f x)) = succeedUnless fault (f a) := by
  cases fault with
  | none => rfl
  | some e => rfl

/-- The first fault of a list is that of its head, or else that of its tail. -/
theorem findSome?_cons_or (fault : α → Option ε) (a : α) (l : List α) :
    (a :: l).findSome? fault = (fault a).or (l.findSome? fault) := by
  rw [List.findSome?_cons]
  cases fault a <;> rfl

/-- Over a list, the fault is that of the first item with one. -/
theorem mapM_succeedUnless {f : α → Except ε β} {fault : α → Option ε} {g : α → β}
    (hf : ∀ a, f a = succeedUnless (fault a) (g a)) (l : List α) :
    l.mapM f = succeedUnless (l.findSome? fault) (l.map g) := by
  induction l with
  | nil => rfl
  | cons a l ih =>
    have hrest : (l.mapM f >>= fun bs => pure (g a :: bs)) =
        succeedUnless (l.findSome? fault) (g a :: l.map g) := by
      rw [ih, map_succeedUnless]
    rw [List.mapM_cons, hf a, List.map_cons, List.findSome?_cons]
    refine Eq.trans (bind_succeedUnless (by exact hrest)) ?_
    cases fault a <;> rfl

/-- The first fault of all the parts of the items of a list is that of the first item that has
one. -/
theorem findSome?_flatMap (l : List α) (parts : α → List β) (fault : β → Option ε) :
    (l.flatMap parts).findSome? fault = l.findSome? fun a => (parts a).findSome? fault := by
  induction l with
  | nil => rfl
  | cons a l ih =>
    rw [List.flatMap_cons, List.findSome?_append, ih, List.findSome?_cons]
    cases (parts a).findSome? fault <;> rfl

/-! ## The first of all violations -/

/-- Whether a computation fails exactly if there is a violation, and then with the error of the
first one. -/
def StopsAtFirst (error : ν → ε) (violations : List ν) (x : Except ε α) : Prop :=
  ∀ e, x = .error e ↔ ∃ v rest, violations = v :: rest ∧ e = error v

section StopsAtFirst

variable {error : ν → ε} {violations violations' : List ν} {x : Except ε α}

/-- A computation without violations succeeds. -/
theorem StopsAtFirst.exists_ok_iff (h : StopsAtFirst error violations x) :
    (∃ a, x = .ok a) ↔ violations = [] := by
  cases hx : x with
  | ok a =>
    cases violations with
    | nil => simp
    | cons v rest =>
      have herror := (h (error v)).2 ⟨v, rest, rfl, rfl⟩
      rw [hx] at herror
      exact absurd herror (by simp)
  | error e =>
    obtain ⟨v, rest, rfl, -⟩ := (h e).1 hx
    simp

/-- A computation that succeeds has no violations. -/
theorem stopsAtFirst_ok (error : ν → ε) (a : α) : StopsAtFirst error [] (.ok a) := by
  intro e
  simp

/-- A computation that fails has a first violation, and others may follow it. -/
theorem stopsAtFirst_error (error : ν → ε) (v : ν) (rest : List ν) :
    StopsAtFirst error (v :: rest) (.error (error v) : Except ε α) := by
  intro e
  simp [eq_comm]

/-- The violations of two computations in a row are those of the first before those of the second,
which are of interest only if the first one succeeds. -/
theorem StopsAtFirst.bind {f : α → Except ε β} (hx : StopsAtFirst error violations x)
    (hf : ∀ a, x = .ok a → StopsAtFirst error violations' (f a)) :
    StopsAtFirst error (violations ++ violations') (x >>= f) := by
  cases hx' : x with
  | ok a =>
    rw [hx.exists_ok_iff.1 ⟨a, hx'⟩]
    exact hf a hx'
  | error e =>
    obtain ⟨v, rest, rfl, rfl⟩ := (hx e).1 hx'
    exact stopsAtFirst_error error v (rest ++ violations')

/-- What is made of the value of a computation does not matter. -/
theorem StopsAtFirst.map (hx : StopsAtFirst error violations x) (g : α → β) :
    StopsAtFirst error violations (x >>= fun a => pure (g a)) := by
  have hbind := hx.bind fun a _ => stopsAtFirst_ok error (g a)
  rwa [List.append_nil] at hbind

/-- Over a list, the violations of the items come in their order. -/
theorem stopsAtFirst_mapM {f : α → Except ε β} {violations : α → List ν}
    (hf : ∀ a, StopsAtFirst error (violations a) (f a)) (l : List α) :
    StopsAtFirst error (l.flatMap violations) (l.mapM f) := by
  induction l with
  | nil => exact stopsAtFirst_ok error []
  | cons a l ih =>
    rw [List.mapM_cons, List.flatMap_cons]
    exact (hf a).bind fun b _ => ih.map (b :: ·)

/-- The fault of a computation is the error of its first violation. -/
theorem stopsAtFirst_succeedUnless (error : ν → ε) (violations : List ν) (a : α) :
    StopsAtFirst error violations (succeedUnless (violations.head?.map error) a) := by
  cases violations with
  | nil => exact stopsAtFirst_ok error a
  | cons v rest => exact stopsAtFirst_error error v rest

end StopsAtFirst

end FindSelect
