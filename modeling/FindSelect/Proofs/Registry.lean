import FindSelect.Registry
import Mathlib.Data.List.Induction
import Mathlib.Data.List.Nodup

/-!
# What registrations leave

A registry is an ordered map. Each name is there once, the names are in the order in which they were
last registered, and under a name is the dialect that was last registered under it. This is
`Reflects`, which every registration keeps (`Reflects.register`), so it holds after any number of
them (`reflects_ofList`). `ofList_keeps_latest` adds what is found in such a registry, and that a
builder makes the same one (`build_foldl_withDialect`).

A registration takes away the dialects with exactly the name of the new one, but a dialect is looked
up without regard to letter case, and the first one that fits is found. So a dialect is not found by
its own name if one whose name differs in the case of its letters alone was registered before it.
`register_resolves` says that this is the only exception and which dialect is found then, and that
no other name is disturbed. `not_forall_find_register` is a case of the exception.
-/

namespace FindSelect.Registry

variable {r : Registry} {d e : Dialect} {name : String} {history : List Dialect}

/-- The name that is looked for, without the blanks around it. -/
def wanted (name : String) : String :=
  String.ofList (Text.trim name.toList)

/-- Whether a dialect stands in the way of another one: its name is different, but only in the case
of its letters. -/
def shadows (d e : Dialect) : Bool :=
  e.name != d.name && Text.sameIgnoringCase e.name d.name

/-- A dialect is found if it is the first one that fits. -/
theorem find_eq_ok : r.find name = .ok e ↔ r.find? name = some e := by
  unfold find
  cases r.find? name <;> simp

/-! ## One registration -/

/-- After a registration, the first of the other dialects that fits is found, or else the new one
if it fits. -/
theorem find?_register (r : Registry) (d : Dialect) (name : String) :
    (r.register d).find? name =
      (r.dialects.find? fun e =>
        e.name != d.name && Text.sameIgnoringCase e.name (wanted name)).or
        (if Text.sameIgnoringCase d.name (wanted name) then some d else none) := by
  unfold find? register
  rw [List.find?_append, List.find?_filter]
  congr 1
  · simp only [wanted, Bool.decide_and, Bool.decide_eq_true]
  · rw [List.find?_singleton]
    rfl

/-- A name that the new dialect does not fit is looked up as before. -/
theorem find?_register_of_ne (h : Text.sameIgnoringCase d.name (wanted name) = false) :
    (r.register d).find? name = r.find? name := by
  rw [find?_register, h]
  simp only [Bool.false_eq_true, if_false, Option.or_none]
  unfold find?
  congr 1
  funext e
  -- The dialects that were taken away have the name of the new one, so they do not fit either.
  by_cases hname : e.name = d.name
  · simp only [hname, bne_self_eq_false, Bool.false_and]
    exact h.symm
  · simp only [bne_iff_ne.2 hname, Bool.true_and]
    rfl

/-- By its own name, the new dialect is found behind those that stand in its way. -/
theorem find?_register_name (hname : Text.trim d.name.toList = d.name.toList) :
    (r.register d).find? d.name = (r.dialects.find? (shadows d)).or (some d) := by
  have hwanted : wanted d.name = d.name := by rw [wanted, hname, String.ofList_toList]
  rw [find?_register, hwanted, Text.sameIgnoringCase_self, if_pos rfl]
  rfl

/-! ## Any number of registrations -/

/-- How many registrations came after the last one under a name. -/
def age (history : List Dialect) (name : String) : Nat :=
  (history.map Dialect.name).reverse.idxOf name

/-- The dialect that was last registered under a name. -/
def latest? (history : List Dialect) (name : String) : Option Dialect :=
  history.reverse.find? fun d => d.name = name

/-- Whether a registry is an ordered map of what was registered. -/
structure Reflects (r : Registry) (history : List Dialect) : Prop where
  /-- Every name is there once. -/
  nodup : r.names.Nodup
  /-- The names are those that were registered. -/
  mem_names : ∀ name, name ∈ r.names ↔ ∃ d ∈ history, d.name = name
  /-- The names are in the order of their last registrations. -/
  order : r.names.Pairwise fun name name' => age history name' < age history name
  /-- The dialects are those that were last registered under their names. -/
  mem_dialects : ∀ d, d ∈ r.dialects ↔ latest? history d.name = some d

/-- A registration makes the other names older. -/
theorem age_concat (history : List Dialect) (d : Dialect) (name : String) :
    age (history ++ [d]) name = if d.name = name then 0 else age history name + 1 := by
  simp [age, List.idxOf_cons]

/-- A registration comes last for its name, and for no other one. -/
theorem latest?_concat (history : List Dialect) (d : Dialect) (name : String) :
    latest? (history ++ [d]) name = if d.name = name then some d else latest? history name := by
  by_cases h : d.name = name <;> simp [latest?, h]

/-- A registration keeps the registry an ordered map of what was registered. -/
theorem Reflects.register (h : r.Reflects history) (d : Dialect) :
    (r.register d).Reflects (history ++ [d]) where
  nodup := by
    rw [names_register, ← List.concat_eq_append]
    exact List.Nodup.concat (by simp) (h.nodup.filter _)
  mem_names name := by
    rw [names_register, List.mem_append, List.mem_filter, h.mem_names, List.mem_singleton,
      bne_iff_ne]
    simp only [List.mem_append, List.mem_singleton]
    constructor
    · rintro (⟨⟨e, he, rfl⟩, -⟩ | rfl)
      · exact ⟨e, .inl he, rfl⟩
      · exact ⟨d, .inr rfl, rfl⟩
    · rintro ⟨e, he | rfl, rfl⟩
      · by_cases hname : e.name = d.name
        · exact .inr hname
        · exact .inl ⟨⟨e, he, rfl⟩, hname⟩
      · exact .inr rfl
  order := by
    -- The name of the new dialect is the youngest, and the others grow older together.
    have holder : ∀ name ∈ r.names.filter (· != d.name),
        age (history ++ [d]) name = age history name + 1 := by
      intro name hname
      have hne : name ≠ d.name := by simpa using (List.mem_filter.1 hname).2
      rw [age_concat, if_neg hne.symm]
    rw [names_register, List.pairwise_append]
    refine ⟨(h.order.filter _).imp_of_mem fun hname hname' hlt => ?_, List.pairwise_singleton _ _,
      fun name hname name' hname' => ?_⟩
    · rw [holder _ hname, holder _ hname']
      exact Nat.succ_lt_succ hlt
    · rw [List.mem_singleton.1 hname', holder name hname, age_concat, if_pos rfl]
      exact Nat.succ_pos _
  mem_dialects e := by
    rw [Registry.register, List.mem_append, List.mem_filter, h.mem_dialects, List.mem_singleton,
      latest?_concat, bne_iff_ne]
    by_cases hname : d.name = e.name
    · -- What was there under the name is gone, so only the new dialect is left.
      rw [if_pos hname, Option.some.injEq]
      simp [hname, eq_comm]
    · rw [if_neg hname]
      have hne : e ≠ d := fun heq => hname (congrArg Dialect.name heq).symm
      simp [Ne.symm hname, hne]

/-- After any registrations a registry is an ordered map of them. -/
theorem reflects_ofList (history : List Dialect) : (ofList history).Reflects history := by
  induction history using List.reverseRecOn with
  | nil =>
    refine ⟨List.nodup_nil, fun name => ?_, List.Pairwise.nil, fun d => ?_⟩
    · simp [names, ofList, empty]
    · simp [latest?, ofList, empty]
  | append_singleton history d ih =>
    have hstep : ofList (history ++ [d]) = (ofList history).register d := by simp [ofList]
    rw [hstep]
    exact ih.register d

/-- A builder collects the dialects that are added, behind those that it has. -/
theorem dialects_foldl_withDialect (b : Builder) (history : List Dialect) :
    (history.foldl Builder.withDialect b).dialects = b.dialects ++ history := by
  induction history generalizing b with
  | nil => simp
  | cons d history ih =>
    rw [List.foldl_cons, ih, Builder.withDialect, List.append_assoc, List.singleton_append]

/-- The registry that a builder makes is that of the dialects that were added. -/
theorem build_foldl_withDialect (history : List Dialect) :
    (history.foldl Builder.withDialect .empty).build = ofList history := by
  rw [Builder.build, dialects_foldl_withDialect, Builder.empty, List.nil_append]

/-- No dialect of a registry stands in the way of another one if none that was registered does. -/
theorem find?_shadows_eq_none :
    (ofList history).dialects.find? (shadows d) = none ↔
      ∀ e ∈ history, Text.sameIgnoringCase e.name d.name = true → e.name = d.name := by
  have hnames : (∀ e ∈ (ofList history).dialects, shadows d e = false) ↔
      ∀ other ∈ (ofList history).names,
        Text.sameIgnoringCase other d.name = true → other = d.name := by
    simp only [names, List.forall_mem_map]
    refine forall₂_congr fun e _ => ?_
    by_cases heq : e.name = d.name <;> simp [shadows, heq]
  simp only [List.find?_eq_none, Bool.not_eq_true, hnames, (reflects_ofList history).mem_names]
  constructor
  · intro h e he
    exact h e.name ⟨e, he, rfl⟩
  · rintro h _ ⟨e, he, rfl⟩
    exact h e he

/-! ## What a name resolves to -/

/-- Whether a name that is looked for is that of a dialect, up to the blanks around it and the case
of its letters. -/
def Fits (name : String) (d : Dialect) : Prop :=
  Text.sameIgnoringCase d.name (wanted name) = true

/-- The first dialect that fits is found. -/
theorem find_eq_ok_iff : r.find name = .ok d ↔ ∃ before after,
    r.dialects = before ++ d :: after ∧ Fits name d ∧ ∀ e ∈ before, ¬ Fits name e := by
  rw [find_eq_ok, find?, List.find?_eq_some_iff_append]
  constructor
  · rintro ⟨hfits, before, after, hsplit, hbefore⟩
    exact ⟨before, after, hsplit, hfits, fun e he => by simpa [Fits, wanted] using hbefore e he⟩
  · rintro ⟨before, after, hsplit, hfits, hbefore⟩
    exact ⟨hfits, before, after, hsplit, fun e he => by simpa [Fits, wanted] using hbefore e he⟩

/-- If no dialect fits, the error has the name as it is looked for and all names that are there. -/
theorem find_eq_error_iff {err : Error} : r.find name = .error err ↔
    (∀ d ∈ r.dialects, ¬ Fits name d) ∧ err = .unknownDialect name r.names := by
  have hnone : r.find? name = none ↔ ∀ d ∈ r.dialects, ¬ Fits name d := List.find?_eq_none
  rw [← hnone, find]
  cases r.find? name <;> simp [eq_comm]

/-- After any registrations in an empty registry the registry is an ordered map of them, and a
builder makes the same one of the same dialects. A name is looked up there as the first dialect that
fits, and if there is none, the error has the name as it was given and all names of the registry. -/
theorem ofList_keeps_latest (history : List Dialect) :
    (history.foldl Builder.withDialect .empty).build = ofList history ∧
    (ofList history).Reflects history ∧
    ∀ name,
      (∀ d, (ofList history).find name = .ok d ↔ ∃ before after,
        (ofList history).dialects = before ++ d :: after ∧ Fits name d ∧
          ∀ e ∈ before, ¬ Fits name e) ∧
      ∀ err, (ofList history).find name = .error err ↔
        (∀ d ∈ (ofList history).dialects, ¬ Fits name d) ∧
          err = .unknownDialect name (ofList history).names := by
  refine ⟨build_foldl_withDialect history, reflects_ofList history, fun name => ⟨fun d => ?_,
    fun err => ?_⟩⟩
  · exact find_eq_ok_iff
  · exact find_eq_error_iff

/-- After any registrations, a dialect whose name has no blanks at its ends is registered. By its
name it is then found if and only if no dialect was registered before whose name differs from it in
the case of letters alone. Otherwise the first one of these that is left is found. A name that
differs from that of the new dialect in more than the case of letters and the blanks around it is
looked up as before: the same dialect is found, or none. -/
theorem register_resolves (history : List Dialect) (d : Dialect)
    (hname : Text.trim d.name.toList = d.name.toList) :
    (((ofList history).register d).find d.name = .ok d ↔
      ∀ e ∈ history, Text.sameIgnoringCase e.name d.name = true → e.name = d.name) ∧
    (∀ e, (ofList history).dialects.find? (shadows d) = some e →
      ((ofList history).register d).find d.name = .ok e) ∧
    ∀ name, Text.sameIgnoringCase d.name (String.ofList (Text.trim name.toList)) = false →
      ∀ e, ((ofList history).register d).find name = .ok e ↔
        (ofList history).find name = .ok e := by
  refine ⟨?_, fun e he => ?_, fun name h e => ?_⟩
  · rw [find_eq_ok, find?_register_name hname, ← find?_shadows_eq_none]
    cases hshadow : (ofList history).dialects.find? (shadows d) with
    | none => simp
    | some e =>
      -- The dialect in the way has another name, so it is another dialect.
      have hne : e ≠ d := by
        rintro rfl
        simpa [shadows] using List.find?_some hshadow
      simp [hne]
  · rw [find_eq_ok, find?_register_name hname, he, Option.some_or]
  · rw [find_eq_ok, find_eq_ok, find?_register_of_ne h]

/-- Among the dialects of this library, a new one is found by its name, one that is called `SQL` is
not, and neither of them disturbs the look-up of the shell's dialect. -/
theorem register_resolves_builtin :
    (builtin.register (.named "cql")).find "cql" = .ok (.named "cql") ∧
    (builtin.register (.named "SQL")).find "SQL" = .ok .sql ∧
    (builtin.register (.named "SQL")).find " Mongo\n" = .ok .mongo := by
  have hcql := register_resolves [.mongo, .sql] (.named "cql") (by decide)
  have hsql := register_resolves [.mongo, .sql] (.named "SQL") (by decide)
  refine ⟨hcql.1.2 ?_, hsql.2.1 _ rfl, (hsql.2.2 " Mongo\n" (by decide) _).2 rfl⟩
  rw [List.forall_mem_cons, List.forall_mem_singleton]
  decide

/-- Not every dialect is found by its name once it has been registered: one that is called `SQL`
is not if one called `sql` is there. -/
theorem not_forall_find_register :
    ¬ ∀ (history : List Dialect) (d : Dialect), Text.trim d.name.toList = d.name.toList →
      ((ofList history).register d).find d.name = .ok d := by
  intro h
  have hfound := h [.mongo, .sql] (.named "SQL") (by decide)
  exact absurd (congrArg (Except.map Dialect.name) hfound) (by decide)

end FindSelect.Registry
