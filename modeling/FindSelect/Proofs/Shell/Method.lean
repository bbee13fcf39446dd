import FindSelect.Proofs.Shell.Reading

/-!
# When an unknown method is reported

A call may name a method that the shell's dialect does not know. That is found out after the
arguments have been read and the second one has been understood as a projection, but before the
first one is understood as a filter. So of a call that is well written otherwise, the second
argument decides: `parse_of_unknown_method` says that its fault as a projection is reported if it
has one, and the method if it has none.

Documents that other methods take, such as `$set` of an update, are no projections.
`not_forall_unsupportedMethod` is the case of a call whose method is not reported for that reason.
-/

namespace FindSelect.Shell

/-! ## Projections -/

/-- What is wrong with a value in the place of a projection: it is not an object, or a key, the
first of those, is not a field path. -/
def projectionFault? : Value → Option Error
  | .object members => members.findSome? fun m =>
    if isFieldPath m.1 then none else some (.format (.projectionField m.1))
  | _ => some (.format .projectionKind)

/-- A value has no fault as a projection if it is an object whose keys are field paths. -/
theorem projectionFault?_eq_none {v : Value} :
    projectionFault? v = none ↔
      ∃ members, v = .object members ∧ ∀ m ∈ members, isFieldPath m.1 = true := by
  cases v with
  | object members =>
    simp only [projectionFault?, List.findSome?_eq_none_iff, ite_eq_left_iff, Value.object.injEq,
      exists_eq_left']
    simp
  | null | bool b | number n | string s | array items => simp [projectionFault?]

/-- The members of a projection document are gone through up to the first key that is not a field
path. -/
theorem wantedFields_eq (members : List (String × Value)) :
    wantedFields members = succeedUnless (projectionFault? (.object members))
      ((members.filter fun m => isWanted m.2).map Prod.fst) := by
  induction members with
  | nil => rfl
  | cons m members ih =>
    obtain ⟨field, v⟩ := m
    rw [wantedFields, projectionFault?, List.findSome?_cons]
    by_cases hfield : isFieldPath field = true
    · rw [if_pos hfield, if_pos hfield, ih]
      refine (map_succeedUnless _ _ _).trans (congrArg _ ?_)
      cases hv : isWanted v <;> simp [hv]
    · rw [if_neg hfield, if_neg hfield]
      rfl

/-- A value is understood as a projection unless it has a fault as one. -/
theorem projection_eq (v : Value) :
    ∃ fields, projection v = succeedUnless (projectionFault? v) fields := by
  cases v with
  | object members =>
    exact ⟨_, by rw [projection, wantedFields_eq]; exact map_succeedUnless _ _ _⟩
  | null | bool b | number n | string s | array items => exact ⟨none, rfl⟩

/-! ## The second argument decides -/

section

variable {text : String} {call : Call}

/-- The value of the first argument is read if it is a literal. -/
theorem filterDocument_eq_ok {arguments : List (List Char)}
    (h : ∀ a ∈ arguments, ∃ v, Literal.parse (String.ofList a) = .ok v) :
    ∃ v, filterDocument arguments = .ok v := by
  cases arguments with
  | nil => exact ⟨_, rfl⟩
  | cons a rest => exact h a List.mem_cons_self

/-- What is reported of a call with an unknown method is what is wrong with its projection, or else
the method. -/
theorem parse_eq_error_of_method (hcall : Call.read? text.toList = some call)
    (hcheck : checkArguments (arguments call.arguments) = .ok ())
    (hfilter : ∃ v, filterDocument (arguments call.arguments) = .ok v)
    (hmethod : Text.sameIgnoringCase (String.ofList call.method) "find" = false)
    {fault : Option Error} {fields : Option (List String)}
    (hprojection : wantedProjection (arguments call.arguments) = succeedUnless fault fields) :
    parse text =
      .error (fault.getD (.unsupportedMethod displayName (String.ofList call.method))) := by
  obtain ⟨document, hdocument⟩ := hfilter
  have hunknown : method (String.ofList call.method) =
      .error (.unsupportedMethod displayName (String.ofList call.method)) := by
    rw [method, hmethod]
    rfl
  unfold parse
  rw [hcall]
  simp only [hcheck, hdocument, hprojection, hunknown]
  cases fault <;> rfl

/-- A call with at most two arguments, both of them literals, is refused if its method is not
`find`. Without a second argument the method is reported, as it is written. With one, the method is
reported if that argument can be understood as a projection, an object whose keys are field paths,
and otherwise what is wrong with it as a projection. -/
theorem parse_of_unknown_method (hcall : Call.read? text.toList = some call)
    (hlength : (arguments call.arguments).length ≤ 2) (hne : [] ∉ arguments call.arguments)
    (hliterals : ∀ a ∈ arguments call.arguments, ∃ v, Literal.parse (String.ofList a) = .ok v)
    (hmethod : Text.sameIgnoringCase (String.ofList call.method) "find" = false) :
    ((arguments call.arguments)[1]? = none →
      parse text = .error (.unsupportedMethod "MongoDB" (String.ofList call.method))) ∧
    ∀ a v, (arguments call.arguments)[1]? = some a → Literal.parse (String.ofList a) = .ok v →
      ((∃ members, v = .object members ∧ ∀ m ∈ members, isFieldPath m.1 = true) →
        parse text = .error (.unsupportedMethod "MongoDB" (String.ofList call.method))) ∧
      ∀ e, projectionFault? v = some e → parse text = .error e := by
  have hcheck := checkArguments_eq_ok hlength hne
  have hfilter := filterDocument_eq_ok hliterals
  constructor
  · intro hnone
    have hwanted : wantedProjection (arguments call.arguments) = succeedUnless none none := by
      rw [wantedProjection, hnone]
      rfl
    exact parse_eq_error_of_method hcall hcheck hfilter hmethod hwanted
  · intro a v ha hv
    obtain ⟨fields, hfields⟩ := projection_eq v
    have hwanted : wantedProjection (arguments call.arguments) =
        succeedUnless (projectionFault? v) fields := by
      rw [wantedProjection, ha, ← hfields]
      simp only [hv]
      rfl
    rw [parse_eq_error_of_method hcall hcheck hfilter hmethod hwanted, ← projectionFault?_eq_none]
    exact ⟨fun h => by rw [h]; rfl, fun e h => by rw [h]; rfl⟩

end

/-! ## A method that is not reported -/

/-- Arguments that are found to be literals are literals. -/
theorem exists_parse_of_all {arguments : List (List Char)}
    (h : arguments.all (fun a => (Literal.parse (String.ofList a)).isOk) = true) :
    ∀ a ∈ arguments, ∃ v, Literal.parse (String.ofList a) = .ok v := by
  intro a ha
  have hok := List.all_eq_true.1 h a ha
  cases hparse : Literal.parse (String.ofList a) with
  | ok v => exact ⟨v, rfl⟩
  | error e =>
    rw [hparse] at hok
    exact absurd hok Bool.false_ne_true

/-- The fault of a literal as a projection. -/
theorem projectionFault?_of_parse {text : String} {v : Value} (h : Literal.parse text = .ok v) :
    projectionFault? v = (Literal.parse text).toOption.bind projectionFault? := by
  rw [h]
  rfl

/-- A call on users with two arguments. -/
def usersCall (method first second : String) : Call :=
  ⟨"db".toList, "users".toList, method.toList, first.toList ++ ',' :: second.toList⟩

/-- The document that an update takes besides its filter. It is an object, but `$set` is no
field. -/
def setDocument : String :=
  "\x7b$set: \x7bage: 3\x7d\x7d"

/-- An update is refused for its second argument, and a count for its method. -/
theorem parse_of_unknown_method_update_count :
    parse "db.users.update(\x7b_id: 1\x7d,\x7b$set: \x7bage: 3\x7d\x7d)" =
        .error (.format (.projectionField "$set")) ∧
      parse " db.users.Count ([],\x7bage: 0\x7d);" =
        .error (.unsupportedMethod "MongoDB" "Count") := by
  constructor
  · have hliterals : ∀ a ∈ arguments (usersCall "update" "\x7b_id: 1\x7d" setDocument).arguments,
        ∃ v, Literal.parse (String.ofList a) = .ok v := exists_parse_of_all (by decide +kernel)
    obtain ⟨v, hv⟩ := hliterals setDocument.toList (by decide)
    have hfault := (projectionFault?_of_parse hv).trans
      (show _ = some (.format (.projectionField "$set")) by decide +kernel)
    exact ((parse_of_unknown_method (by decide +kernel) (by decide) (by decide) hliterals
      (by decide)).2 _ v (by decide) hv).2 _ hfault
  · have hliterals : ∀ a ∈ arguments (usersCall "Count" "[]" "\x7bage: 0\x7d").arguments,
        ∃ v, Literal.parse (String.ofList a) = .ok v := exists_parse_of_all (by decide +kernel)
    obtain ⟨v, hv⟩ := hliterals "\x7bage: 0\x7d".toList (by decide)
    have hfault := (projectionFault?_of_parse hv).trans (show _ = none by decide +kernel)
    exact ((parse_of_unknown_method (by decide +kernel) (by decide) (by decide) hliterals
      (by decide)).2 _ v (by decide) hv).1 (projectionFault?_eq_none.1 hfault)

/-- Not every unknown method is reported: an update is refused as if the document that it takes
besides its filter were a projection. -/
theorem not_forall_unsupportedMethod :
    ¬ ∀ (text : String) (call : Call), Call.read? text.toList = some call →
      (arguments call.arguments).length ≤ 2 → [] ∉ arguments call.arguments →
      (∀ a ∈ arguments call.arguments, ∃ v, Literal.parse (String.ofList a) = .ok v) →
      Text.sameIgnoringCase (String.ofList call.method) "find" = false →
      parse text = .error (.unsupportedMethod "MongoDB" (String.ofList call.method)) := by
  intro h
  have hparse := h "db.users.update(\x7b_id: 1\x7d,\x7b$set: \x7bage: 3\x7d\x7d)"
    (usersCall "update" "\x7b_id: 1\x7d" setDocument) (by decide +kernel) (by decide) (by decide)
    (exists_parse_of_all (by decide +kernel)) (by decide)
  exact absurd hparse (by decide +kernel)

end FindSelect.Shell
