import FindSelect.Proofs.FirstFault
import FindSelect.Shell.Parse

/-!
# How a query is read

A text is read as a query if every step of reading it succeeds. `parse_eq_ok` names the steps with
what each of them comes to, so that no proof about queries has to go through the reader again.
`parts_cons_eq_ok` does the same for a member of a filter document.
-/

namespace FindSelect.Shell

/-- A list of arguments without an empty one has none that is found to be empty. -/
theorem emptyArgument?_eq_none {arguments : List (List Char)} (hne : [] ∉ arguments)
    (position : Nat) : emptyArgument? position arguments = none := by
  induction arguments generalizing position with
  | nil => rfl
  | cons argument rest ih =>
    cases argument with
    | nil => exact absurd List.mem_cons_self hne
    | cons c argument => exact ih (fun h => hne (List.mem_cons_of_mem _ h)) (position + 1)

/-- At most two arguments with something in each are accepted. -/
theorem checkArguments_eq_ok {arguments : List (List Char)} (hlength : arguments.length ≤ 2)
    (hne : [] ∉ arguments) : checkArguments arguments = .ok () := by
  rw [checkArguments, if_neg (Nat.not_lt.2 hlength), emptyArgument?_eq_none hne]

/-- A text is read as a query if it is a call with acceptable arguments from which, with the method
that is called, the parts of the query are read. -/
theorem parse_eq_ok {text : String} {q : Query} :
    parse text = .ok q ↔ ∃ call, Call.read? text.toList = some call ∧
      checkArguments (arguments call.arguments) = .ok () ∧
      (filterDocument (arguments call.arguments) >>= filter) = .ok q.filter ∧
      wantedProjection (arguments call.arguments) = .ok q.projection ∧
      method (String.ofList call.method) = .ok q.method ∧
      q.collection = String.ofList call.collection := by
  unfold parse
  cases hcall : Call.read? text.toList with
  | none => simp
  | some call =>
    simp only [bind_eq_ok, Option.some.injEq, exists_eq_left']
    constructor
    · rintro ⟨⟨⟩, hcheck, document, hdocument, wanted, hwanted, m, hm, f, hf, hq⟩
      obtain rfl := Except.ok.inj hq
      exact ⟨hcheck, ⟨document, hdocument, hf⟩, hwanted, hm, rfl⟩
    · rintro ⟨hcheck, ⟨document, hdocument, hf⟩, hwanted, hm, hcollection⟩
      refine ⟨(), hcheck, document, hdocument, _, hwanted, _, hm, _, hf, ?_⟩
      rw [← hcollection]
      rfl

/-- The parts of a document are those of its members but the first, with what the first one adds:
the filters of a conjunction under `$and`, those of a disjunction under `$or`, and a field under any
other key. -/
theorem parts_cons_eq_ok {key : String} {v : Value} {rest : List (String × Value)} {p : Parts}
    (h : parts ((key, v) :: rest) = .ok p) :
    ∃ others, parts rest = .ok others ∧
      ((key = "$and" ∧ ∃ filters, groupFilters key v = .ok filters ∧
          p = { others with conj := others.conj <|> some filters }) ∨
        (key = "$or" ∧ ∃ filters, groupFilters key v = .ok filters ∧
          p = { others with disj := others.disj <|> some filters }) ∨
        (key ≠ "$and" ∧ key ≠ "$or" ∧ ∃ f, fieldFilter key v = .ok f ∧
          p = { others with fields := f :: others.fields })) := by
  rw [parts] at h
  split at h
  · next hkey =>
    obtain ⟨filters, hfilters, h⟩ := bind_eq_ok.1 h
    obtain ⟨others, hothers, h⟩ := bind_eq_ok.1 h
    exact ⟨others, hothers, .inl ⟨(token_of_operator? hkey).symm, filters, hfilters,
      (Except.ok.inj h).symm⟩⟩
  · next hkey =>
    obtain ⟨filters, hfilters, h⟩ := bind_eq_ok.1 h
    obtain ⟨others, hothers, h⟩ := bind_eq_ok.1 h
    exact ⟨others, hothers, .inr (.inl ⟨(token_of_operator? hkey).symm, filters, hfilters,
      (Except.ok.inj h).symm⟩)⟩
  · next hand hor =>
    obtain ⟨f, hf, h⟩ := bind_eq_ok.1 h
    obtain ⟨others, hothers, h⟩ := bind_eq_ok.1 h
    have hkeys : key ≠ "$and" ∧ key ≠ "$or" := by
      constructor
      · rintro rfl
        exact hand (operator?_token .and)
      · rintro rfl
        exact hor (operator?_token .or)
    exact ⟨others, hothers, .inr (.inr ⟨hkeys.1, hkeys.2, f, hf, (Except.ok.inj h).symm⟩)⟩

end FindSelect.Shell
