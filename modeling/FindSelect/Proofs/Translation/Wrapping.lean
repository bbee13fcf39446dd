import FindSelect.Proofs.Shell.Find
import FindSelect.Proofs.Sql.Singleton

/-!
# Groups with a single member

A conjunction or a disjunction of one filter is that filter. `translate_wrapped` says so of
predicates and of calls: a filter document inside any number of documents `{$and: […]}` and
`{$or: […]}` is translated to the same statement as by itself, or refused for the same reason, as
long as it is not too deep.

Each stage from the text to the statement has to let the wrapping pass. The text stays a literal,
two levels deeper (`Wrapper.writesValue`), and the statement for a wrapped document is that for the
document, also if there is none (`statementFor_members`). Both are steps, and `writesValue_wrapped`
and `statementFor_wrappedMembers` are the runs.
-/

namespace FindSelect.Shell

open Literal (Run WritesValue memberText arrayText isKeyChar)

/-! ## Wrapped documents -/

/-- The two ways to put a filter document into a group of its own. -/
inductive Wrapper where
  /-- As the only member of a conjunction. -/
  | all
  /-- As the only member of a disjunction. -/
  | any

namespace Wrapper

/-- The key of the group. -/
def key : Wrapper → Run isKeyChar
  | all => ⟨['$', 'a', 'n', 'd'], List.cons_ne_nil _ _, by decide +kernel⟩
  | any => ⟨['$', 'o', 'r'], List.cons_ne_nil _ _, by decide +kernel⟩

/-- The text of a document in a group of its own. -/
def text : Wrapper → String → String
  | all, inner => "\x7b$and: [" ++ inner ++ "]\x7d"
  | any, inner => "\x7b$or: [" ++ inner ++ "]\x7d"

/-- The members of the document with a group of its own for another one. -/
def members (w : Wrapper) (inner : List (String × Value)) : List (String × Value) :=
  [(w.key.text, .array [.object inner])]

/-- The group of a single filter. -/
def group : Wrapper → Filter → Filter
  | all, f => .allOf [f]
  | any, f => .anyOf [f]

/-- A document in a group of its own is the only item of the only member of another one. -/
theorem text_eq (w : Wrapper) (inner : String) :
    w.text inner = memberText w.key.text (arrayText [inner]) := by
  rw [← String.toList_inj]
  cases w <;> simp [text, key, memberText, arrayText, Run.text]

/-- A wrapped literal is a literal, two levels deeper. -/
theorem writesValue (w : Wrapper) {inner : String} {depth : Nat}
    {document : List (String × Value)} (h : WritesValue inner depth (.object document) True) :
    WritesValue (w.text inner) (depth + 2) (.object (w.members document)) True := by
  have hitems := Literal.WritesItems.cons h (Literal.writesItems_nil depth)
  rw [and_self] at hitems
  rw [text_eq]
  exact hitems.array.member w.key

/-- The filter of a wrapped document is the group of the filter of that document. -/
theorem filter_members (w : Wrapper) (document : List (String × Value)) :
    filter (.object (w.members document)) =
      filter (.object document) >>= fun f => .ok (w.group f) := by
  have hkeys : operator? (key all).text = some .and ∧ operator? (key any).text = some .or := by
    decide
  simp only [filter, members, bind_assoc]
  cases w with
  | all =>
    rw [parts, hkeys.1]
    simp only [groupFilters, itemFilters, parts]
    cases parts document <;> rfl
  | any =>
    rw [parts, hkeys.2]
    simp only [groupFilters, itemFilters, parts]
    cases parts document <;> rfl

end Wrapper

/-- The statement for a wrapped document is that for the document. -/
theorem statementFor_members (collection : String) (w : Wrapper)
    (document : List (String × Value)) :
    statementFor collection (.object (w.members document)) =
      statementFor collection (.object document) := by
  have hpredicate : ∀ f, Sql.predicate (w.group f) = Sql.predicate f := by
    cases w with
    | all => exact Sql.predicate_allOf_singleton
    | any => exact Sql.predicate_anyOf_singleton
  unfold statementFor
  rw [w.filter_members, bind_assoc]
  congr 1
  funext f
  show Sql.render ⟨collection, .find, w.group f, none⟩ = _
  exact Sql.render_congr (hpredicate f) _ _ _

/-! ## Any number of wrappers -/

/-- A text inside wrappers, the first of which is the outermost. -/
def wrapped (wrappers : List Wrapper) (inner : String) : String :=
  wrappers.foldr Wrapper.text inner

/-- The members of a document inside wrappers. -/
def wrappedMembers (wrappers : List Wrapper) (document : List (String × Value)) :
    List (String × Value) :=
  wrappers.foldr Wrapper.members document

/-- A literal inside wrappers is a literal, two levels deeper for each of them. -/
theorem writesValue_wrapped (wrappers : List Wrapper) {inner : String} {depth : Nat}
    {document : List (String × Value)} (h : WritesValue inner depth (.object document) True) :
    WritesValue (wrapped wrappers inner) (depth + 2 * wrappers.length)
      (.object (wrappedMembers wrappers document)) True := by
  induction wrappers with
  | nil => exact h
  | cons w wrappers ih => exact w.writesValue ih

/-- The statement for a document inside wrappers is that for the document. -/
theorem statementFor_wrappedMembers (collection : String) (wrappers : List Wrapper)
    (document : List (String × Value)) :
    statementFor collection (.object (wrappedMembers wrappers document)) =
      statementFor collection (.object document) := by
  induction wrappers with
  | nil => rfl
  | cons w wrappers ih => exact (statementFor_members collection w _).trans ih

/-- A group of one filter has the predicate of that filter, or fails as it does. An object that is a
literal, inside wrappers that do not make it too deep, is translated in a call as it is by itself:
to the same statement, or with the same error. -/
theorem translate_wrapped :
    (∀ f : Filter, Sql.predicate (.allOf [f]) = Sql.predicate f ∧
      Sql.predicate (.anyOf [f]) = Sql.predicate f) ∧
    ∀ (collection : Run Text.isWord) (text : String) (document : List (String × Value))
      (p : Literal.Phrase .value) (wrappers : List Wrapper),
      Literal.read text = .ok (.object document) → p.Writes text.toList →
      p.depth + 2 * wrappers.length ≤ 128 →
      Translator.mongoToSql.translate (findCall collection.text (wrapped wrappers text)) =
        Translator.mongoToSql.translate (findCall collection.text text) := by
  refine ⟨fun f => ⟨Sql.predicate_allOf_singleton f, Sql.predicate_anyOf_singleton f⟩, ?_⟩
  intro collection text document p wrappers hread hp hdepth
  have hwrites := Literal.writesValue_of_read hread hp
  rw [translate_object collection (writesValue_wrapped wrappers hwrites) hdepth trivial,
    translate_object collection hwrites ((Nat.le_add_right _ _).trans hdepth) trivial,
    statementFor_wrappedMembers]

/-- A document whose statement cannot be written is refused for the same reason inside two wrappers,
and one without conditions selects everything inside them as well. -/
theorem translate_wrapped_refused_vacuous :
    Translator.mongoToSql.translate
          "db.c.find(\x7b$or: [\x7b$and: [\x7ba: \x7b$gt: [1]\x7d\x7d ]\x7d]\x7d)" =
        .error (.invalidCondition "a" (.listOperand .gt)) ∧
      Translator.mongoToSql.translate
          "db.c.find(\x7b$or: [\x7b$and: [\x7ba: \x7b\x7d\x7d]\x7d]\x7d)" =
        .ok "SELECT * FROM c;" := by
  let collection : Run Text.isWord := ⟨['c'], List.cons_ne_nil _ _, by decide +kernel⟩
  -- A text that is read as an object and has room for four more levels.
  have hwrapped : ∀ text, (Literal.read text).toOption.map Value.kind = some .object →
      Literal.staysWithin 124 .outside 0 text.toList = true →
      Translator.mongoToSql.translate (findCall collection.text (wrapped [.any, .all] text)) =
        Translator.mongoToSql.translate (findCall collection.text text) := by
    intro text hkind hscan
    obtain ⟨v, hv, hobject⟩ := Option.map_eq_some_iff.1 hkind
    have hread : Literal.read text = .ok v := by
      cases hresult : Literal.read text <;> simp_all [Except.toOption]
    obtain ⟨p, hp⟩ := Literal.isLiteral_of_read hread
    have hdepth : p.depth + 2 * 2 ≤ 128 := by
      rw [hp.staysWithin, decide_eq_true_eq] at hscan
      omega
    cases v with
    | object document => exact translate_wrapped.2 collection text document p _ hread hp hdepth
    | null | bool b | number n | string s | array items =>
      exact absurd hobject (by simp [Value.kind])
  constructor
  · exact (hwrapped "\x7ba: \x7b$gt: [1]\x7d\x7d " (by decide +kernel) (by decide +kernel)).trans
      (by decide +kernel)
  · exact (hwrapped "\x7ba: \x7b\x7d\x7d" (by decide +kernel) (by decide +kernel)).trans
      (by decide +kernel)

end FindSelect.Shell
