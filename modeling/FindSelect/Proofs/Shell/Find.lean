import FindSelect.Proofs.Literal.Assembly
import FindSelect.Proofs.Shell.Call
import FindSelect.Translator

/-!
# Calls that find documents

The plain call `db.c.find(…)`, without blanks and without a semicolon, and with one argument.
`translate_findCall` follows it from its text to the statement: if the argument is a literal, it is
the only argument whatever it holds, and the statement is that of the filter which its value writes.
For an object there are two cases: `translate_object` if its numbers can be represented, and
`translate_object_of_not` if they cannot.
-/

namespace FindSelect.Shell

open Literal (Run IsLiteral WritesValue maxDepth)

/-- The call that finds documents of a collection, with the given argument list. -/
def findCall (collection arguments : String) : String :=
  "db." ++ collection ++ ".find(" ++ arguments ++ ")"

/-- The parts of the call are found again. -/
theorem read?_findCall (collection : Run Text.isWord) (arguments : String) :
    Call.read? (findCall collection.text arguments).toList =
      some ⟨['d', 'b'], collection.chars, ['f', 'i', 'n', 'd'], arguments.toList⟩ := by
  let w : WrittenCall := {
    lead := ⟨[], List.all_nil⟩
    database := ⟨['d', 'b'], List.cons_ne_nil _ _, by decide +kernel⟩
    collection := collection
    method := ⟨['f', 'i', 'n', 'd'], List.cons_ne_nil _ _, by decide +kernel⟩
    gap := ⟨[], List.all_nil⟩
    arguments := arguments.toList
    closing := ⟨⟨[], List.all_nil⟩, false, ⟨[], List.all_nil⟩⟩ }
  have htext : (findCall collection.text arguments).toList = w.text := by
    simp [findCall, w, WrittenCall.text, WrittenCall.front, Closing.text, Run.text]
  rw [htext]
  exact read?_text w

/-- The statement for the documents of a collection that a filter document selects. -/
def statementFor (collection : String) (document : Value) : Except Error String := do
  Sql.render ⟨collection, .find, ← filter document, none⟩

/-- A literal is the only argument of a call. -/
theorem arguments_of_isLiteral {text : List Char} (h : IsLiteral text) :
    arguments text = [Text.trim text] := by
  have hall : ∀ t ∈ [text], IsLiteral t := List.forall_mem_singleton.2 h
  have hjoined := arguments_intercalate hall
  rwa [List.intercalate_singleton] at hjoined

/-- A call with a literal for its argument is read as the value of that literal says. -/
theorem parse_findCall (collection : Run Text.isWord) {argument : String}
    (h : IsLiteral argument.toList) :
    parse (findCall collection.text argument) =
      Literal.parse (String.ofList (Text.trim argument.toList)) >>= fun document =>
        filter document >>= fun f => .ok ⟨collection.text, .find, f, none⟩ := by
  have hne : Text.trim argument.toList ≠ [] := by
    rw [ne_eq, Text.trim_eq_nil, h.not_blank]
    exact Bool.false_ne_true
  have hcheck : checkArguments [Text.trim argument.toList] = .ok () :=
    checkArguments_eq_ok (by simp) (by simpa using hne.symm)
  have hmethod : method (String.ofList ['f', 'i', 'n', 'd']) = .ok .find := by decide +kernel
  have hdocument : filterDocument [Text.trim argument.toList] =
      Literal.parse (String.ofList (Text.trim argument.toList)) := rfl
  have hprojection : wantedProjection [Text.trim argument.toList] = .ok none := rfl
  unfold parse
  rw [read?_findCall]
  simp only [arguments_of_isLiteral h, hcheck, hdocument, hprojection, hmethod]
  generalize Literal.parse (String.ofList (Text.trim argument.toList)) = document
  cases document <;> rfl

/-- A call with a literal for its argument is translated as the value of that literal says. -/
theorem translate_findCall (collection : Run Text.isWord) {argument : String}
    (h : IsLiteral argument.toList) :
    Translator.mongoToSql.translate (findCall collection.text argument) =
      Literal.parse (String.ofList (Text.trim argument.toList)) >>=
        statementFor collection.text := by
  have htranslate : ∀ text, Translator.mongoToSql.translate text = parse text >>= Sql.render :=
    fun _ => rfl
  rw [htranslate, parse_findCall collection h, bind_assoc]
  congr 1
  funext document
  rw [bind_assoc]
  rfl

section

variable {text : String} {depth : Nat} {document : List (String × Value)} {fits : Prop}

/-- A call with an object for its argument comes to the statement for that object. -/
theorem translate_object (collection : Run Text.isWord)
    (h : WritesValue text depth (.object document) fits) (hdepth : depth ≤ maxDepth)
    (hfits : fits) :
    Translator.mongoToSql.translate (findCall collection.text text) =
      statementFor collection.text (.object document) := by
  rw [translate_findCall collection h.exists_writes, h.trim.parse hdepth hfits]
  rfl

/-- A call with an object for its argument is refused if a number of the object cannot be
represented. -/
theorem translate_object_of_not (collection : Run Text.isWord)
    (h : WritesValue text depth (.object document) fits) (hdepth : depth ≤ maxDepth)
    (hfits : ¬ fits) :
    ∃ diagnosis, Translator.mongoToSql.translate (findCall collection.text text) =
      .error (.format (.notALiteral diagnosis)) := by
  obtain ⟨diagnosis, hparse⟩ := h.trim.parse_of_not hdepth hfits
  refine ⟨diagnosis, ?_⟩
  rw [translate_findCall collection h.exists_writes, hparse]
  rfl

end

end FindSelect.Shell
