import FindSelect.Proofs.Shell.RoundTrip
import FindSelect.Proofs.Sql.Singleton

/-!
# Integers from the call to the statement

An integer is written with as many digits as one likes, with leading zeros and with a minus sign,
also before zero. `translate_integer` says that its value stands in the statement, in the one way in
which integers are written there, if it can be represented in 64 bits with or without a sign, and
that the call is refused otherwise. There is no third case: no integer is cut down to fewer bits,
and none is read as a binary number. The same holds of an integer among the values of `$in`,
whatever the others are.
-/

namespace FindSelect

/-! ## Integers as they are written -/

namespace Literal

/-- An integer as it is written: digits, perhaps behind a minus sign. -/
structure WrittenInteger where
  /-- Whether there is a minus sign. -/
  negative : Bool
  /-- The digits, of which the first ones may be zeros. -/
  digits : Digits

namespace WrittenInteger

/-- The text of an integer. -/
def text (s : WrittenInteger) : String :=
  String.ofList ((if s.negative then ['-'] else []) ++ s.digits.chars)

/-- The value of an integer. -/
def value (s : WrittenInteger) : Int :=
  if s.negative then -(Decimal.ofDigits s.digits.chars) else Decimal.ofDigits s.digits.chars

/-- An integer is a literal that stands for its value. -/
theorem writesValue (s : WrittenInteger) :
    WritesValue s.text 0 (.number (.integer s.value))
      (-2 ^ 63 ≤ s.value ∧ s.value ≤ 2 ^ 64 - 1) := by
  let w : WrittenNumeral := ⟨s.negative, s.digits, none, none⟩
  have hinteger : w.numeral.IsInteger := ⟨rfl, rfl⟩
  have hderives : Derives (.number w.numeral) w.text := .number w
  refine ⟨.number w.numeral, hderives.writes ?_, Nat.le_refl 0,
    ⟨.integer s.value, ⟨hinteger, rfl⟩, rfl⟩, ?_⟩
  · simp [text, w, WrittenNumeral.text]
  · -- The only number of the literal is the integer itself.
    have hrange : w.numeral.InRange ↔ -2 ^ 63 ≤ s.value ∧ s.value ≤ 2 ^ 64 - 1 :=
      ⟨fun h => h.1 hinteger, fun h => ⟨fun _ => h, fun hnot => absurd hinteger hnot⟩⟩
    simpa [Phrase.InRange, Phrase.numerals] using hrange

end WrittenInteger

/-- A text that is read as a scalar is a literal without containers. -/
theorem writesValue_of_scalar {text : String} {v : Scalar}
    (h : parse text = .ok (Shell.scalarValue v)) :
    WritesValue text 0 (Shell.scalarValue v) True := by
  obtain ⟨⟨lead, label, tree, trail⟩, hvalue, htext, -⟩ := parse_eq_ok.1 h
  have hdepth : tree.depth ≤ 0 := by
    cases tree with
    | null | bool b | number w n h | string q => exact Nat.le_refl 0
    | container k lead items trail => cases k <;> cases v <;> cases hvalue
  refine ⟨tree.phrase, htext ▸ Entry.writes ⟨lead, label, tree, trail⟩, ?_, hvalue ▸ tree.denotes,
    iff_true_intro tree.inRange⟩
  rwa [tree.depth_phrase]

end Literal

/-- The text of an integer is its canonical decimal. -/
theorem Number.toText_integer (z : Int) : (Number.integer z).toText = toString z := by
  rw [← String.toList_inj]
  cases z with
  | ofNat n =>
    have hpos : ¬ Int.ofNat n < 0 := Int.not_lt.2 (Int.natCast_nonneg n)
    simp only [Number.toText, Number.integerText, if_neg hpos]
    rfl
  | negSucc n =>
    simp only [Number.toText, Number.integerText, if_pos (Int.negSucc_lt_zero n)]
    simp [toString, Int.repr, Nat.repr, Decimal.digits]

/-! ## Fields without dots -/

/-- A text without dots is its only segment. -/
theorem segments_of_dot_notMem {s : List Char} (h : '.' ∉ s) : segments s = [s] := by
  induction s with
  | nil => rfl
  | cons c s ih =>
    rw [List.mem_cons, not_or] at h
    rw [segments, if_neg (Ne.symm h.1), ih h.2]

namespace Shell

open Literal (Run WrittenInteger WritesValue memberText arrayText isKeyChar maxDepth)

/-- A run of field characters is a field path. -/
theorem isFieldPath_run (field : Run isFieldChar) : isFieldPath field.text = true := by
  have hdot : '.' ∉ field.chars := fun hmem =>
    absurd (List.all_eq_true.1 field.all '.' hmem) (by decide +kernel)
  rw [isFieldPath, Run.text, String.toList_ofList, segments_of_dot_notMem hdot]
  simp [field.ne_nil, field.all]

/-- A run of field characters is a key without quotes. -/
def fieldKey (field : Run isFieldChar) : Run isKeyChar where
  chars := field.chars
  ne_nil := field.ne_nil
  all := List.all_eq_true.2 fun c hc => by simp [isKeyChar, List.all_eq_true.1 field.all c hc]

/-- The key of the operator that compares with several values. -/
def inKey : Run isKeyChar :=
  ⟨['$', 'i', 'n'], List.cons_ne_nil _ _, by decide +kernel⟩

/-! ## Statements -/

section

variable {collection : String}

/-- The statement for a document that is read as one comparison of a field. -/
theorem statementFor_comparison (hcollection : isFieldPath collection = true)
    {field : Run isFieldChar} {document : Value} {op : Operator} {operand : Operand} {s : String}
    (hfilter : filter document = .ok (.fields [⟨field.text, ⟨[(op, operand)]⟩⟩]))
    (hcomparison : Sql.comparison field.text op operand = .ok (field.text ++ s)) :
    statementFor collection document =
      .ok ("SELECT * FROM " ++ collection ++ " WHERE " ++ field.text ++ s ++ ";") := by
  have hpredicate := (Sql.predicate_comparison field.text op operand).trans hcomparison
  have hne : field.text ++ s ≠ "" := by
    rw [ne_eq, ← String.toList_inj]
    simp [Run.text, field.ne_nil]
  unfold statementFor
  rw [hfilter]
  refine (Sql.render_of_predicate hcollection hpredicate hne).trans (congrArg Except.ok ?_)
  simp only [String.append_assoc]

/-- The statement for documents in which a field equals a number. -/
theorem statementFor_number (hcollection : isFieldPath collection = true)
    (field : Run isFieldChar) (n : Number) :
    statementFor collection (.object [(field.text, .number n)]) =
      .ok ("SELECT * FROM " ++ collection ++ " WHERE " ++ field.text ++ " = " ++ n.toText ++
        ";") := by
  have hfield := isFieldPath_run field
  have hname : Sql.checkName field.text = .ok () := if_pos hfield
  have hfilter : filter (.object [(field.text, .number n)]) =
      .ok (.fields [⟨field.text, ⟨[(.eq, .one (.number n))]⟩⟩]) := by
    rw [filter, parts, operator?_of_isFieldPath hfield]
    simp only [fieldFilter, if_pos hfield]
    rfl
  have hcomparison : Sql.comparison field.text .eq (.one (.number n)) =
      .ok (field.text ++ (" = " ++ n.toText)) := by
    unfold Sql.comparison
    rw [hname]
    refine congrArg Except.ok ?_
    simp only [Sql.token, Sql.scalar, String.append_assoc]
    rfl
  rw [statementFor_comparison hcollection hfilter hcomparison]
  simp only [String.append_assoc]

/-- The statement for documents in which a field is one of several values. -/
theorem statementFor_among (hcollection : isFieldPath collection = true)
    (field : Run isFieldChar) (values : List Scalar) :
    statementFor collection
        (.object [(field.text, .object [("$in", .array (values.map scalarValue))])]) =
      .ok ("SELECT * FROM " ++ collection ++ " WHERE " ++ field.text ++ " IN (" ++
        ", ".intercalate (values.map Sql.scalar) ++ ");") := by
  have hfield := isFieldPath_run field
  have hname : Sql.checkName field.text = .ok () := if_pos hfield
  -- This is how a filter with a list of values is written for the shell.
  let f : FieldFilter := ⟨field.text, ⟨[(.member, .many values)]⟩⟩
  have hfilter : filter (document (.fields [f])) = .ok (.fields [f]) := by
    refine filter_document ⟨List.nodup_singleton _, ?_⟩
    rw [List.forall_mem_singleton]
    exact ⟨hfield, List.nodup_singleton _, by simp [f, Operator.isLogical]⟩
  have hcomparison : Sql.comparison field.text .member (.many values) =
      .ok (field.text ++ (" IN " ++ Sql.scalarList values)) := by
    unfold Sql.comparison
    rw [hname, ← String.append_assoc]
    rfl
  refine (statementFor_comparison hcollection hfilter hcomparison).trans (congrArg Except.ok ?_)
  rw [← String.toList_inj]
  simp [Sql.scalarList]

end

/-! ## Calls -/

/-- An object in which a field equals an integer is a literal. -/
theorem writesValue_equality (field : Run isFieldChar) (s : WrittenInteger) :
    WritesValue (memberText field.text s.text) 1
      (.object [(field.text, .number (.integer s.value))])
      (-2 ^ 63 ≤ s.value ∧ s.value ≤ 2 ^ 64 - 1) :=
  s.writesValue.member (fieldKey field)

/-- An object in which a field is an integer or one of other scalars is a literal, and its numbers
can be represented if the integer can be. -/
theorem writesValue_among (field : Run isFieldChar) (s : WrittenInteger)
    {before after : List (String × Scalar)}
    (hitems : ∀ i ∈ before ++ after, Literal.parse i.1 = .ok (scalarValue i.2)) :
    WritesValue
      (memberText field.text (memberText "$in"
        (arrayText (before.map Prod.fst ++ s.text :: after.map Prod.fst)))) 3
      (.object [(field.text, .object [("$in", .array ((before.map Prod.snd ++
        .number (.integer s.value) :: after.map Prod.snd).map scalarValue))])])
      (-2 ^ 63 ≤ s.value ∧ s.value ≤ 2 ^ 64 - 1) := by
  -- The scalars before and behind the integer are literals with their values.
  have hscalars : ∀ {items : List (String × Scalar)},
      (∀ i ∈ items, Literal.parse i.1 = .ok (scalarValue i.2)) →
      ∀ i ∈ items.map (Prod.map id scalarValue), WritesValue i.1 0 i.2 True := by
    intro items hitems i hi
    obtain ⟨j, hj, rfl⟩ := List.mem_map.1 hi
    exact Literal.writesValue_of_scalar (hitems j hj)
  rw [List.forall_mem_append] at hitems
  have hafter := (Literal.writesItems_nil 0).prepend (hscalars hitems.2)
  have hitem := Literal.WritesItems.cons s.writesValue hafter
  have hall := hitem.prepend (hscalars hitems.1)
  have hobject := (hall.array.member inKey).member (fieldKey field)
  simpa [List.map_map, Function.comp_def, scalarValue, inKey, Run.text, fieldKey] using hobject

/-- An integer is exact from the call to the statement. Any run of digits, perhaps behind a minus
sign, stands for an integer. If that can be represented in 64 bits with or without a sign, the
statement compares the field with its canonical decimal, and the same decimal stands in its place
among the values of `$in`. Otherwise both calls are refused as texts that are no literals. -/
theorem translate_integer (collection : Run Text.isWord) (field : Run isFieldChar)
    (s : WrittenInteger) (before after : List (String × Scalar))
    (hcollection : isFieldPath collection.text = true)
    (hitems : ∀ i ∈ before ++ after, Literal.parse i.1 = .ok (scalarValue i.2)) :
    (-2 ^ 63 ≤ s.value ∧ s.value ≤ 2 ^ 64 - 1 →
      Translator.mongoToSql.translate
          (findCall collection.text (memberText field.text s.text)) =
        .ok ("SELECT * FROM " ++ collection.text ++ " WHERE " ++ field.text ++ " = " ++
          toString s.value ++ ";") ∧
      Translator.mongoToSql.translate
          (findCall collection.text (memberText field.text (memberText "$in"
            (arrayText (before.map Prod.fst ++ s.text :: after.map Prod.fst))))) =
        .ok ("SELECT * FROM " ++ collection.text ++ " WHERE " ++ field.text ++ " IN (" ++
          ", ".intercalate (before.map (fun i => Sql.scalar i.2) ++
            toString s.value :: after.map fun i => Sql.scalar i.2) ++ ");")) ∧
    (¬ (-2 ^ 63 ≤ s.value ∧ s.value ≤ 2 ^ 64 - 1) →
      (∃ diagnosis, Translator.mongoToSql.translate
          (findCall collection.text (memberText field.text s.text)) =
        .error (.format (.notALiteral diagnosis))) ∧
      ∃ diagnosis, Translator.mongoToSql.translate
          (findCall collection.text (memberText field.text (memberText "$in"
            (arrayText (before.map Prod.fst ++ s.text :: after.map Prod.fst))))) =
        .error (.format (.notALiteral diagnosis))) := by
  have hone : 1 ≤ maxDepth := by decide
  have hthree : 3 ≤ maxDepth := by decide
  have hequality := writesValue_equality field s
  have hamong := writesValue_among field s hitems
  constructor
  · intro hrange
    constructor
    · rw [translate_object collection hequality hone hrange,
        statementFor_number hcollection, Number.toText_integer]
    · rw [translate_object collection hamong hthree hrange, statementFor_among hcollection]
      simp [Sql.scalar, Number.toText_integer, Function.comp_def]
  · intro hrange
    exact ⟨translate_object_of_not collection hequality hone hrange,
      translate_object_of_not collection hamong hthree hrange⟩

/-- A text is read as the value of a scalar if its value can be taken for that scalar. Of the two
only scalars can be compared. -/
theorem parse_of_scalar {text : String} {v : Scalar}
    (h : (Literal.parse text >>= scalar "") = .ok v) :
    Literal.parse text = .ok (scalarValue v) := by
  obtain ⟨value, hvalue, hv⟩ := bind_eq_ok.1 h
  rw [hvalue]
  cases value with
  | null | bool b | number n | string s =>
    obtain rfl := Except.ok.inj hv
    rfl
  | array items | object members => exact absurd hv (by simp [scalar])

/-- The least integer with leading zeros is exact, by itself and between other values, and the first
one above the range is refused. -/
theorem translate_integer_bounds :
    Translator.mongoToSql.translate "db.c.find(\x7baño: -009223372036854775808\x7d)" =
        .ok "SELECT * FROM c WHERE año = -9223372036854775808;" ∧
      Translator.mongoToSql.translate
          "db.c.find(\x7baño: \x7b$in: [ 'x' , -009223372036854775808, null]\x7d\x7d)" =
        .ok "SELECT * FROM c WHERE año IN ('x', -9223372036854775808, NULL);" ∧
      ∃ diagnosis, Translator.mongoToSql.translate "db.c.find(\x7baño: 18446744073709551616\x7d)" =
        .error (.format (.notALiteral diagnosis)) := by
  let collection : Run Text.isWord := ⟨['c'], List.cons_ne_nil _ _, by decide +kernel⟩
  let field : Run isFieldChar := ⟨['a', 'ñ', 'o'], List.cons_ne_nil _ _, by decide +kernel⟩
  let least : WrittenInteger :=
    ⟨true, ⟨"009223372036854775808".toList, by decide, by decide⟩⟩
  let above : WrittenInteger :=
    ⟨false, ⟨"18446744073709551616".toList, by decide, by decide⟩⟩
  have hitems : ∀ i ∈ [(" 'x' ", Scalar.string "x")] ++ [("null", Scalar.null)],
      Literal.parse i.1 = .ok (scalarValue i.2) := by
    rw [List.singleton_append, List.forall_mem_cons, List.forall_mem_singleton]
    exact ⟨parse_of_scalar (by decide +kernel), parse_of_scalar (by decide +kernel)⟩
  have hcollection : isFieldPath collection.text = true := by decide +kernel
  obtain ⟨hequality, hamong⟩ :=
    (translate_integer collection field least _ _ hcollection hitems).1 (by decide +kernel)
  obtain ⟨hrefused, -⟩ :=
    (translate_integer collection field above _ _ hcollection hitems).2 (by decide +kernel)
  refine ⟨?_, ?_, ?_⟩
  · rw [show "db.c.find(\x7baño: -009223372036854775808\x7d)" =
      findCall collection.text (memberText field.text least.text) by decide +kernel, hequality]
    decide +kernel
  · rw [show "db.c.find(\x7baño: \x7b$in: [ 'x' , -009223372036854775808, null]\x7d\x7d)" =
      findCall collection.text (memberText field.text (memberText "$in"
        (arrayText [" 'x' ", least.text, "null"]))) by decide +kernel]
    exact hamong.trans (by decide +kernel)
  · rw [show "db.c.find(\x7baño: 18446744073709551616\x7d)" =
      findCall collection.text (memberText field.text above.text) by decide +kernel]
    exact hrefused

end Shell

end FindSelect
