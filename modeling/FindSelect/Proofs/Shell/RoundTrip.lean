import FindSelect.Proofs.Shell.Find
import FindSelect.Proofs.Shell.Printing

/-!
# Reading a query undoes writing it

`parse_queryText` says that a well-formed query, written as a call of the shell, is read as the same
query, whatever its strings hold. The text goes through four scans on the way: the call is taken
apart, its arguments are separated, their brackets are counted, and each of them is read. That the
scans agree on quotes and brackets is what `Nested` says of literals; here it is used for those that
are written.
-/

namespace FindSelect.Shell

open Literal (valueText Printable PrintableItems PrintableMembers Nested maxDepth)

/-! ## Conditions -/

/-- A scalar is read from its value. -/
theorem scalar_scalarValue (field : String) (v : Scalar) :
    scalar field (scalarValue v) = .ok v := by
  cases v <;> rfl

/-- An operand is read from its value. -/
theorem operand_operandValue (field : String) (o : Operand) :
    operand field (operandValue o) = .ok o := by
  cases o with
  | one v => cases v <;> rfl
  | many values =>
    have hvalues : (values.map scalarValue).mapM (scalar field) = .ok values := by
      induction values with
      | nil => rfl
      | cons v values ih => rw [List.map_cons, List.mapM_cons, scalar_scalarValue, ih]; rfl
    show (do return Operand.many (← (values.map scalarValue).mapM (scalar field))) = _
    rw [hvalues]
    rfl

/-- An operator that compares is read from its key. -/
theorem comparisonOperator_operatorKey (field : String) {op : Operator}
    (hop : op.isLogical = false) : comparisonOperator field (operatorKey op) = .ok op := by
  cases op with
  | and | or => exact absurd hop (by decide)
  | _ => rfl

/-- Comparisons with new operators are added behind those that are there. -/
theorem addComparisons_eq (field : String) (c : Condition) (comparisons : List (Operator × Operand))
    (hnodup : ((c.comparisons ++ comparisons).map Prod.fst).Nodup)
    (hops : ∀ p ∈ comparisons, p.1.isLogical = false) :
    addComparisons field c (comparisons.map fun (op, operand) =>
      (operatorKey op, operandValue operand)) = .ok ⟨c.comparisons ++ comparisons⟩ := by
  induction comparisons generalizing c with
  | nil => simp [addComparisons]
  | cons p rest ih =>
    obtain ⟨op, o⟩ := p
    rw [List.forall_mem_cons] at hops
    -- The operator is new, so it goes to the end.
    have hnew : op ∉ c.comparisons.map Prod.fst := by
      intro hmem
      rw [List.map_append, List.nodup_append] at hnodup
      exact hnodup.2.2 op hmem op (by simp) rfl
    have hinsert : (c.insert op o).comparisons = c.comparisons ++ [(op, o)] :=
      Entries.put_of_not_mem hnew o
    have hrest := ih (c.insert op o) (by simpa [hinsert] using hnodup) hops.2
    rw [List.map_cons, addComparisons, comparisonOperator_operatorKey field hops.1,
      operand_operandValue]
    refine Eq.trans hrest ?_
    rw [hinsert, List.append_assoc]
    rfl

/-- A field is read from its member. -/
theorem fieldFilter_fieldMember {f : FieldFilter} (hpath : isFieldPath f.field = true)
    (hcondition : f.condition.WellFormed) :
    fieldFilter (fieldMember f).1 (fieldMember f).2 = .ok f := by
  have hcomparisons := addComparisons_eq f.field .empty f.condition.comparisons
    hcondition.nodup hcondition.compares
  show fieldFilter f.field (.object _) = .ok f
  rw [fieldFilter, if_pos hpath, condition, hcomparisons]
  rfl

/-! ## Filters -/

/-- A field path is not how an operator is written. -/
theorem operator?_of_isFieldPath {name : String} (h : isFieldPath name = true) :
    operator? name = none := by
  obtain ⟨hne, hchars⟩ := chars_of_isFieldPath h
  have hdollar : '$' ∉ name.toList := fun hmem => absurd (hchars '$' hmem) (by decide +kernel)
  -- Operators are written with a dollar sign, but for equality, which is written with nothing.
  by_contra hsome
  obtain ⟨op, hop⟩ := Option.ne_none_iff_exists'.1 hsome
  have htoken := token_of_operator? hop
  cases op with
  | eq => exact hne htoken.symm
  | _ => exact hdollar (by rw [← htoken]; decide)

/-- The fields of a document are read from their members. -/
theorem parts_fieldMembers (entries : List FieldFilter)
    (h : ∀ f ∈ entries, isFieldPath f.field = true ∧ f.condition.WellFormed) :
    parts (entries.map fieldMember) = .ok ⟨entries, none, none⟩ := by
  induction entries with
  | nil => rfl
  | cons f entries ih =>
    rw [List.forall_mem_cons] at h
    have hfield := fieldFilter_fieldMember h.1.1 h.1.2
    have hkey : operator? (fieldMember f).1 = none := operator?_of_isFieldPath h.1.1
    rw [List.map_cons, parts, hkey]
    dsimp only
    rw [hfield, ih h.2]
    rfl

/-- The first list of a group is read from its member, if the members behind it can be read. -/
theorem parts_and {filters : List Filter} {rest : List (String × Value)}
    {disj : Option (List Filter)}
    (hfilters : itemFilters (operatorKey .and) (documents filters) = .ok filters)
    (hrest : parts rest = .ok ⟨[], none, disj⟩) :
    parts ((operatorKey .and, .array (documents filters)) :: rest) =
      .ok ⟨[], some filters, disj⟩ := by
  rw [parts, operator?_operatorKey (by decide)]
  dsimp only
  rw [groupFilters, hfilters, hrest]
  rfl

/-- The second list of a group is read from its member, if the members behind it can be read. -/
theorem parts_or {filters : List Filter} {rest : List (String × Value)}
    (hfilters : itemFilters (operatorKey .or) (documents filters) = .ok filters)
    (hrest : parts rest = .ok ⟨[], none, none⟩) :
    parts ((operatorKey .or, .array (documents filters)) :: rest) =
      .ok ⟨[], none, some filters⟩ := by
  rw [parts, operator?_operatorKey (by decide)]
  dsimp only
  rw [groupFilters, hfilters, hrest]
  rfl

mutual
/-- A well-formed filter is read from the members of its document. -/
theorem parts_filterMembers (f : Filter) (h : f.WellFormed) :
    ∃ p, parts (filterMembers f) = .ok p ∧ p.toFilter = f := by
  cases f with
  | fields entries => exact ⟨_, parts_fieldMembers entries h.2, rfl⟩
  | group conj disj =>
    obtain ⟨hsome, hconj, hdisj⟩ := h
    -- The conjunction is written before the disjunction, so the latter is read first.
    have hor : parts (groupMembers .or disj) = .ok ⟨[], none, disj⟩ := by
      cases disj with
      | none => rfl
      | some filters => exact parts_or (itemFilters_documents _ filters hdisj) rfl
    refine ⟨⟨[], conj, disj⟩, ?_, ?_⟩
    · cases conj with
      | none => exact hor
      | some filters => exact parts_and (itemFilters_documents _ filters hconj) hor
    · cases conj with
      | some filters => cases disj <;> rfl
      | none =>
        cases disj with
        | some filters => rfl
        | none => simp at hsome

/-- Well-formed filters are read from their documents. -/
theorem itemFilters_documents (key : String) (filters : List Filter)
    (h : Filter.ListWellFormed filters) : itemFilters key (documents filters) = .ok filters := by
  cases filters with
  | nil => rfl
  | cons f rest =>
    obtain ⟨p, hparts, hfilter⟩ := parts_filterMembers f h.1
    have hrest := itemFilters_documents key rest h.2
    rw [documents, itemFilters, hparts]
    show (do return p.toFilter :: (← itemFilters key (documents rest))) = _
    rw [hrest, hfilter]
    rfl
end

/-- A well-formed filter is read from its document. -/
theorem filter_document {f : Filter} (h : f.WellFormed) : filter (document f) = .ok f := by
  obtain ⟨p, hparts, hfilter⟩ := parts_filterMembers f h
  rw [document, filter, hparts, ← hfilter]
  rfl

/-- Distinct field paths are read from the document for them. -/
theorem projection_projectionDocument {names : List String} (hne : names ≠ [])
    (hpaths : ∀ name ∈ names, isFieldPath name = true) :
    projection (projectionDocument names) = .ok (some names) := by
  have hwanted : wantedFields (names.map fun name => (name, .number (.integer 1))) = .ok names := by
    clear hne
    induction names with
    | nil => rfl
    | cons name names ih =>
      rw [List.forall_mem_cons] at hpaths
      rw [List.map_cons, wantedFields, if_pos hpaths.1, ih hpaths.2]
      rfl
  rw [projectionDocument, projection, hwanted]
  show Except.ok (if names.isEmpty then none else some names) = _
  rw [if_neg (by simpa using hne)]

/-! ## What can be read again -/

/-- An operand whose numbers are integers in range can be read again. -/
theorem printable_operandValue {o : Operand} (h : ∀ v ∈ o.scalars, v.IsExact) :
    Printable (operandValue o) := by
  have hscalar : ∀ v : Scalar, v.IsExact → Printable (scalarValue v) := by
    intro v hv
    cases v with
    | number n => exact hv
    | _ => trivial
  cases o with
  | one v => exact hscalar v (h v (by simp [Operand.scalars]))
  | many values =>
    refine Literal.printableItems_iff.2 fun v hv => ?_
    obtain ⟨w, hw, rfl⟩ := List.mem_map.1 hv
    exact hscalar w (h w hw)

/-- The member for a field can be read again. -/
theorem printable_fieldMember {f : FieldFilter} (hcondition : f.condition.WellFormed)
    (hnumbers : ∀ c ∈ f.comparisons, ∀ v ∈ c.operand.scalars, v.IsExact) :
    Printable (fieldMember f).2 := by
  refine ⟨?_, Literal.printableMembers_iff.2 fun m hm => ?_⟩
  · have hkeys := hcondition.nodup.map operatorKey_injective
    rwa [List.map_map] at hkeys ⊢
  · obtain ⟨p, hp, rfl⟩ := List.mem_map.1 hm
    refine printable_operandValue (hnumbers ⟨f.field, p.1, p.2⟩ ?_)
    exact List.mem_map.2 ⟨p, hp, rfl⟩

mutual
/-- The document for a well-formed filter whose numbers are integers in range can be read again. -/
theorem printable_filterMembers (f : Filter) (h : f.WellFormed)
    (hnumbers : ∀ c ∈ f.comparisons, ∀ v ∈ c.operand.scalars, v.IsExact) :
    ((filterMembers f).map Prod.fst).Nodup ∧ PrintableMembers (filterMembers f) := by
  cases f with
  | fields entries =>
    refine ⟨?_, Literal.printableMembers_iff.2 fun m hm => ?_⟩
    · rw [filterMembers, List.map_map]
      exact h.1
    · obtain ⟨f, hf, rfl⟩ := List.mem_map.1 hm
      refine printable_fieldMember (h.2 f hf).2 fun c hc => hnumbers c ?_
      exact List.mem_flatMap.2 ⟨f, hf, hc⟩
  | group conj disj =>
    obtain ⟨-, hconj, hdisj⟩ := h
    rw [Filter.comparisons, List.forall_mem_append] at hnumbers
    have hand := printable_groupMembers .and conj hconj hnumbers.1
    have hor := printable_groupMembers .or disj hdisj hnumbers.2
    rw [filterMembers, Literal.printableMembers_iff, List.forall_mem_append,
      ← Literal.printableMembers_iff, ← Literal.printableMembers_iff]
    refine ⟨?_, hand, hor⟩
    cases conj <;> cases disj <;> simp [groupMembers, operatorKey_injective.eq_iff]

/-- The documents in one list of a group can be read again. -/
theorem printable_groupMembers (op : Operator) (filters : Option (List Filter))
    (h : Filter.GroupWellFormed filters)
    (hnumbers : ∀ c ∈ Filter.groupComparisons filters, ∀ v ∈ c.operand.scalars, v.IsExact) :
    PrintableMembers (groupMembers op filters) := by
  cases filters with
  | none => trivial
  | some filters => exact ⟨printable_documents filters h hnumbers, trivial⟩

/-- The documents for a list of filters can be read again. -/
theorem printable_documents (filters : List Filter) (h : Filter.ListWellFormed filters)
    (hnumbers : ∀ c ∈ Filter.listComparisons filters, ∀ v ∈ c.operand.scalars, v.IsExact) :
    PrintableItems (documents filters) := by
  cases filters with
  | nil => trivial
  | cons f rest =>
    rw [Filter.listComparisons, List.forall_mem_append] at hnumbers
    exact ⟨printable_filterMembers f h.1 hnumbers.1, printable_documents rest h.2 hnumbers.2⟩
end

/-- The document for wanted fields can be read again. -/
theorem printable_projectionDocument {names : List String} (h : names.Nodup) :
    Printable (projectionDocument names) := by
  refine ⟨?_, Literal.printableMembers_iff.2 fun m hm => ?_⟩
  · rw [List.map_map]
    simpa [Function.comp_def] using h
  · obtain ⟨name, -, rfl⟩ := List.mem_map.1 hm
    exact ⟨1, rfl, by decide⟩

/-- The document for wanted fields has one container. -/
theorem depth_projectionDocument (names : List String) :
    (projectionDocument names).depth ≤ maxDepth := by
  have hmembers : Value.membersDepth (names.map fun name => (name, .number (.integer 1))) ≤ 0 := by
    refine Value.membersDepth_le.2 fun m hm => ?_
    obtain ⟨name, -, rfl⟩ := List.mem_map.1 hm
    exact Nat.le_refl 0
  exact Nat.le_trans (Nat.succ_le_succ hmembers) (by decide)

/-! ## Arguments -/

/-- An object has no blanks at its ends. -/
theorem trim_object (quote : Char) (members : List (String × Value)) :
    Text.trim (valueText quote (.object members)) = valueText quote (.object members) := by
  rw [valueText]
  exact Text.trim_of_ends (by decide) (by decide) _

/-- A blank before an object is dropped. -/
theorem trim_blank_object (quote : Char) (members : List (String × Value)) :
    Text.trim (' ' :: valueText quote (.object members)) = valueText quote (.object members) := by
  have hblank : [' '].all Text.isBlank = true := by decide
  exact (Text.trim_append_left hblank _).trans (trim_object quote members)

/-- The brackets in the text of a value come in pairs, and no comma stands outside of them. -/
theorem nested_valueText {quote : Char} (hquote : quote ∈ ['\'', '"']) {v : Value}
    (hv : Printable v) : ∃ depth, Nested false depth (valueText quote v) := by
  obtain ⟨t, htext, -, -⟩ := Literal.exists_tree hquote v hv
  exact ⟨t.depth, htext ▸ t.nested⟩

/-- The pieces of an argument list are the documents, the second one with a blank before it. -/
theorem pieces_argumentsText {quote : Char} (hquote : quote ∈ ['\'', '"']) {q : Query}
    (hfilter : Printable (document q.filter))
    (hprojection : ∀ names ∈ q.projection, Printable (projectionDocument names)) :
    pieces .outside 0 (argumentsText quote q) =
      valueText quote (document q.filter) :: (q.projection.map fun names =>
        ' ' :: valueText quote (projectionDocument names)).toList := by
  have htexts : argumentsText quote q = [','].intercalate
      (valueText quote (document q.filter) :: (q.projection.map fun names =>
        ' ' :: valueText quote (projectionDocument names)).toList) := by
    unfold argumentsText
    cases q.projection with
    | none => simp
    | some names => simp [List.intercalate_cons_cons]
  rw [htexts]
  apply pieces_intercalate (List.cons_ne_nil _ _)
  rw [List.forall_mem_cons]
  refine ⟨nested_valueText hquote hfilter, fun text htext => ?_⟩
  obtain ⟨names, hnames, rfl⟩ : ∃ names, q.projection = some names ∧
      ' ' :: valueText quote (projectionDocument names) = text := by simpa using htext
  obtain ⟨depth, hnested⟩ := nested_valueText hquote (hprojection names hnames)
  exact ⟨_, (Literal.Blanks.mk [' '] rfl).nested.append hnested⟩

/-- The arguments of the call for a query are found again. -/
theorem arguments_argumentsText {quote : Char} (hquote : quote ∈ ['\'', '"']) {q : Query}
    (hfilter : Printable (document q.filter))
    (hprojection : ∀ names ∈ q.projection, Printable (projectionDocument names)) :
    arguments (argumentsText quote q) =
      valueText quote (document q.filter) ::
        (q.projection.map fun names => valueText quote (projectionDocument names)).toList := by
  unfold arguments
  rw [pieces_argumentsText hquote hfilter hprojection, List.map_cons, document, trim_object]
  cases q.projection with
  | none => rfl
  | some names =>
    simp only [Option.map_some, Option.toList_some, List.map_cons, List.map_nil,
      projectionDocument, trim_blank_object]
    rfl

/-! ## Calls -/

/-- The parts of the call for a query are found again. -/
theorem read?_queryText (quote : Char) {q : Query} (hne : q.collection ≠ "")
    (hword : q.collection.toList.all Text.isWord = true) :
    Call.read? (queryText quote q).toList =
      some ⟨['d', 'b'], q.collection.toList, ['f', 'i', 'n', 'd'], argumentsText quote q⟩ := by
  have hcall := read?_findCall ⟨q.collection.toList, by simpa using hne, hword⟩
    (String.ofList (argumentsText quote q))
  rwa [Literal.Run.text, String.ofList_toList, String.toList_ofList] at hcall

/-! ## Queries -/

/-- Whether a query can be written as a call of the shell. -/
structure CanBeWritten (q : Query) : Prop extends q.WellFormed where
  /-- The collection is a word. -/
  collection : q.collection ≠ "" ∧ q.collection.toList.all Text.isWord = true
  /-- The numbers of the filter are integers in range. -/
  numbers : ∀ c ∈ q.filter.comparisons, ∀ v ∈ c.operand.scalars, v.IsExact
  /-- The document for the filter is not too deep. -/
  depth : (document q.filter).depth ≤ maxDepth

/-- The projection of a query is read from the second argument. -/
theorem wantedProjection_valueText {quote : Char} (hquote : quote ∈ ['\'', '"'])
    (argument : List Char) {wanted : Option (List String)}
    (h : ∀ names ∈ wanted, names ≠ [] ∧ names.Nodup ∧ ∀ name ∈ names, isFieldPath name = true) :
    wantedProjection (argument :: (wanted.map fun names =>
      valueText quote (projectionDocument names)).toList) = .ok wanted := by
  cases wanted with
  | none => rfl
  | some names =>
    obtain ⟨hne, hnodup, hpaths⟩ := h names rfl
    have hread := Literal.parse_valueText hquote (printable_projectionDocument hnodup)
      (depth_projectionDocument names)
    show (Literal.parse (String.ofList (valueText quote (projectionDocument names))) >>=
      projection) = _
    rw [hread]
    exact projection_projectionDocument hne hpaths

/-- A query that is written as a call of the shell is read as the same query. -/
theorem parse_queryText {quote : Char} (hquote : quote ∈ ['\'', '"']) {q : Query}
    (h : CanBeWritten q) : parse (queryText quote q) = .ok q := by
  have hdocument : Printable (document q.filter) :=
    printable_filterMembers q.filter h.filter h.numbers
  have harguments := arguments_argumentsText hquote hdocument
    fun names hnames => printable_projectionDocument (h.projection names hnames).2.1
  refine parse_eq_ok.2 ⟨_, read?_queryText quote h.collection.1 h.collection.2, ?_, ?_, ?_, ?_, ?_⟩
  · -- Both arguments begin with a brace, so none is empty.
    rw [harguments]
    apply checkArguments_eq_ok
    · cases q.projection <;> simp
    · cases q.projection <;> simp [document, projectionDocument, valueText]
  · have hread := Literal.parse_valueText hquote hdocument h.depth
    rw [harguments]
    exact bind_eq_ok.2 ⟨document q.filter, hread, filter_document h.filter⟩
  · rw [harguments]
    exact wantedProjection_valueText hquote _ h.projection
  · have hfind : method (String.ofList ['f', 'i', 'n', 'd']) = .ok .find := by decide +kernel
    rw [h.method]
    exact hfind
  · exact String.ofList_toList.symm

/-- A query whose strings hold quotes, brackets, commas and backslashes. -/
def awkwardQuery : Query where
  collection := "users"
  method := .find
  filter := .group
    (some [.fields [⟨"name", ⟨[(.eq, .one (.string "a'b\"), \x7bc]\\"))]⟩⟩,
      ⟨"born.year", ⟨[(.gte, .one (.number (.integer (-7)))),
        (.member, .many [.null, .bool true])]⟩⟩],
      .group none (some [])])
    (some [.fields [⟨"name", ⟨[(.ne, .many [.string "', '", .string ")"])]⟩⟩]])
  projection := some ["name", "born.year"]

/-- The query with awkward strings can be written. -/
theorem canBeWritten_awkwardQuery : CanBeWritten awkwardQuery where
  method := rfl
  filter := by
    have hpaths : isFieldPath "name" = true ∧ isFieldPath "born.year" = true := by decide +kernel
    simp [awkwardQuery, Filter.WellFormed, Filter.GroupWellFormed, Filter.ListWellFormed, hpaths]
    exact ⟨⟨⟨by decide, by decide⟩, ⟨by decide, by decide⟩⟩, ⟨by decide, by decide⟩⟩
  projection := by
    intro names hnames
    obtain rfl := Option.some.inj hnames
    decide +kernel
  collection := by decide +kernel
  numbers := by
    simp [awkwardQuery, Filter.comparisons, Filter.groupComparisons, Filter.listComparisons,
      FieldFilter.comparisons, Operand.scalars, Scalar.IsExact]
    decide
  depth := by decide +kernel

/-- In the text for the query with awkward strings, no string is cut short. -/
theorem parse_queryText_awkwardQuery : CanBeWritten awkwardQuery ∧
    parse (queryText '\'' awkwardQuery) = .ok awkwardQuery :=
  ⟨canBeWritten_awkwardQuery, parse_queryText (by decide) canBeWritten_awkwardQuery⟩

end FindSelect.Shell
