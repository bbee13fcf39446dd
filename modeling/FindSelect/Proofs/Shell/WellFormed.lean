import FindSelect.Proofs.Literal.Acceptance
import FindSelect.Proofs.Shell.Reading
import FindSelect.Proofs.Sql.Refusal

/-!
# Queries that are read are well-formed

A text can repeat a key, put fields beside a group and nest its documents as it likes; the query
that is read from it is well-formed all the same. Distinct keys of a document become distinct
fields, the operators of a condition are written to it one by one, and a group needs two levels of
the document, the object with its key and the array, so that the bound on the depth of a literal
bounds the groups. `wellFormed_of_parse` collects this, and `parse_wellFormed` adds what follows for
the statement that is then written.
-/

namespace FindSelect

/-- The condition without comparisons is well-formed. -/
theorem Condition.wellFormed_empty : Condition.empty.WellFormed :=
  ⟨List.nodup_nil, fun _ hp => absurd hp List.not_mem_nil⟩

/-- A condition stays well-formed when a comparison is added to it. -/
theorem Condition.WellFormed.insert {c : Condition} (h : c.WellFormed) {op : Operator}
    (hop : op.isLogical = false) (operand : Operand) : (c.insert op operand).WellFormed := by
  constructor
  · show (c.insert op operand).operators.Nodup
    rw [operators_insert, ← List.concat_eq_append]
    split
    · exact h.nodup
    · next hnew => exact List.Nodup.concat hnew h.nodup
  · intro p hp
    rcases Entries.mem_put hp with rfl | hp
    · exact hop
    · exact h.compares p hp

namespace Shell

/-! ## Conditions -/

/-- An operator that is read from a key compares. -/
theorem isLogical_of_comparisonOperator {field key : String} {op : Operator}
    (h : comparisonOperator field key = .ok op) : op.isLogical = false := by
  unfold comparisonOperator at h
  split at h
  · obtain rfl := Except.ok.inj h
    rfl
  · split at h
    · exact absurd h (by simp)
    · next hop =>
      obtain rfl := Except.ok.inj h
      simpa using hop

/-- A condition stays well-formed when the comparisons of an object are added to it. -/
theorem wellFormed_of_addComparisons {field : String} {c c' : Condition}
    {members : List (String × Value)} (hc : c.WellFormed)
    (h : addComparisons field c members = .ok c') : c'.WellFormed := by
  induction members generalizing c with
  | nil =>
    obtain rfl := Except.ok.inj h
    exact hc
  | cons m members ih =>
    obtain ⟨op, hop, h⟩ := bind_eq_ok.1 h
    obtain ⟨operand, -, h⟩ := bind_eq_ok.1 h
    exact ih (hc.insert (isLogical_of_comparisonOperator hop) operand) h

/-- A condition that is read is well-formed. -/
theorem wellFormed_of_condition {field : String} {v : Value} {c : Condition}
    (h : condition field v = .ok c) : c.WellFormed := by
  unfold condition at h
  split at h
  · exact wellFormed_of_addComparisons Condition.wellFormed_empty h
  · obtain ⟨operand, -, h⟩ := bind_eq_ok.1 h
    obtain rfl := Except.ok.inj h
    exact Condition.wellFormed_empty.insert rfl operand

/-- A field that is read is the key of its member, a field path, with a well-formed condition. -/
theorem fieldFilter_eq_ok {key : String} {v : Value} {f : FieldFilter}
    (h : fieldFilter key v = .ok f) :
    f.field = key ∧ isFieldPath key = true ∧ f.condition.WellFormed := by
  unfold fieldFilter at h
  split at h
  · next hpath =>
    obtain ⟨c, hc, h⟩ := bind_eq_ok.1 h
    obtain rfl := Except.ok.inj h
    exact ⟨rfl, hpath, wellFormed_of_condition hc⟩
  · exact absurd h (by simp)

/-! ## Filters -/

/-- Whether parts are others to which a member is added: the filters of a conjunction or of a
disjunction, or a field. -/
def AddedBy (key : String) (v : Value) (others p : Parts) : Prop :=
  (∃ filters, groupFilters key v = .ok filters ∧
      p = { others with conj := others.conj <|> some filters }) ∨
    (∃ filters, groupFilters key v = .ok filters ∧
      p = { others with disj := others.disj <|> some filters }) ∨
    ∃ f, fieldFilter key v = .ok f ∧ p = { others with fields := f :: others.fields }

/-- The parts of a document are those of its members but the first, with the first one added. -/
theorem addedBy_of_parts {key : String} {v : Value} {rest : List (String × Value)} {p : Parts}
    (h : parts ((key, v) :: rest) = .ok p) :
    ∃ others, parts rest = .ok others ∧ AddedBy key v others p := by
  obtain ⟨others, hothers, hadded⟩ := parts_cons_eq_ok h
  exact ⟨others, hothers, hadded.imp And.right (Or.imp And.right fun h => h.2.2)⟩

/-- Whether the filters of a group are well-formed and are read from an array of the given depth,
one level of which is the array itself. -/
def GroupFits (depth : Nat) (filters : List Filter) : Prop :=
  Filter.ListWellFormed filters ∧ 2 * Filter.filtersDepth filters + 1 ≤ depth

/-- What the parts of a document have in common with its keys and its depth. -/
structure Parts.Fits (keys : List String) (depth : Nat) (p : Parts) : Prop where
  /-- The fields are keys of the document, in their order. -/
  sublist : (p.fields.map FieldFilter.field).Sublist keys
  /-- The fields are field paths with well-formed conditions. -/
  fields : ∀ f ∈ p.fields, isFieldPath f.field = true ∧ f.condition.WellFormed
  /-- The filters of the conjunction fit. -/
  conj : ∀ filters ∈ p.conj, GroupFits depth filters
  /-- The filters of the disjunction fit. -/
  disj : ∀ filters ∈ p.disj, GroupFits depth filters

/-- A list of a group fits in a deeper document, too. -/
theorem GroupFits.mono {depth depth' : Nat} {filters : List Filter} (h : GroupFits depth filters)
    (hle : depth ≤ depth') : GroupFits depth' filters :=
  ⟨h.1, Nat.le_trans h.2 hle⟩

/-- The parts of a document fit it, if those of its members but the first do and what the first one
adds does. -/
theorem Parts.Fits.cons {keys : List String} {depth depth' : Nat} {others p : Parts}
    (h : others.Fits keys depth) (hle : depth ≤ depth') {key : String} {v : Value}
    (hgroup : ∀ filters, groupFilters key v = .ok filters → GroupFits depth' filters)
    (hadded : AddedBy key v others p) : p.Fits (key :: keys) depth' := by
  have hkeys : (others.fields.map FieldFilter.field).Sublist (key :: keys) := h.sublist.cons key
  have hconj : ∀ filters ∈ others.conj, GroupFits depth' filters :=
    fun filters hfilters => (h.conj filters hfilters).mono hle
  have hdisj : ∀ filters ∈ others.disj, GroupFits depth' filters :=
    fun filters hfilters => (h.disj filters hfilters).mono hle
  -- A key that is there again later decides; otherwise the first member does.
  have hfirst : ∀ {lists : Option (List Filter)} {filters : List Filter},
      (∀ filters ∈ lists, GroupFits depth' filters) → groupFilters key v = .ok filters →
      ∀ filters' ∈ lists <|> some filters, GroupFits depth' filters' := by
    intro lists filters hlists hfilters
    cases lists with
    | none => exact fun filters' h' => Option.some.inj h' ▸ hgroup filters hfilters
    | some _ => exact hlists
  rcases hadded with ⟨filters, hfilters, rfl⟩ | ⟨filters, hfilters, rfl⟩ | ⟨f, hf, rfl⟩
  · exact ⟨hkeys, h.fields, hfirst hconj hfilters, hdisj⟩
  · exact ⟨hkeys, h.fields, hconj, hfirst hdisj hfilters⟩
  · obtain ⟨rfl, hpath, hcondition⟩ := fieldFilter_eq_ok hf
    refine ⟨h.sublist.cons_cons _, ?_, hconj, hdisj⟩
    exact List.forall_mem_cons.2 ⟨⟨hpath, hcondition⟩, h.fields⟩

/-- The group of two lists that fit, at least one of which is there, is well-formed, and it takes
one level of the document beside those of its lists. -/
theorem wellFormed_group {depth : Nat} {conj disj : Option (List Filter)}
    (hconj : ∀ filters ∈ conj, GroupFits depth filters)
    (hdisj : ∀ filters ∈ disj, GroupFits depth filters)
    (hsome : conj.isSome = true ∨ disj.isSome = true) :
    (Filter.group conj disj).WellFormed ∧ 2 * (Filter.group conj disj).groupDepth ≤ depth + 1 := by
  have hlist : ∀ lists : Option (List Filter), (∀ filters ∈ lists, GroupFits depth filters) →
      Filter.GroupWellFormed lists ∧ (lists.isSome = true → 1 ≤ depth) ∧
        2 * Filter.listsDepth lists ≤ depth - 1 := by
    intro lists h
    cases lists with
    | none => exact ⟨trivial, by simp, Nat.zero_le _⟩
    | some filters =>
      obtain ⟨hwell, hdepth⟩ := h filters rfl
      exact ⟨hwell, fun _ => by omega, by rw [Filter.listsDepth]; omega⟩
  obtain ⟨hwell, hone, hdepth⟩ := hlist conj hconj
  obtain ⟨hwell', hone', hdepth'⟩ := hlist disj hdisj
  refine ⟨⟨hsome, hwell, hwell'⟩, ?_⟩
  have hpositive : 1 ≤ depth := hsome.elim hone hone'
  rw [Filter.groupDepth]
  omega

/-- The parts of a document make up a list of fields, or a group of the filters that are there, with
the fields, if there are any, as the first filter of the conjunction. -/
theorem Parts.toFilter_cases (p : Parts) : p.toFilter = .fields p.fields ∨
    (p.conj.isSome = true ∨ p.disj.isSome = true) ∧
      (p.toFilter = .group p.conj p.disj ∨
        p.toFilter = .group (some (.fields p.fields :: p.conj.getD [])) p.disj) := by
  obtain ⟨fields, conj, disj⟩ := p
  cases conj <;> cases disj <;> cases fields <;> simp [Parts.toFilter]

/-- The filter of a document with distinct keys is well-formed. Every two levels of the document
allow for one group of the filter. -/
theorem Parts.Fits.toFilter {keys : List String} {depth : Nat} {p : Parts} (h : p.Fits keys depth)
    (hkeys : keys.Nodup) : p.toFilter.WellFormed ∧ 2 * p.toFilter.groupDepth ≤ depth + 1 := by
  have hfields : (Filter.fields p.fields).WellFormed := ⟨h.sublist.nodup hkeys, h.fields⟩
  rcases p.toFilter_cases with heq | ⟨hsome, heq | heq⟩
  · rw [heq]
    exact ⟨hfields, Nat.zero_le _⟩
  · rw [heq]
    exact wellFormed_group h.conj h.disj hsome
  · -- The fields have no groups of their own, so the conjunction is as deep as before.
    have hdepth : 1 ≤ depth := by
      rcases hsome with hsome | hsome
      · obtain ⟨filters, hfilters⟩ := Option.isSome_iff_exists.1 hsome
        exact Nat.le_trans (Nat.le_add_left _ _) (h.conj filters hfilters).2
      · obtain ⟨filters, hfilters⟩ := Option.isSome_iff_exists.1 hsome
        exact Nat.le_trans (Nat.le_add_left _ _) (h.disj filters hfilters).2
    have hconj : GroupFits depth (.fields p.fields :: p.conj.getD []) := by
      have hrest : GroupFits depth (p.conj.getD []) := by
        cases hp : p.conj with
        | none => exact ⟨trivial, hdepth⟩
        | some filters => exact h.conj filters hp
      refine ⟨⟨hfields, hrest.1⟩, ?_⟩
      rw [Filter.filtersDepth, Filter.groupDepth, Nat.zero_max]
      exact hrest.2
    rw [heq]
    have hsome' : ∀ filters ∈ some (.fields p.fields :: p.conj.getD []), GroupFits depth filters :=
      fun filters hfilters => Option.some.inj hfilters ▸ hconj
    exact wellFormed_group hsome' h.disj (.inl rfl)

mutual
/-- The parts of a document fit it. -/
theorem fits_of_parts : (members : List (String × Value)) → {p : Parts} →
    parts members = .ok p → Value.MembersDistinctKeys members →
    p.Fits (members.map Prod.fst) (Value.membersDepth members)
  | [], p, h, _ => by
    obtain rfl := Except.ok.inj h
    exact ⟨List.Sublist.refl _, by simp, by simp, by simp⟩
  | (key, v) :: rest, p, h, hkeys => by
    obtain ⟨others, hothers, hadded⟩ := addedBy_of_parts h
    have hrest := fits_of_parts rest hothers hkeys.2
    refine hrest.cons (Nat.le_max_right _ _) ?_ hadded
    intro filters hfilters
    exact (groupFits_of_groupFilters key v hfilters hkeys.1).mono (Nat.le_max_left _ _)

/-- The filters under a logical operator fit its array. -/
theorem groupFits_of_groupFilters (key : String) : (v : Value) → {filters : List Filter} →
    groupFilters key v = .ok filters → v.DistinctKeys → GroupFits v.depth filters
  | .array items, filters, h, hkeys => by
    obtain ⟨hwell, hdepth⟩ := fits_of_itemFilters key items h hkeys
    exact ⟨hwell, Nat.succ_le_succ hdepth⟩
  | .null, _, h, _ | .bool _, _, h, _ | .number _, _, h, _ | .string _, _, h, _
  | .object _, _, h, _ => by simp [groupFilters] at h

/-- The filters of the documents in an array are well-formed and take two levels for a group. -/
theorem fits_of_itemFilters (key : String) : (items : List Value) → {filters : List Filter} →
    itemFilters key items = .ok filters → Value.ItemsDistinctKeys items →
    Filter.ListWellFormed filters ∧ 2 * Filter.filtersDepth filters ≤ Value.itemsDepth items
  | [], filters, h, _ => by
    obtain rfl := Except.ok.inj h
    exact ⟨trivial, Nat.le_refl 0⟩
  | .object members :: rest, filters, h, hkeys => by
    obtain ⟨p, hp, h⟩ := bind_eq_ok.1 h
    obtain ⟨others, hothers, h⟩ := bind_eq_ok.1 h
    obtain rfl := Except.ok.inj h
    obtain ⟨hwell, hdepth⟩ := (fits_of_parts members hp hkeys.1.2).toFilter hkeys.1.1
    obtain ⟨hwell', hdepth'⟩ := fits_of_itemFilters key rest hothers hkeys.2
    refine ⟨⟨hwell, hwell'⟩, ?_⟩
    rw [Filter.filtersDepth, Value.itemsDepth, Value.depth]
    omega
  | .null :: _, _, h, _ | .bool _ :: _, _, h, _ | .number _ :: _, _, h, _ | .string _ :: _, _, h, _
  | .array _ :: _, _, h, _ => by simp [itemFilters] at h
end

/-- A filter that is read from a document with distinct keys is well-formed, and has a group for
every two levels of the document at most. -/
theorem wellFormed_of_filter {v : Value} {f : Filter} (h : filter v = .ok f)
    (hkeys : v.DistinctKeys) : f.WellFormed ∧ 2 * f.groupDepth ≤ v.depth := by
  unfold filter at h
  split at h
  · obtain ⟨p, hp, h⟩ := bind_eq_ok.1 h
    obtain rfl := Except.ok.inj h
    exact (fits_of_parts _ hp hkeys.2).toFilter hkeys.1
  · exact absurd h (by simp)

/-- The document of the filter has distinct keys and is not too deep, also if it is left out. -/
theorem distinctKeys_of_filterDocument {arguments : List (List Char)} {v : Value}
    (h : filterDocument arguments = .ok v) : v.DistinctKeys ∧ v.depth ≤ Literal.maxDepth := by
  unfold filterDocument at h
  split at h
  · obtain rfl := Except.ok.inj h
    exact ⟨⟨List.nodup_nil, trivial⟩, by decide⟩
  · exact ⟨Literal.distinctKeys_of_parse h, Literal.depth_of_parse h⟩

/-! ## Projections -/

/-- The wanted fields are keys of the document, in their order, and field paths. -/
theorem sublist_of_wantedFields {members : List (String × Value)} {names : List String}
    (h : wantedFields members = .ok names) :
    names.Sublist (members.map Prod.fst) ∧ ∀ name ∈ names, isFieldPath name = true := by
  induction members generalizing names with
  | nil =>
    obtain rfl := Except.ok.inj h
    exact ⟨List.Sublist.refl _, by simp⟩
  | cons m members ih =>
    obtain ⟨field, v⟩ := m
    rw [wantedFields] at h
    split at h
    · next hpath =>
      obtain ⟨others, hothers, h⟩ := bind_eq_ok.1 h
      obtain rfl := Except.ok.inj h
      obtain ⟨hsublist, hpaths⟩ := ih hothers
      split
      · exact ⟨hsublist.cons_cons field, List.forall_mem_cons.2 ⟨hpath, hpaths⟩⟩
      · exact ⟨hsublist.cons field, hpaths⟩
    · exact absurd h (by simp)

/-- A projection that is read from a document with distinct keys wants all fields, or some distinct
field paths. -/
theorem distinct_of_projection {v : Value} {wanted : Option (List String)}
    (h : projection v = .ok wanted) (hkeys : v.DistinctKeys) :
    ∀ names ∈ wanted, names ≠ [] ∧ names.Nodup ∧ ∀ name ∈ names, isFieldPath name = true := by
  intro names hnames
  unfold projection at h
  split at h
  · obtain ⟨fields, hfields, h⟩ := bind_eq_ok.1 h
    obtain rfl := Except.ok.inj h
    split at hnames
    · exact absurd hnames (by simp)
    · next hne =>
      obtain rfl := Option.some.inj hnames
      obtain ⟨hsublist, hpaths⟩ := sublist_of_wantedFields hfields
      exact ⟨by simpa using hne, hsublist.nodup hkeys.1, hpaths⟩
  · exact absurd h (by simp)

/-- The same of the projection of a list of arguments. -/
theorem distinct_of_wantedProjection {arguments : List (List Char)} {wanted : Option (List String)}
    (h : wantedProjection arguments = .ok wanted) :
    ∀ names ∈ wanted, names ≠ [] ∧ names.Nodup ∧ ∀ name ∈ names, isFieldPath name = true := by
  unfold wantedProjection at h
  split at h
  · obtain rfl := Except.ok.inj h
    simp
  · obtain ⟨v, hv, h⟩ := bind_eq_ok.1 h
    exact distinct_of_projection h (Literal.distinctKeys_of_parse hv)

/-! ## Queries -/

/-- The only method is the one that finds documents. -/
theorem eq_find_of_method {word : String} {m : Method} (h : method word = .ok m) : m = .find := by
  unfold method at h
  split at h
  · exact (Except.ok.inj h).symm
  · exact absurd h (by simp)

/-- A query that is read is well-formed, and at most 64 of its groups stand inside one another. -/
theorem wellFormed_of_parse {text : String} {q : Query} (h : parse text = .ok q) :
    q.WellFormed ∧ q.filter.groupDepth ≤ 64 := by
  obtain ⟨call, -, -, hfilter, hwanted, hmethod, -⟩ := parse_eq_ok.1 h
  obtain ⟨document, hdocument, hfilter⟩ := bind_eq_ok.1 hfilter
  obtain ⟨hkeys, hdepth⟩ := distinctKeys_of_filterDocument hdocument
  obtain ⟨hwell, hgroups⟩ := wellFormed_of_filter hfilter hkeys
  refine ⟨⟨eq_find_of_method hmethod, hwell, distinct_of_wantedProjection hwanted⟩, ?_⟩
  unfold Literal.maxDepth at hdepth
  omega

/-- A query that is read is well-formed, and no statement is written for it in two cases only: its
collection is not a field path, or a list of values stands beside an operator that takes one. -/
theorem parse_wellFormed {text : String} {q : Query} (h : parse text = .ok q) :
    q.WellFormed ∧ q.filter.groupDepth ≤ 64 ∧
      (∀ e, Sql.render q = .error e →
        (isFieldPath q.collection = false ∧ e = .invalidCondition q.collection .notAFieldPath) ∨
          ∃ c ∈ q.filter.comparisons,
            c.HasStrayList ∧ e = .invalidCondition c.field (.listOperand c.op)) ∧
      ((isFieldPath q.collection = false ∨ ∃ c ∈ q.filter.comparisons, c.HasStrayList) →
        ∃ e, Sql.render q = .error e) := by
  obtain ⟨hwell, hgroups⟩ := wellFormed_of_parse h
  exact ⟨hwell, hgroups, fun _ => Sql.render_eq_error hwell, Sql.exists_render_eq_error hwell⟩

/-- A call with keys that are repeated, fields beside a disjunction, and a list beside an operator
that takes one value. -/
def repetitiveCall : String :=
  "db.users.find(\x7b'a': 1, b: \x7b$lt: 2, $lt: [3]\x7d, " ++
    "$or: [\x7bb: null\x7d, \x7b\x7d], 'a': \"x\"\x7d, \x7ba: 1, b: 0\x7d)"

/-- The query of the call with repeated keys. -/
def repetitiveQuery : Query where
  collection := "users"
  method := .find
  filter := .group
    (some [.fields [⟨"a", ⟨[(.eq, .one (.string "x"))]⟩⟩,
      ⟨"b", ⟨[(.lt, .many [.number (.integer 3)])]⟩⟩]])
    (some [.fields [⟨"b", ⟨[(.eq, .one .null)]⟩⟩], .fields []])
  projection := some ["a"]

/-- Each key of the call with repeated keys is in its query once, and the list is refused. -/
theorem parse_wellFormed_repetitiveCall : parse repetitiveCall = .ok repetitiveQuery ∧
    repetitiveQuery.WellFormed ∧ repetitiveQuery.filter.groupDepth ≤ 64 ∧
    ∃ e, Sql.render repetitiveQuery = .error e := by
  have hparse : parse repetitiveCall = .ok repetitiveQuery := by decide +kernel
  have hstray : ∃ c ∈ repetitiveQuery.filter.comparisons, c.HasStrayList :=
    ⟨⟨"b", .lt, .many [.number (.integer 3)]⟩, List.mem_cons_of_mem _ List.mem_cons_self,
      by decide, _, rfl⟩
  obtain ⟨hwell, hgroups, -, hrefused⟩ := parse_wellFormed hparse
  exact ⟨hparse, hwell, hgroups, hrefused (.inr hstray)⟩

end Shell

end FindSelect
