import FindSelect.Proofs.Shell.Documents
import FindSelect.Proofs.Shell.Meaning
import FindSelect.Sql.Select

/-!
# The place of the logical operators among the keys

A filter document may have its logical operators before, between or behind its fields. `Rearranged`
relates documents that differ in nothing else: in an object, and in the objects of the arrays under
its logical operators, the keys may come in another order, as long as the fields keep theirs.
`filter_of_rearranged` says that the same filter is read from both.

That the other document can be read at all follows from what a filter document is, which says
nothing about the order of its members. What is read from it then depends on the order of its fields
and on the value of each logical operator alone (`parts_eq`).
-/

namespace FindSelect.Shell

/-! ## Documents in another order -/

/-- Whether a member of a document is a field, and not a logical operator. -/
def isField (m : String × Value) : Bool :=
  !decide (IsLogicalKey m.1)

/-- Whether members are in another order, in which the fields come one after another as before. -/
structure Reordered (members members' : List (String × Value)) : Prop where
  /-- The members are the same. -/
  perm : members.Perm members'
  /-- The fields are in the same order. -/
  fields : members.filter isField = members'.filter isField

mutual
/-- Whether a document becomes another one by putting members into another order, in the document
and in the documents further in. -/
inductive Rearranged : Value → Value → Prop
  | refl (v : Value) : Rearranged v v
  | object {members inner members' : List (String × Value)}
      (hinner : MembersRearranged members inner) (horder : Reordered inner members') :
      Rearranged (.object members) (.object members')

/-- Whether members become others by rearranging documents under logical operators. -/
inductive MembersRearranged : List (String × Value) → List (String × Value) → Prop
  | nil : MembersRearranged [] []
  | same (m : String × Value) {rest rest' : List (String × Value)}
      (hrest : MembersRearranged rest rest') : MembersRearranged (m :: rest) (m :: rest')
  | group {key : String} {items items' : List Value} {rest rest' : List (String × Value)}
      (hkey : IsLogicalKey key) (hitems : ItemsRearranged items items')
      (hrest : MembersRearranged rest rest') :
      MembersRearranged ((key, .array items) :: rest) ((key, .array items') :: rest')

/-- Whether each of several documents becomes another one. -/
inductive ItemsRearranged : List Value → List Value → Prop
  | nil : ItemsRearranged [] []
  | cons {v v' : Value} {rest rest' : List Value} (hfirst : Rearranged v v')
      (hrest : ItemsRearranged rest rest') : ItemsRearranged (v :: rest) (v' :: rest')
end

/-- Documents that are rearranged further in keep their keys. -/
theorem MembersRearranged.keys {members inner : List (String × Value)} :
    MembersRearranged members inner → inner.map Prod.fst = members.map Prod.fst
  | .nil => rfl
  | .same _ hrest => by rw [List.map_cons, List.map_cons, hrest.keys]
  | .group _ _ hrest => by rw [List.map_cons, List.map_cons, hrest.keys]

/-! ## The order of the members -/

/-- The filters under a logical operator of a document, if it is there and they can be read. -/
def groupOf? (key : String) (members : List (String × Value)) : Option (List Filter) :=
  (Entries.get? key members).bind fun v => (groupFilters key v).toOption

/-- There are no filters under a logical operator that is not there. -/
theorem groupOf?_of_not_mem {key : String} {members : List (String × Value)}
    (h : key ∉ members.map Prod.fst) : groupOf? key members = none := by
  rw [groupOf?, Entries.get?_of_not_mem h, Option.bind_none]

/-- The filters under a logical operator that comes first. -/
theorem groupOf?_cons_self {key : String} {v : Value} {filters : List Filter}
    (h : groupFilters key v = .ok filters) (members : List (String × Value)) :
    groupOf? key ((key, v) :: members) = some filters := by
  rw [groupOf?, Entries.get?, if_pos rfl, Option.bind_some, h]
  rfl

/-- The filters under a logical operator that does not come first. -/
theorem groupOf?_cons_of_ne {key key' : String} (h : key' ≠ key) (v : Value)
    (members : List (String × Value)) :
    groupOf? key ((key', v) :: members) = groupOf? key members := by
  rw [groupOf?, Entries.get?, if_neg h]
  rfl

/-- The parts of a document with distinct keys: the fields in their order, and the filters under
each logical operator wherever it stands. -/
theorem parts_eq {members : List (String × Value)} {p : Parts} (h : parts members = .ok p)
    (hkeys : (members.map Prod.fst).Nodup) :
    (members.filter isField).mapM (fun m => fieldFilter m.1 m.2) = .ok p.fields ∧
      p.conj = groupOf? "$and" members ∧ p.disj = groupOf? "$or" members := by
  induction members generalizing p with
  | nil =>
    obtain rfl := Except.ok.inj h
    exact ⟨rfl, rfl, rfl⟩
  | cons m members ih =>
    obtain ⟨key, v⟩ := m
    obtain ⟨others, hothers, hadded⟩ := parts_cons_eq_ok h
    rw [List.map_cons, List.nodup_cons] at hkeys
    obtain ⟨hfields, hconj, hdisj⟩ := ih hothers hkeys.2
    rcases hadded with ⟨rfl, filters, hfilters, rfl⟩ | ⟨rfl, filters, hfilters, rfl⟩ |
      ⟨hand, hor, f, hf, rfl⟩
    · -- The key is not there again, so the conjunction is that of this member.
      rw [List.filter_cons_of_neg (by simp [isField, IsLogicalKey]), groupOf?_cons_self hfilters,
        groupOf?_cons_of_ne (by decide), hconj, groupOf?_of_not_mem hkeys.1]
      exact ⟨hfields, rfl, hdisj⟩
    · rw [List.filter_cons_of_neg (by simp [isField, IsLogicalKey]), groupOf?_cons_self hfilters,
        groupOf?_cons_of_ne (by decide), hdisj, groupOf?_of_not_mem hkeys.1]
      exact ⟨hfields, hconj, rfl⟩
    · rw [List.filter_cons_of_pos (by simp [isField, IsLogicalKey, hand, hor]),
        groupOf?_cons_of_ne hand, groupOf?_cons_of_ne hor, List.mapM_cons, hf, hfields]
      exact ⟨rfl, hconj, hdisj⟩

/-- The same parts are read from members in another order. -/
theorem parts_of_reordered {members members' : List (String × Value)} {p : Parts}
    (hkeys : (members.map Prod.fst).Nodup) (h : parts members = .ok p)
    (horder : Reordered members members') : parts members' = .ok p := by
  -- Being a member of a document does not depend on the place.
  have hmember : ∀ m ∈ members, IsMember m.1 m.2 :=
    (memberViolations_eq_nil members).1 ((stopsAtFirst_parts members).exists_ok_iff.1 ⟨p, h⟩)
  have hmember' : ∀ m ∈ members', IsMember m.1 m.2 :=
    fun m hm => hmember m (horder.perm.mem_iff.2 hm)
  obtain ⟨p', h'⟩ : ∃ p', parts members' = .ok p' :=
    (stopsAtFirst_parts members').exists_ok_iff.2 ((memberViolations_eq_nil members').2 hmember')
  have hkeys' : (members'.map Prod.fst).Nodup := (horder.perm.map Prod.fst).nodup_iff.1 hkeys
  have hget : ∀ key, groupOf? key members' = groupOf? key members := fun key => by
    rw [groupOf?, groupOf?, Entries.get?_perm hkeys horder.perm]
  obtain ⟨hfields, hconj, hdisj⟩ := parts_eq h hkeys
  obtain ⟨hfields', hconj', hdisj'⟩ := parts_eq h' hkeys'
  rw [← horder.fields, hfields] at hfields'
  have hconj_eq : p.conj = p'.conj := by rw [hconj, hconj', hget]
  have hdisj_eq : p.disj = p'.disj := by rw [hdisj, hdisj', hget]
  cases p
  cases p'
  obtain rfl := Except.ok.inj hfields'
  obtain rfl := hconj_eq
  obtain rfl := hdisj_eq
  exact h'

/-! ## Documents further in -/

/-- The same parts are read if the first member adds the same and the others are the same parts. -/
theorem parts_cons_congr {key : String} {v v' : Value} {rest rest' : List (String × Value)}
    {p : Parts} (h : parts ((key, v) :: rest) = .ok p)
    (hfield : ¬ IsLogicalKey key → v' = v)
    (hgroup : ∀ filters, groupFilters key v = .ok filters → groupFilters key v' = .ok filters)
    (hrest : ∀ others, parts rest = .ok others → parts rest' = .ok others) :
    parts ((key, v') :: rest') = .ok p := by
  obtain ⟨others, hothers, hadded⟩ := parts_cons_eq_ok h
  rw [parts]
  rcases hadded with ⟨rfl, filters, hfilters, rfl⟩ | ⟨rfl, filters, hfilters, rfl⟩ |
    ⟨hand, hor, f, hf, rfl⟩
  · rw [show operator? "$and" = some .and from operator?_token .and, hgroup filters hfilters,
      hrest others hothers]
    rfl
  · rw [show operator? "$or" = some .or from operator?_token .or, hgroup filters hfilters,
      hrest others hothers]
    rfl
  · have hkey : ¬ IsLogicalKey key := by simp [IsLogicalKey, hand, hor]
    obtain ⟨hand, hor⟩ := not_or.1 (mt isLogicalKey_iff.2 hkey)
    split
    · next hop => exact absurd hop hand
    · next hop => exact absurd hop hor
    · rw [hfield hkey, hf, hrest others hothers]
      rfl

/-- The filters of several documents are those of the first and of the others. -/
theorem itemFilters_cons_eq_ok {key : String} {v : Value} {rest : List Value}
    {filters : List Filter} :
    itemFilters key (v :: rest) = .ok filters ↔ ∃ f, filter v = .ok f ∧
      ∃ others, itemFilters key rest = .ok others ∧ filters = f :: others := by
  cases v with
  | object members =>
    rw [itemFilters, filter]
    constructor
    · intro h
      obtain ⟨p, hp, h⟩ := bind_eq_ok.1 h
      obtain ⟨others, hothers, h⟩ := bind_eq_ok.1 h
      exact ⟨p.toFilter, bind_eq_ok.2 ⟨p, hp, rfl⟩, others, hothers, (Except.ok.inj h).symm⟩
    · rintro ⟨f, hf, others, hothers, rfl⟩
      obtain ⟨p, hp, hf⟩ := bind_eq_ok.1 hf
      obtain rfl := Except.ok.inj hf
      exact bind_eq_ok.2 ⟨p, hp, bind_eq_ok.2 ⟨others, hothers, rfl⟩⟩
  | null | bool _ | number _ | string _ | array _ => simp [itemFilters, filter]

mutual
/-- The same filter is read from a rearranged document. -/
theorem filter_eq_ok_of_rearranged {v v' : Value} {f : Filter} :
    Rearranged v v' → v.DistinctKeys → filter v = .ok f → filter v' = .ok f
  | .refl v, _, h => h
  | .object hinner horder, hkeys, h => by
    obtain ⟨p, hp, h⟩ := bind_eq_ok.1 h
    have hinner' := parts_of_membersRearranged hinner hkeys.2 hp
    exact bind_eq_ok.2 ⟨p, parts_of_reordered (hinner.keys ▸ hkeys.1) hinner' horder, h⟩

/-- The same parts are read from members with rearranged documents. -/
theorem parts_of_membersRearranged {members inner : List (String × Value)} {p : Parts} :
    MembersRearranged members inner → Value.MembersDistinctKeys members →
    parts members = .ok p → parts inner = .ok p
  | .nil, _, h => h
  | .same _ hrest, hkeys, h =>
    parts_cons_congr h (fun _ => rfl) (fun _ hfilters => hfilters) fun _ hothers =>
      parts_of_membersRearranged hrest hkeys.2 hothers
  | .group hkey hitems hrest, hkeys, h =>
    parts_cons_congr h (fun hfield => absurd hkey hfield)
      (fun _ hfilters => itemFilters_of_itemsRearranged hitems hkeys.1 hfilters) fun _ hothers =>
      parts_of_membersRearranged hrest hkeys.2 hothers

/-- The same filters are read from rearranged documents. -/
theorem itemFilters_of_itemsRearranged {key : String} {items items' : List Value}
    {filters : List Filter} : ItemsRearranged items items' → Value.ItemsDistinctKeys items →
    itemFilters key items = .ok filters → itemFilters key items' = .ok filters
  | .nil, _, h => h
  | .cons hfirst hrest, hkeys, h => by
    obtain ⟨f, hf, others, hothers, hfilters⟩ := itemFilters_cons_eq_ok.1 h
    exact itemFilters_cons_eq_ok.2 ⟨f, filter_eq_ok_of_rearranged hfirst hkeys.1 hf, others,
      itemFilters_of_itemsRearranged hrest hkeys.2 hothers, hfilters⟩
end

/-- The same filter is read from a document with distinct keys and from one in which logical
operators stand elsewhere among the keys, at any depth. So a query with that filter comes to the
same statement, or is refused for the same reason. -/
theorem filter_of_rearranged {v v' : Value} {f : Filter} (hkeys : v.DistinctKeys)
    (h : filter v = .ok f) (harranged : Rearranged v v') :
    filter v' = .ok f ∧ ∀ q : Query,
      (filter v' >>= fun f' => Sql.render { q with filter := f' }) =
        filter v >>= fun f' => Sql.render { q with filter := f' } := by
  have h' : filter v' = .ok f := filter_eq_ok_of_rearranged harranged hkeys h
  refine ⟨h', fun q => ?_⟩
  rw [h', h]

/-- A document with groups behind fields, also further in. -/
def scatteredDocument : Value :=
  .object [("a", .number (.integer 1)),
    ("$or", .array [.object [("b", .null), ("$and", .array [])], .object []]),
    ("c.d", .object [("$gt", .string "x")]), ("$and", .array [])]

/-- The document with its groups before its fields. -/
def gatheredDocument : Value :=
  .object [("$and", .array []),
    ("$or", .array [.object [("$and", .array []), ("b", .null)], .object []]),
    ("a", .number (.integer 1)), ("c.d", .object [("$gt", .string "x")])]

/-- The filter of both documents. -/
def scatteredFilter : Filter :=
  .group
    (some [.fields [⟨"a", ⟨[(.eq, .one (.number (.integer 1)))]⟩⟩,
      ⟨"c.d", ⟨[(.gt, .one (.string "x"))]⟩⟩]])
    (some [.group (some [.fields [⟨"b", ⟨[(.eq, .one .null)]⟩⟩]]) none, .fields []])

/-- The scattered document becomes the gathered one by moving groups to the front. -/
theorem rearranged_scatteredDocument : Rearranged scatteredDocument gatheredDocument := by
  -- First the document under `$or` is rearranged, then the whole.
  have hdocument : Rearranged (.object [("b", .null), ("$and", .array [])])
      (.object [("$and", .array []), ("b", .null)]) :=
    .object (.same _ (.same _ .nil)) ⟨.swap _ _ _, rfl⟩
  refine .object (.same _ (.group (.inr rfl) (.cons hdocument (.cons (.refl _) .nil))
    (.same _ (.same _ .nil)))) ⟨?_, rfl⟩
  exact (@List.perm_append_comm _ [_, _, _] [_]).trans (.cons _ (.swap _ _ _))

/-- The gathered document has the filter and the statement of the scattered one. -/
theorem filter_of_rearranged_scatteredDocument :
    scatteredDocument.DistinctKeys ∧ filter scatteredDocument = .ok scatteredFilter ∧
      filter gatheredDocument = .ok scatteredFilter ∧
      (filter gatheredDocument >>= fun f => Sql.render ⟨"t", .find, f, none⟩) =
        .ok "SELECT * FROM t WHERE a = 1 AND c.d > 'x' AND b IS NULL;" := by
  have hkeys : scatteredDocument.DistinctKeys := by
    simp [scatteredDocument, Value.DistinctKeys, Value.MembersDistinctKeys,
      Value.ItemsDistinctKeys]
  have hfilter : filter scatteredDocument = .ok scatteredFilter := by decide +kernel
  obtain ⟨hgathered, hstatement⟩ :=
    filter_of_rearranged hkeys hfilter rearranged_scatteredDocument
  refine ⟨hkeys, hfilter, hgathered, (hstatement ⟨"t", .find, .empty, none⟩).trans ?_⟩
  rw [hfilter]
  decide +kernel

end FindSelect.Shell
