import FindSelect.Proofs.Decimal.RoundTrip
import FindSelect.Query.Json

/-!
# JSON texts are unambiguous

A value is determined by its JSON text (`Value.json_injective`), and a query by its JSON form
(`Query.toValue_injective`), so a query is determined by its JSON text (`Query.json_eq_iff`).

That a text determines a value has to be said of a text with something behind it, since a value ends
inside another one: `SelfDelimiting`. The first character tells the kind of a value, a string ends
at the first quote that is not escaped, a number before the comma or the bracket behind it, and the
items of an array or an object one after another.

The JSON form of a query tells its parts apart by shape alone. Fields are an array and a group is an
object, a scalar is never an array, and a list or a projection that is not given has no key, while
an empty one has.
-/

namespace FindSelect

open Literal (EndsNumeral)

/-! ## Texts that end by themselves -/

/-- Whether something is told from its text, with the place where the text ends. Behind the text is
nothing that goes on with a number. -/
def SelfDelimiting {α : Type} (text : α → List Char) (a : α) : Prop :=
  ∀ a' rest rest', EndsNumeral rest → EndsNumeral rest' →
    text a ++ rest = text a' ++ rest' → a = a' ∧ rest = rest'

section Separated

variable {α : Type} {text : α → List Char} {close : Char}

/-- What comes behind an item in brackets: a comma or the closing bracket. -/
theorem endsNumeral_tail (hclose : close ∈ [']', '}']) (items : List α) (rest : List Char) :
    EndsNumeral (items.flatMap (fun a => ',' :: text a) ++ close :: rest) := by
  intro c hc
  cases items with
  | nil =>
    obtain rfl : close = c := by simpa using hc
    simp only [List.mem_cons, List.not_mem_nil, or_false] at hclose
    rcases hclose with rfl | rfl <;> decide
  | cons a items =>
    obtain rfl : ',' = c := by simpa using hc
    decide

/-- Items behind commas are told from their text up to the closing bracket. -/
theorem tail_append_inj (hclose : close ∈ [']', '}']) {items items' : List α}
    (hitems : ∀ a ∈ items, SelfDelimiting text a) {rest rest' : List Char}
    (h : items.flatMap (fun a => ',' :: text a) ++ close :: rest =
      items'.flatMap (fun a => ',' :: text a) ++ close :: rest') :
    items = items' ∧ rest = rest' := by
  have hcomma : close ≠ ',' := by
    rintro rfl
    exact absurd hclose (by decide)
  -- A comma or the closing bracket says whether there is one more item, in both texts alike.
  induction items generalizing items' with
  | nil =>
    cases items' with
    | nil => exact ⟨rfl, (List.cons.inj h).2⟩
    | cons a' items' => exact absurd (List.cons.inj h).1 hcomma
  | cons a items ih =>
    cases items' with
    | nil => exact absurd (List.cons.inj h).1.symm hcomma
    | cons a' items' =>
      simp only [List.flatMap_cons, List.cons_append, List.append_assoc, List.cons.injEq,
        true_and] at h
      obtain ⟨rfl, htail⟩ := hitems a List.mem_cons_self a' _ _ (endsNumeral_tail hclose _ _)
        (endsNumeral_tail hclose _ _) h
      obtain ⟨rfl, hrest⟩ := ih (fun b hb => hitems b (List.mem_cons_of_mem _ hb)) htail
      exact ⟨rfl, hrest⟩

/-- Items with commas between them are the first one and the others behind a comma each. -/
theorem separated_cons (a : α) (items : List α) :
    [','].intercalate ((a :: items).map text) =
      text a ++ items.flatMap fun a => ',' :: text a := by
  rw [List.map_cons, Text.intercalate_cons, List.flatMap_map]
  rfl

/-- Items with commas between them are told from their text up to the closing bracket, if none
starts with that bracket. -/
theorem separated_append_inj (hclose : close ∈ [']', '}']) {items items' : List α}
    (hitems : ∀ a ∈ items, SelfDelimiting text a)
    (hstart : ∀ a rest rest', text a ++ rest ≠ close :: rest') {rest rest' : List Char}
    (h : [','].intercalate (items.map text) ++ close :: rest =
      [','].intercalate (items'.map text) ++ close :: rest') : items = items' ∧ rest = rest' := by
  cases items with
  | nil =>
    cases items' with
    | nil => exact ⟨rfl, (List.cons.inj h).2⟩
    | cons a' items' =>
      rw [separated_cons, List.append_assoc] at h
      exact absurd h.symm (hstart a' _ _)
  | cons a items =>
    rw [separated_cons, List.append_assoc] at h
    cases items' with
    | nil => exact absurd h (hstart a _ _)
    | cons a' items' =>
      rw [separated_cons, List.append_assoc] at h
      obtain ⟨rfl, htail⟩ := hitems a List.mem_cons_self a' _ _ (endsNumeral_tail hclose _ _)
        (endsNumeral_tail hclose _ _) h
      obtain ⟨rfl, hrest⟩ :=
        tail_append_inj hclose (fun b hb => hitems b (List.mem_cons_of_mem _ hb)) htail
      exact ⟨rfl, hrest⟩

end Separated

namespace Value

/-! ## Strings -/

/-- The value of a hexadecimal digit. -/
def hexValue (c : Char) : Nat :=
  if Text.isAsciiDigit c then c.toNat - '0'.toNat else c.toNat - 'a'.toNat + 10

/-- Reads a character of a JSON string, which may be escaped. -/
def readChar? : List Char → Option (Char × List Char)
  | '\\' :: 'b' :: rest => some ('\x08', rest)
  | '\\' :: 'f' :: rest => some ('\x0c', rest)
  | '\\' :: 'n' :: rest => some ('\n', rest)
  | '\\' :: 'r' :: rest => some ('\r', rest)
  | '\\' :: 't' :: rest => some ('\t', rest)
  | '\\' :: 'u' :: '0' :: '0' :: high :: low :: rest =>
    some (Char.ofNat (16 * hexValue high + hexValue low), rest)
  | '\\' :: c :: rest => some (c, rest)
  | c :: rest => some (c, rest)
  | [] => none

/-- The code of a control character is read back from its two digits. -/
theorem hexValue_digitChar : ∀ n < 0x20,
    16 * hexValue (Nat.digitChar (n / 16)) + hexValue (Nat.digitChar (n % 16)) = n := by
  decide

/-- A character is read back from how it is written. -/
theorem readChar?_escapeChar (c : Char) (rest : List Char) :
    readChar? (escapeChar c ++ rest) = some (c, rest) := by
  by_cases hnamed : c ∈ ['"', '\\', '\x08', '\x0c', '\n', '\r', '\t']
  · -- The characters with an escape sequence of two characters.
    simp only [List.mem_cons, List.not_mem_nil, or_false] at hnamed
    rcases hnamed with rfl | rfl | rfl | rfl | rfl | rfl | rfl <;> rfl
  · simp only [List.mem_cons, List.not_mem_nil, or_false, not_or] at hnamed
    simp only [escapeChar, hnamed, if_false]
    split
    · -- The other control characters are written with their code.
      next hcontrol =>
      simp only [List.cons_append, List.nil_append, readChar?, hexValue_digitChar _ hcontrol,
        Char.ofNat_toNat]
    · -- All others stand for themselves, and none of them is a backslash.
      rw [List.singleton_append]
      unfold readChar?
      split <;> simp_all

/-- A character is told from how it is written. -/
theorem escapeChar_append_inj {c c' : Char} {rest rest' : List Char}
    (h : escapeChar c ++ rest = escapeChar c' ++ rest') : c = c' ∧ rest = rest' := by
  have hread := readChar?_escapeChar c rest
  rw [h, readChar?_escapeChar, Option.some.injEq, Prod.mk.injEq] at hread
  exact ⟨hread.1.symm, hread.2.symm⟩

/-- No character is written so that it starts with a quote. -/
theorem escapeChar_append_ne (c : Char) (rest rest' : List Char) :
    escapeChar c ++ rest ≠ '"' :: rest' := by
  intro h
  have hread := readChar?_escapeChar c rest
  rw [h] at hread
  -- What starts with a quote is read as that quote, but a quote is written with a backslash.
  obtain ⟨rfl, -⟩ : '"' = c ∧ rest' = rest := by simpa [readChar?] using hread
  exact absurd (List.cons.inj h).1 (by decide)

/-- Characters are told from how they are written up to the closing quote. -/
theorem flatMap_escapeChar_append_inj {s s' : List Char} {rest rest' : List Char}
    (h : s.flatMap escapeChar ++ '"' :: rest = s'.flatMap escapeChar ++ '"' :: rest') :
    s = s' ∧ rest = rest' := by
  induction s generalizing s' with
  | nil =>
    cases s' with
    | nil => exact ⟨rfl, (List.cons.inj h).2⟩
    | cons c' s' =>
      rw [List.flatMap_cons, List.append_assoc] at h
      exact absurd h.symm (escapeChar_append_ne c' _ _)
  | cons c s ih =>
    rw [List.flatMap_cons, List.append_assoc] at h
    cases s' with
    | nil => exact absurd h (escapeChar_append_ne c _ _)
    | cons c' s' =>
      rw [List.flatMap_cons, List.append_assoc] at h
      obtain ⟨rfl, htail⟩ := escapeChar_append_inj h
      obtain ⟨rfl, hrest⟩ := ih htail
      exact ⟨rfl, hrest⟩

/-- A string is told from its text. -/
theorem quoted_append_inj {s s' : String} {rest rest' : List Char}
    (h : (quoted s).toList ++ rest = (quoted s').toList ++ rest') : s = s' ∧ rest = rest' := by
  unfold quoted at h
  simp only [String.toList_ofList, List.cons_append, List.append_assoc, List.cons.injEq,
    true_and, List.nil_append] at h
  obtain ⟨hs, hrest⟩ := flatMap_escapeChar_append_inj h
  exact ⟨String.toList_inj.1 hs, hrest⟩

/-! ## Values -/

/-- The characters of the JSON text of a value. -/
def text (v : Value) : List Char :=
  v.json.toList

/-- The characters of a member of an object. -/
def memberText (m : String × Value) : List Char :=
  (quoted m.1).toList ++ ':' :: m.2.text

/-- The text of an array: its items in brackets, with commas between them. -/
theorem text_array (items : List Value) :
    (array items).text = '[' :: ([','].intercalate (items.map text) ++ [']']) := by
  have hitems : jsonItems items = items.map json := by
    induction items with
    | nil => rfl
    | cons v items ih => rw [jsonItems, ih, List.map_cons]
  rw [text, json, hitems, String.toList_append, String.toList_append, String.toList_intercalate,
    List.map_map]
  rfl

/-- The text of an object: its members in brackets, with commas between them. -/
theorem text_object (members : List (String × Value)) :
    (object members).text = '{' :: ([','].intercalate (members.map memberText) ++ ['}']) := by
  have hmembers : (jsonMembers members).map String.toList = members.map memberText := by
    induction members with
    | nil => rfl
    | cons m members ih =>
      rw [jsonMembers, List.map_cons, List.map_cons, ih]
      simp [memberText, text]
  rw [text, json, String.toList_append, String.toList_append, String.toList_intercalate, hmembers]
  rfl

/-- The kind of a value, by the first character of its text. -/
def kindOf (c : Char) : Kind :=
  if c = 'n' then .null
  else if c ∈ ['t', 'f'] then .bool
  else if c = '"' then .string
  else if c = '[' then .array
  else if c = '{' then .object
  else .number

/-- What may stand in a number starts one, and is not a closing bracket. -/
theorem kindOf_of_isNumeralChar {c : Char} (h : isNumeralChar c = true) :
    kindOf c = .number ∧ c ≠ ']' := by
  have hne : ∀ d, isNumeralChar d = false → c ≠ d := by
    rintro d hd rfl
    exact absurd (h.symm.trans hd) (by decide)
  have hletters : c ≠ 'n' ∧ c ≠ 't' ∧ c ≠ 'f' := ⟨hne _ rfl, hne _ rfl, hne _ rfl⟩
  have hmarks : c ≠ '"' ∧ c ≠ '[' ∧ c ≠ '{' := ⟨hne _ rfl, hne _ rfl, hne _ rfl⟩
  refine ⟨?_, hne _ rfl⟩
  simp [kindOf, hletters, hmarks]

/-- The text of a value starts with a character that tells its kind, and not with a closing
bracket. -/
theorem exists_text_eq_cons (v : Value) :
    ∃ c t, v.text = c :: t ∧ kindOf c = v.kind ∧ c ≠ ']' := by
  cases v with
  | null => exact ⟨'n', ['u', 'l', 'l'], rfl, rfl, by decide⟩
  | bool b =>
    cases b with
    | true => exact ⟨'t', ['r', 'u', 'e'], rfl, rfl, by decide⟩
    | false => exact ⟨'f', ['a', 'l', 's', 'e'], rfl, rfl, by decide⟩
  | number n =>
    have hnumeral := n.isNumeral_toText
    rw [isNumeral, Bool.and_eq_true, bne_iff_ne, ne_eq, ← String.toList_eq_nil_iff] at hnumeral
    obtain ⟨c, t, htext⟩ := List.exists_cons_of_ne_nil hnumeral.1
    have hall := hnumeral.2
    rw [htext, List.all_cons, Bool.and_eq_true] at hall
    exact ⟨c, t, htext, kindOf_of_isNumeralChar hall.1⟩
  | string s =>
    refine ⟨'"', s.toList.flatMap escapeChar ++ ['"'], ?_, rfl, by decide⟩
    rw [text, json, quoted, String.toList_ofList, List.cons_append]
  | array items => exact ⟨'[', _, text_array items, rfl, by decide⟩
  | object members => exact ⟨'{', _, text_object members, rfl, by decide⟩

/-- Texts that start alike are of values of one kind. -/
theorem kind_eq_of_text_append {v v' : Value} {rest rest' : List Char}
    (h : v.text ++ rest = v'.text ++ rest') : v.kind = v'.kind := by
  obtain ⟨c, t, htext, hkind, -⟩ := v.exists_text_eq_cons
  obtain ⟨c', t', htext', hkind', -⟩ := v'.exists_text_eq_cons
  rw [htext, htext'] at h
  rw [← hkind, ← hkind', (List.cons.inj h).1]

/-- A value without parts is told from its text. -/
theorem selfDelimiting_scalar {v : Value} (hv : v.kind ≠ .array ∧ v.kind ≠ .object) :
    SelfDelimiting text v := by
  intro v' rest rest' hrest hrest' h
  -- Only a value of the same kind is left to compare with.
  have hkind := kind_eq_of_text_append h
  cases v with
  | null =>
    cases v' with
    | null => exact ⟨rfl, List.append_cancel_left h⟩
    | _ => exact nomatch hkind
  | bool b =>
    cases v' with
    | bool b' =>
      match b, b' with
      | true, true | false, false => exact ⟨rfl, List.append_cancel_left h⟩
      | true, false | false, true => exact absurd (List.cons.inj h).1 (by decide)
    | _ => exact nomatch hkind
  | number n =>
    cases v' with
    | number n' =>
      obtain ⟨rfl, htail⟩ := Number.toText_append_inj hrest hrest' h
      exact ⟨rfl, htail⟩
    | _ => exact nomatch hkind
  | string s =>
    cases v' with
    | string s' =>
      obtain ⟨rfl, htail⟩ := quoted_append_inj h
      exact ⟨rfl, htail⟩
    | _ => exact nomatch hkind
  | array items => exact absurd rfl hv.1
  | object members => exact absurd rfl hv.2

/-- An array is told from its text if its items are. -/
theorem selfDelimiting_array {items : List Value}
    (hitems : ∀ v ∈ items, SelfDelimiting text v) :
    SelfDelimiting text (array items) := by
  intro v' rest rest' _ _ h
  have hkind := kind_eq_of_text_append h
  have hstart : ∀ (v : Value) rest rest', v.text ++ rest ≠ ']' :: rest' := by
    intro v rest rest' heq
    obtain ⟨c, t, htext, -, hne⟩ := v.exists_text_eq_cons
    rw [htext] at heq
    exact hne (List.cons.inj heq).1
  cases v' with
  | array items' =>
    simp only [text_array, List.cons_append, List.append_assoc, List.cons.injEq, true_and,
      List.nil_append] at h
    obtain ⟨rfl, hrest⟩ := separated_append_inj (by decide) hitems hstart h
    exact ⟨rfl, hrest⟩
  | _ => exact nomatch hkind

/-- A member is told from its text if its value is. -/
theorem selfDelimiting_member {m : String × Value}
    (hm : SelfDelimiting text m.2) : SelfDelimiting memberText m := by
  intro m' rest rest' hrest hrest' h
  obtain ⟨k, v⟩ := m
  obtain ⟨k', v'⟩ := m'
  simp only [memberText, List.append_assoc] at h
  obtain ⟨rfl, hvalue⟩ := quoted_append_inj h
  obtain ⟨rfl, htail⟩ := hm v' rest rest' hrest hrest' (List.cons.inj hvalue).2
  exact ⟨rfl, htail⟩

/-- An object is told from its text if the values of its members are. -/
theorem selfDelimiting_object {members : List (String × Value)}
    (hmembers : ∀ m ∈ members, SelfDelimiting text m.2) :
    SelfDelimiting text (object members) := by
  intro v' rest rest' _ _ h
  have hkind := kind_eq_of_text_append h
  have hstart : ∀ m rest rest', memberText m ++ rest ≠ '}' :: rest' := by
    intro m rest rest' heq
    rw [memberText, quoted, String.toList_ofList] at heq
    exact absurd (List.cons.inj heq).1 (by decide)
  cases v' with
  | object members' =>
    simp only [text_object, List.cons_append, List.append_assoc, List.cons.injEq, true_and,
      List.nil_append] at h
    obtain ⟨rfl, hrest⟩ := separated_append_inj (by decide)
      (fun m hm => selfDelimiting_member (hmembers m hm)) hstart h
    exact ⟨rfl, hrest⟩
  | _ => exact nomatch hkind

mutual
/-- A value is told from its text. -/
theorem selfDelimiting_text : (v : Value) → SelfDelimiting text v
  | array items => selfDelimiting_array (selfDelimiting_items items)
  | object members => selfDelimiting_object (selfDelimiting_members members)
  | null | bool _ | number _ | string _ => selfDelimiting_scalar (by simp [kind])

/-- Each item of an array is told from its text. -/
theorem selfDelimiting_items : (items : List Value) →
    ∀ v ∈ items, SelfDelimiting text v
  | [] => nofun
  | v :: rest => List.forall_mem_cons.2 ⟨selfDelimiting_text v, selfDelimiting_items rest⟩

/-- The value of each member of an object is told from its text. -/
theorem selfDelimiting_members : (members : List (String × Value)) →
    ∀ m ∈ members, SelfDelimiting text m.2
  | [] => nofun
  | (_, v) :: rest => List.forall_mem_cons.2 ⟨selfDelimiting_text v, selfDelimiting_members rest⟩
end

/-- Different values have different texts. -/
theorem json_injective : Function.Injective json := by
  intro v v' h
  -- Behind a whole text is nothing, so nothing that goes on with a number.
  have hend : EndsNumeral [] := by simp [EndsNumeral]
  exact (selfDelimiting_text v v' [] [] hend hend (by rw [text, text, h])).1

end Value

/-! ## The JSON form of a query -/

/-- Scalars with the same form are the same. -/
theorem Scalar.toValue_injective : Function.Injective Scalar.toValue := by
  intro s s' h
  cases s <;> cases s' <;> simp_all [toValue]

/-- Operands with the same form are the same: a list is an array, and a scalar never is. -/
theorem Operand.toValue_injective : Function.Injective Operand.toValue := by
  have hscalar : ∀ (s : Scalar) items, s.toValue ≠ .array items := by
    intro s items
    cases s <;> simp [Scalar.toValue]
  intro o o' h
  cases o with
  | one s =>
    cases o' with
    | one s' => rw [Scalar.toValue_injective h]
    | many ss' => exact absurd h (hscalar s _)
  | many ss =>
    cases o' with
    | one s' => exact absurd h.symm (hscalar s' _)
    | many ss' => rw [Scalar.toValue_injective.list_map (Value.array.inj h)]

/-- Operators with the same name are the same. -/
theorem Operator.name_injective : Function.Injective Operator.name := by
  have hnodup : (all.map name).Nodup := by decide
  intro op op' h
  exact List.inj_on_of_nodup_map hnodup op.mem_all op'.mem_all h

/-- Methods with the same name are the same. -/
theorem Method.name_injective : Function.Injective Method.name := by
  have hall : ∀ m, m ∈ [find, update, insert, delete] := by
    intro m
    cases m <;> decide
  have hnodup : ([find, update, insert, delete].map name).Nodup := by decide
  intro m m' h
  exact List.inj_on_of_nodup_map hnodup (hall m) (hall m') h

/-- Conditions with the same form are the same. -/
theorem Condition.toValue_injective : Function.Injective Condition.toValue := by
  rintro ⟨comparisons⟩ ⟨comparisons'⟩ h
  have hcomparison : Function.Injective fun p : Operator × Operand =>
      Value.object [("op", .string p.1.name), ("value", p.2.toValue)] := by
    rintro ⟨op, o⟩ ⟨op', o'⟩ heq
    simp only [Value.object.injEq, List.cons.injEq, Prod.mk.injEq, Value.string.injEq, true_and,
      and_true] at heq
    rw [Operator.name_injective heq.1, Operand.toValue_injective heq.2]
  exact congrArg Condition.mk (hcomparison.list_map (Value.array.inj h))

/-- Fields with the same form are the same. -/
theorem FieldFilter.toValue_injective : Function.Injective FieldFilter.toValue := by
  rintro ⟨field, c⟩ ⟨field', c'⟩ h
  simp only [toValue, Value.object.injEq, List.cons.injEq, Prod.mk.injEq, Value.string.injEq,
    true_and, and_true] at h
  rw [h.1, Condition.toValue_injective h.2]

namespace Filter

/-- The members with a key are those of the list under that key. -/
theorem filter_memberValue (key key' : String) (fs : Option (List Filter)) :
    (memberValue key fs).filter (fun m => m.1 = key') =
      if key = key' then memberValue key fs else [] := by
  cases fs with
  | none => simp [memberValue]
  | some fs => by_cases h : key = key' <;> simp [memberValue, h]

mutual
/-- Filters with the same form are the same: fields are an array, and a group is an object. -/
theorem toValue_inj : (f f' : Filter) → f.toValue = f'.toValue → f = f'
  | fields entries, fields entries', h => by
    rw [FieldFilter.toValue_injective.list_map (Value.array.inj h)]
  | group conj disj, group conj' disj', h => by
    -- The keys tell which list is which, also if only one of them is given.
    have hand := congrArg (List.filter fun m => m.1 = "AND") (Value.object.inj h)
    have hor := congrArg (List.filter fun m => m.1 = "OR") (Value.object.inj h)
    simp only [List.filter_append, filter_memberValue, String.reduceEq, if_true, if_false,
      List.append_nil, List.nil_append] at hand hor
    rw [memberValue_inj "AND" conj conj' hand, memberValue_inj "OR" disj disj' hor]
  | fields _, group _ _, h => nomatch h
  | group _ _, fields _, h => nomatch h

/-- Lists of a group with the same form are the same: one that is not given has no member. -/
theorem memberValue_inj (key : String) : (fs fs' : Option (List Filter)) →
    memberValue key fs = memberValue key fs' → fs = fs'
  | none, none, _ => rfl
  | some fs, some fs', h => by
    simp only [memberValue, List.cons.injEq, Prod.mk.injEq, Value.array.injEq, true_and,
      and_true] at h
    rw [listValues_inj fs fs' h]
  | none, some _, h => nomatch h
  | some _, none, h => nomatch h

/-- Lists of filters with the same forms are the same. -/
theorem listValues_inj : (fs fs' : List Filter) → listValues fs = listValues fs' → fs = fs'
  | [], [], _ => rfl
  | f :: fs, f' :: fs', h => by
    rw [listValues, listValues, List.cons.injEq] at h
    rw [toValue_inj f f' h.1, listValues_inj fs fs' h.2]
  | [], _ :: _, h => nomatch h
  | _ :: _, [], h => nomatch h
end

end Filter

/-- Queries with the same form are the same. -/
theorem Query.toValue_injective : Function.Injective Query.toValue := by
  rintro ⟨collection, method, filter, projection⟩ ⟨collection', method', filter', projection'⟩ h
  simp only [toValue, Value.object.injEq, List.cons_append, List.nil_append, List.cons.injEq,
    Prod.mk.injEq, Value.string.injEq, true_and] at h
  obtain ⟨rfl, hmethod, hfilter, hprojection⟩ := h
  obtain rfl := Method.name_injective hmethod
  obtain rfl := Filter.toValue_inj filter filter' hfilter
  have hstring : Function.Injective Value.string := fun _ _ => Value.string.inj
  cases projection with
  | none =>
    cases projection' with
    | none => rfl
    | some names' => exact nomatch hprojection
  | some names =>
    cases projection' with
    | none => exact nomatch hprojection
    | some names' =>
      simp only [List.cons.injEq, Prod.mk.injEq, Value.array.injEq, true_and, and_true]
        at hprojection
      rw [hstring.list_map hprojection]

/-- Two queries have the same JSON text if and only if they are the same. -/
theorem Query.json_eq_iff (q q' : Query) : q.toValue.json = q'.toValue.json ↔ q = q' := by
  constructor
  · intro h
    exact toValue_injective (Value.json_injective h)
  · rintro rfl
    rfl

end FindSelect
