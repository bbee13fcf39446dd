import FindSelect.Proofs.Literal.Found
import FindSelect.Proofs.Literal.Nesting
import FindSelect.Proofs.Literal.Overflow
import FindSelect.Proofs.Literal.Position

/-!
# A text is refused at the first character that does not fit

A text that is not a literal is refused with its furthest failure. What stands before that place can
be completed to a literal, and with the character at that place it cannot
(`rejected_at_first_bad_character`). So the place is the first one where the text is not the
beginning of a literal. The one exception is a number out of range, for which the blame goes to its
first character.

That the text before the place can be completed is what `follows_value` says. For the rest, the
grammar is run on the text and on another one that has the same beginning, up to and including the
character at the place (`shadows_value`). As long as no number out of range is met (`Clear`), the
two runs differ only beyond that beginning.
-/

namespace FindSelect.Literal

open Reader

/-! ## Texts without numbers out of range -/

/-- Whether no number out of range stands where a value is due. -/
def Clear (c : Category) (t : List Char) : Prop :=
  ∀ w r, Due c w → t = w ++ r → ¬ StartsOutOfRange r

/-- Whether a text is clear from the value on that it starts with, behind blanks. -/
def ClearValue (t : List Char) : Prop :=
  Clear .value (t.dropWhile Text.isBlank)

/-- Whether a text is clear if a word of a language is put before it. -/
def Behind (c : Category) (L : Language Char) (t : List Char) : Prop :=
  ∃ w ∈ L, Clear c (w ++ t)

section Clear

variable {α : Type} {k : Kind} {c : Category} {t w : List Char}

/-- Blanks may stand before items. -/
theorem Due.skip (lead : Blanks) (h : Due (.items k) w) : Due (.items k) (lead.chars ++ w) := by
  cases h with
  | @first _ w lead' label hw =>
    have hdue := Due.first (lead.append lead') label hw
    rwa [Blanks.append, List.append_assoc] at hdue
  | @later _ w e hw =>
    have hdue := Due.later ⟨lead.append e.lead, e.label, e.tree, e.trail⟩ hw
    simpa only [Entry.text, Blanks.append, List.append_assoc] using hdue

/-- What stands behind a text is clear if the whole is, and what is due behind it is due. -/
theorem Clear.behind {c' : Category} (h : Clear c (w ++ t))
    (hw : ∀ w', Due c' w' → Due c (w ++ w')) : Clear c' t := by
  rintro w' r hdue rfl
  exact h (w ++ w') r (hw w' hdue) (List.append_assoc _ _ _).symm

/-- Behind nothing. -/
theorem Clear.behind_one (h : Clear c t) : Behind c 1 t :=
  ⟨[], rfl, h⟩

/-- What was read is a word that stands before the rest. -/
theorem Follows.leads {p : Reader α} {L M : Language Char} (hp : Follows p M) :
    Leads (Behind c L) p (Behind c (L * M)) := by
  rintro t a rest ⟨w, hw, hclear⟩ hon
  obtain ⟨w', hw', rfl⟩ := hp.reads hon
  rw [← List.append_assoc] at hclear
  exact ⟨w ++ w', Language.append_mem_mul hw hw', hclear⟩

/-- Behind blanks there is a value or there are items. -/
theorem leads_skipBlanks_value : Leads ClearValue skipBlanks (Clear .value) := by
  intro t a rest ht hon
  rw [on_skipBlanks] at hon
  rwa [← (Prod.mk.inj (Option.some.inj hon)).2]

theorem leads_skipBlanks_items :
    Leads (Clear (.items k)) skipBlanks (Clear (.items k)) := by
  intro t a rest ht hon
  obtain ⟨lead, -, rfl⟩ := spells_skipBlanks.sound hon
  exact ht.behind fun w' hw' => hw'.skip lead

/-- Behind a bracket there are items. -/
theorem leads_opening_items : Leads (Clear .value) (char k.opening) (Clear (.items k)) := by
  intro t a rest ht hon
  obtain ⟨rfl, -⟩ := on_char_eq_some.1 hon
  exact Clear.behind (w := [k.opening]) ht fun w' hw' => hw'.inside

/-- Behind an item and a comma there are items. -/
theorem leads_comma_items :
    Leads (Behind (.items k) (1 * entries k)) comma (Clear (.items k)) := by
  rintro t a rest ⟨_, ⟨_, rfl, _, ⟨e, rfl⟩, rfl⟩, hclear⟩ hon
  obtain ⟨⟨gap, lead⟩, -, rfl⟩ := spells_comma.sound hon
  -- The blanks around the comma go to the item before and to the items behind.
  let e' : Entry k := ⟨e.lead, e.label, e.tree, e.trail.append gap⟩
  have htext : [] ++ e.text ++ (gap.chars ++ ',' :: lead.chars ++ rest) =
      (e'.text ++ ',' :: lead.chars) ++ rest := by
    simp [Entry.text, e', Blanks.append]
  refine Clear.behind (w := e'.text ++ ',' :: lead.chars) (htext ▸ hclear) fun w' hw' => ?_
  rw [List.append_assoc, List.cons_append]
  exact (hw'.skip lead).later e'

/-- A value stands in an item of an array, behind the blanks before it. -/
theorem Clear.value (h : Clear (.items .array) t) : ClearValue t := by
  let lead : Blanks := ⟨t.takeWhile Text.isBlank, List.all_takeWhile⟩
  have htext : lead.chars ++ t.dropWhile Text.isBlank = t := List.takeWhile_append_dropWhile
  rw [← htext] at h
  exact h.behind fun w' hw' => hw'.first lead .none

/-- A value stands in a member of an object, behind the colon. -/
theorem leads_colon_value :
    Leads (Behind (.items .object) (1 * texts Blanks.chars * texts Key.text * texts Blanks.chars))
      (char ':') ClearValue := by
  rintro t a rest ⟨_, ⟨_, ⟨_, ⟨_, rfl, _, ⟨lead, rfl⟩, rfl⟩, _, ⟨key, rfl⟩, rfl⟩, _, ⟨gap, rfl⟩,
    rfl⟩, hclear⟩ hon
  obtain ⟨rfl, -⟩ := on_char_eq_some.1 hon
  let lead' : Blanks := ⟨rest.takeWhile Text.isBlank, List.all_takeWhile⟩
  have hrest : lead'.chars ++ rest.dropWhile Text.isBlank = rest := List.takeWhile_append_dropWhile
  let label : Label .object := .key key gap lead'
  have htext : [] ++ lead.chars ++ key.text ++ gap.chars ++ ':' :: rest =
      (lead.chars ++ label.text) ++ rest.dropWhile Text.isBlank := by
    nth_rewrite 1 [← hrest]
    simp [Label.text, label]
  refine Clear.behind (htext ▸ hclear) fun w' hw' => ?_
  rw [List.append_assoc]
  exact hw'.first lead label

end Clear

/-! ## The grammar on two texts with the same beginning -/

/-- Whether two bounds leave room for a text and for its beginning, and the text is as required. -/
def Room (n m : Nat) (P : List Char → Prop) (u s : List Char) : Prop :=
  (u ++ s).length < n ∧ u.length < m ∧ P (u ++ s)

section Room

variable {α : Type} {p : Reader α} {P Q : List Char → Prop} {n m : Nat}

/-- The room stays large enough. -/
theorem Leads.room [Tracked p] (h : Leads P p Q) ⦃u s : List Char⦄ ⦃a : α⦄ ⦃x : List Char⦄
    (hs : Room n m P u s) (hon : p.on (u ++ s) = some (a, x ++ s)) : Room n m Q x s := by
  obtain ⟨hn, hm, hP⟩ := hs
  have hle := length_le_of_on hon
  rw [List.length_append, List.length_append] at hle
  rw [List.length_append] at hn
  exact ⟨by rw [List.length_append]; omega, by omega, h hP hon⟩

/-- Behind a character less room will do. -/
theorem Leads.less_room [Consumes p] (h : Leads P p Q) ⦃u s : List Char⦄ ⦃a : α⦄ ⦃x : List Char⦄
    (hs : Room (n + 1) (m + 1) P u s) (hon : p.on (u ++ s) = some (a, x ++ s)) :
    Room n m Q x s := by
  obtain ⟨hn, hm, hP⟩ := hs
  have hlt := Consumes.length_lt hon
  rw [List.length_append, List.length_append] at hlt
  rw [List.length_append] at hn
  exact ⟨by rw [List.length_append]; omega, by omega, h hP hon⟩

/-- A stronger requirement. -/
theorem Room.mono {u s : List Char} (hs : Room n m P u s) (h : ∀ t, P t → Q t) : Room n m Q u s :=
  ⟨hs.1, hs.2.1, h _ hs.2.2⟩

end Room

-- The grammar has sequences of up to six parts, and of each of them four things have to be found.
set_option synthInstance.maxSize 1000

section Values

variable {v v' : Reader Value} [Steady v] [Tracked v] [Reports v] [Steady v'] {n m : Nat}

/-- A member of an object. -/
theorem shadows_member (hv : Shadows (Room n m ClearValue) v v') :
    Shadows (Room n m (Clear (.items .object))) (member v) (member v') := by
  have hmember : Shadows (Room n m (Behind (.items .object) 1)) (member v) (member v') :=
    .label ((Local.under skipBlanks).bind follows_skipBlanks.leads.room fun _ =>
      (Local.under (orElse string key)).bind follows_key.leads.room fun name =>
      (Local.under skipBlanks).bind follows_skipBlanks.leads.room fun _ =>
      (Local.under (char ':')).bind leads_colon_value.room fun _ => hv.map (Prod.mk name)) _
  exact hmember.mono fun u s hs => hs.mono fun t => Clear.behind_one

/-- An item of a container. -/
theorem shadows_item (k : Kind) (hv : Shadows (Room n m ClearValue) v v') :
    Shadows (Room n m (Clear (.items k))) (k.item v) (k.item v') := by
  cases k with
  | array => exact hv.mono fun u s hs => hs.mono fun t => Clear.value
  | object => exact shadows_member hv

/-- A container. -/
theorem shadows_container (k : Kind) (hv : Shadows (Room n m ClearValue) v v')
    (hfollows : Follows v (entries .array)) :
    Shadows (Room (n + 1) (m + 1) (Clear .value)) (k.container v) (k.container v') := by
  have hleads : Leads (Clear (.items k)) (k.item v) (Behind (.items k) (1 * entries k)) :=
    fun t a rest ht hon => (follows_item k hfollows).leads ht.behind_one hon
  -- What is due in the items stays due behind each of them, and behind each comma.
  have hitems := (shadows_item k hv).commaSeparated (Local.under comma) hleads.room
    leads_comma_items.room
  exact (Local.under (char k.opening)).bind leads_opening_items.less_room fun _ =>
    (Local.under skipBlanks).bind leads_skipBlanks_items.room fun _ =>
    hitems.bind (T := fun _ _ => True) (fun _ _ _ _ _ _ => trivial) fun items => Local.under _

/-- A number, if it is in range. -/
theorem shadows_number : Shadows (Room n m (Clear .value)) number number := by
  refine .label ((Local.under numeral).checked ?_) _
  intro u s a rest hs hon hvalue
  refine hs.2.2 [] (u ++ s) .here rfl ⟨a, rest, hon, fun hrange => ?_⟩
  obtain ⟨x, hx⟩ := Numeral.exists_value?_iff.2 hrange
  rw [hvalue] at hx
  exact nomatch hx

/-- A value without the blanks around it. -/
theorem shadows_core (hv : Shadows (Room n m ClearValue) v v')
    (hfollows : Follows v (entries .array)) :
    Shadows (Room (n + 1) (m + 1) (Clear .value)) (core v) (core v') :=
  ((shadows_container .object hv hfollows).label _).firstOf_cons <|
    ((shadows_container .array hv hfollows).label _).firstOf_cons <|
    (Local.under _).firstOf_cons <| (shadows_number.map _).firstOf_cons <| Local.under _

end Values

/-- The grammar does the same on two texts with the same beginning as long as it does not look
beyond that, if no number out of range is due in the first of them. -/
theorem shadows_value (n m : Nat) : Shadows (Room n m ClearValue) (value n) (value m) := by
  induction n generalizing m with
  | zero => exact fun u s hs => absurd hs.1 (Nat.not_lt_zero _)
  | succ n ih =>
    cases m with
    | zero => exact fun u s hs => absurd hs.2.1 (Nat.not_lt_zero _)
    | succ m =>
      cases n with
      | zero =>
        -- There is room for the empty text only, and that is not read without a failure.
        intro u s hs hreach
        obtain ⟨rfl, rfl⟩ := List.append_eq_nil_iff.1 (List.length_eq_zero_iff.1 (by
          have hlength := hs.1
          omega : (u ++ s).length = 0))
        have hpos := Reports.reach_pos (p := value 1) (show (value 1).on [] = none from rfl)
        exact absurd hreach (Nat.not_le_of_gt hpos)
      | succ n =>
        rw [value_succ (n + 1), value_succ m]
        exact (Local.under skipBlanks).bind leads_skipBlanks_value.room fun _ =>
          (shadows_core (ih m) (follows_value _)).bind (T := fun _ _ => True)
            (fun _ _ _ _ _ _ => trivial) fun a => Local.under _

/-! ## The furthest failure -/

section Whole

variable {α : Type} (p : Reader α)

instance [Steady p] [Tracked p] [Reports p] : Reports p.whole := by
  unfold Reader.whole
  infer_instance

instance [Tracked p] [Keeps p] : Keeps p.whole := by
  unfold Reader.whole
  infer_instance

/-- A text is read whole if nothing is left of it. -/
theorem on_whole_of_on {p : Reader α} [Steady p] {t : List Char} {a : α}
    (h : p.on t = some (a, [])) : p.whole.on t = some (a, []) := by
  rw [Reader.whole, on_bind, h]
  rfl

end Whole

instance (text : String) : Reports (wholeValue text) :=
  inferInstanceAs (Reports (value (text.length + 1)).whole)

instance (text : String) : Keeps (wholeValue text) :=
  inferInstanceAs (Keeps (value _).whole)

/-- A text that is not read whole is refused as far as the reading looks. -/
theorem reach_eq_of_on_eq_none {text : String} (h : (wholeValue text).on text.toList = none) :
    (wholeValue text).reach text.toList = (failure text).offset + 1 := by
  -- There is a failure to tell, so the one that stands in for none does not matter.
  have hpos : 0 < extent (wholeValue text (Cursor.start text.toList) none).furthest :=
    Reports.reach_pos h
  show extent (wholeValue text (Cursor.start text.toList) none).furthest = _
  unfold failure
  cases hfurthest : (wholeValue text (Cursor.start text.toList) none).furthest with
  | none =>
    rw [hfurthest] at hpos
    exact absurd hpos (Nat.lt_irrefl 0)
  | some f => rfl

/-- The failure that a text is refused with lies in the text and tells what stands there. -/
theorem located_failure (text : String) :
    (failure text).offset ≤ text.toList.length ∧
      (failure text).found = text.toList[(failure text).offset]? := by
  have hstart : (Cursor.start text.toList).In text.toList := ⟨[], rfl, rfl⟩
  have hlocated := Keeps.located (p := wholeValue text) hstart .none
  unfold failure
  cases hfurthest : (wholeValue text (Cursor.start text.toList) none).furthest with
  | none => exact Located.here hstart [] _ rfl
  | some f => exact hlocated f hfurthest

/-- What stands before the furthest failure can be completed to a literal. -/
theorem exists_read_take {text : String} (h : (wholeValue text).on text.toList = none) :
    ∃ s v, read (String.ofList (text.toList.take (failure text).offset ++ s)) = .ok v := by
  have hfollows : Follows (wholeValue text) (entries .array * (1 * 1)) :=
    (follows_value _).bind fun a => follows_endOfText.bind fun _ => .pure a
  obtain ⟨-, s, hs⟩ := hfollows.viable _ _ (reach_eq_of_on_eq_none h)
  rw [mul_one, mul_one] at hs
  obtain ⟨e, he⟩ := hs
  exact ⟨s, e.tree.value, read_eq_ok.2 ⟨e, rfl, by rw [String.toList_ofList]; exact he⟩⟩

/-! ## The main result -/

/-- Whether a number out of range stands at a place of a text where a value is due. -/
def OverflowsAt (t : List Char) (i : Nat) : Prop :=
  ∃ (lead : Blanks) (w r : List Char), t = lead.chars ++ (w ++ r) ∧ Due .value w ∧
    StartsOutOfRange r ∧ i = (lead.chars ++ w).length

/-- A text without such a number is clear. -/
theorem clearValue_of_not_overflowsAt {t : List Char} (h : ∀ i, ¬ OverflowsAt t i) :
    ClearValue t := by
  intro w r hdue htext hr
  let lead : Blanks := ⟨t.takeWhile Text.isBlank, List.all_takeWhile⟩
  have hlead : t = lead.chars ++ (w ++ r) := by
    rw [← htext]
    exact List.takeWhile_append_dropWhile.symm
  exact h _ ⟨lead, w, r, hlead, hdue, hr, rfl⟩

/-- A text with such a number is refused there. -/
theorem OverflowsAt.offset_eq {text : String} {i : Nat} (h : OverflowsAt text.toList i) :
    (failure text).offset = i := by
  obtain ⟨lead, w, r, htext, hdue, hr, rfl⟩ := h
  have hlength : (lead.chars ++ (w ++ r)).length < text.length + 1 := by
    rw [← htext, String.length_toList]
    exact Nat.lt_succ_self _
  have hstops : Stops (wholeValue text) text.toList ((lead.chars ++ w).length + 1) := by
    rw [htext]
    exact (stops_value_of_due lead hdue hr hlength).bind_first _
  have hreach := (reach_eq_of_on_eq_none hstops.on_eq).symm.trans hstops.reach_eq
  exact Nat.succ.inj hreach

/-- With the character at the furthest failure a text cannot be completed to a literal. -/
theorem read_take_ne_ok {text : String} (h : (wholeValue text).on text.toList = none)
    (hclear : ClearValue text.toList) (hlt : (failure text).offset < text.toList.length)
    (s : List Char) (v : Value) :
    read (String.ofList (text.toList.take ((failure text).offset + 1) ++ s)) ≠ .ok v := by
  have hreach := reach_eq_of_on_eq_none h
  generalize (failure text).offset = i at hreach hlt ⊢
  let u := text.toList.take (i + 1)
  have hu : u.length = i + 1 := by
    rw [List.length_take]
    omega
  have htext : u ++ text.toList.drop (i + 1) = text.toList := List.take_append_drop _ _
  -- The other text has its own bound, which its common beginning with this text does not reach.
  have hshadows : Shadows (Room (text.length + 1) ((u ++ s).length + 1) ClearValue)
      (wholeValue text) (value ((u ++ s).length + 1)).whole :=
    (shadows_value _ _).bind (T := fun _ _ => True) (fun _ _ _ _ _ _ => trivial)
      fun a => Local.under _
  have hroom : Room (text.length + 1) ((u ++ s).length + 1) ClearValue u
      (text.toList.drop (i + 1)) := by
    refine ⟨?_, ?_, ?_⟩
    · rw [htext, String.length_toList]
      exact Nat.lt_succ_self _
    · rw [List.length_append]
      omega
    · rwa [htext]
  have hnone := (hshadows hroom (by rw [htext, hreach, hu]) s).1 (by rwa [htext])
  intro hread
  rw [read, run_eq_ok, String.toList_ofList, String.length_ofList] at hread
  rw [on_whole_of_on hread] at hnone
  exact nomatch hnone

/-- A text that is not too deep and not a literal is refused with its furthest failure. If a number
out of range stands where a value is due, that failure lies at the first character of the number.
What stands before the failure can be completed to a literal. If there is no such number, then with
the character at the failure it cannot. The failure tells the character at its place, and none
exactly at the end of the text. -/
theorem rejected_at_first_bad_character {text : String}
    (hdepth : staysWithin maxDepth .outside 0 text.toList = true)
    (hread : ∀ v, read text ≠ .ok v) :
    parse text = .error (.format (.notALiteral ((failure text).locate text.toList))) ∧
    (∀ i, OverflowsAt text.toList i → (failure text).offset = i) ∧
    (∃ s v, read (String.ofList (text.toList.take (failure text).offset ++ s)) = .ok v) ∧
    ((∀ i, ¬ OverflowsAt text.toList i) → (failure text).offset < text.toList.length →
      ∀ s v, read (String.ofList (text.toList.take ((failure text).offset + 1) ++ s)) ≠ .ok v) ∧
    (failure text).offset ≤ text.toList.length ∧
    (failure text).found = text.toList[(failure text).offset]? := by
  obtain ⟨d, hd⟩ : ∃ d, read text = .error d := by
    cases hresult : read text with
    | ok v => exact absurd hresult (hread v)
    | error d => exact ⟨d, rfl⟩
  have hparse : parse text = .error (.format (.notALiteral d)) := by
    rw [parse, if_pos hdepth, hd]
    rfl
  obtain ⟨hnone, rfl⟩ := parse_eq_notALiteral hparse
  exact ⟨hparse, fun i => OverflowsAt.offset_eq, exists_read_take hnone,
    fun hclear => read_take_ne_ok hnone (clearValue_of_not_overflowsAt hclear),
    located_failure text⟩

/-- A text with an exponent that has no digits. The number is read up to the exponent. -/
def misfitText : String :=
  "\x7ba: 1ex"

/-- A text with a number out of range and a point without digits behind it. -/
def overflowText : String :=
  "[null, \x7bb: 18446744073709551616.x]"

/-- The two texts are not literals, and not too deep. -/
theorem refused_misfitText_overflowText : ∀ text ∈ [misfitText, overflowText],
    staysWithin maxDepth .outside 0 text.toList = true ∧ ∀ v, read text ≠ .ok v := by
  have hrefused : ∀ text ∈ [misfitText, overflowText],
      staysWithin maxDepth .outside 0 text.toList = true ∧ (read text).isOk = false := by
    decide +kernel
  intro text htext
  refine ⟨(hrefused text htext).1, fun v hread => ?_⟩
  have hok := (hrefused text htext).2
  rw [hread] at hok
  exact nomatch hok

/-- The number in `overflowText` is out of range and stands where a value is due. -/
theorem overflowsAt_overflowText : OverflowsAt overflowText.toList 11 := by
  let nothing : Blanks := ⟨[], rfl⟩
  let blank : Blanks := ⟨[' '], by decide⟩
  let name : Key := .bare ⟨['b'], by decide, by decide +kernel⟩
  have hmember : Due (.items .object) _ := .first nothing (.key name nothing blank) .here
  have hitem : Due (.items .array) _ := .later Label.none.null (.first blank .none hmember.inside)
  have hrange : StartsOutOfRange "18446744073709551616.x]".toList := by
    let n : Numeral := ⟨false, "18446744073709551616".toList, none, none⟩
    have hvalue : n.value? = none := by decide +kernel
    refine ⟨n, ".x]".toList, by decide +kernel, fun h => ?_⟩
    obtain ⟨m, hm⟩ := Numeral.exists_value?_iff.2 h
    rw [hvalue] at hm
    exact nomatch hm
  exact ⟨nothing, _, _, by decide +kernel, hitem.inside, hrange, by decide +kernel⟩

/-- `misfitText` is refused at its last character, where a digit or a sign is missing behind the
exponent mark, and `overflowText` at its number, though what stands behind that does not fit
either. -/
theorem rejected_at_first_bad_character_misfitText :
    (failure misfitText).offset = 6 ∧ (failure misfitText).found = some 'x' ∧
    (∃ s v, read (String.ofList ("\x7ba: 1e".toList ++ s)) = .ok v) ∧
    (∀ s v, read (String.ofList (misfitText.toList ++ s)) ≠ .ok v) ∧
    (failure overflowText).offset = 11 ∧ (failure overflowText).found = some '1' := by
  have hoffset : (failure misfitText).offset = 6 := by decide +kernel
  obtain ⟨hdepth, hread⟩ := refused_misfitText_overflowText misfitText (by simp)
  obtain ⟨-, hoverflow, hbefore, hat, -, hfound⟩ := rejected_at_first_bad_character hdepth hread
  obtain ⟨hdepth', hread'⟩ := refused_misfitText_overflowText overflowText (by simp)
  obtain ⟨-, hoverflow', -, -, -, hfound'⟩ := rejected_at_first_bad_character hdepth' hread'
  have hoffset' := hoverflow' 11 overflowsAt_overflowText
  rw [hoffset] at hoverflow hbefore hat hfound
  rw [hoffset'] at hfound'
  -- A number out of range could only stand at the last character, which is a letter.
  have hnone : ∀ i, ¬ OverflowsAt misfitText.toList i := by
    intro i hi
    obtain rfl := hoverflow i hi
    obtain ⟨lead, w, r, htext, -, ⟨n, rest, hon, -⟩, hlength⟩ := hi
    have hr : misfitText.toList.drop 6 = r := by
      rw [hlength, htext, ← List.append_assoc, List.drop_left]
    have hletter : numeral.on (misfitText.toList.drop 6) = none := by decide +kernel
    rw [hr, hon] at hletter
    exact nomatch hletter
  exact ⟨hoffset, hfound, hbefore, hat hnone (by decide), hoffset', hfound'⟩

end FindSelect.Literal
