import Mathlib.Computability.Language
import FindSelect.Proofs.Literal.Reach
import FindSelect.Proofs.Literal.Reading

/-!
# What stands before the furthest failure can be completed

A reader follows a language (`Follows`) if what it reads is a word of the language and if, whenever
it fails or has tried to read more, the text before its furthest failure is the beginning of a word.
This goes from the parts of a grammar to the whole. Here it is said of the readers that a grammar is
put together from, and of strings and keys.
-/

namespace FindSelect.Literal

open Reader

variable {α β : Type}

/-! ## Beginnings of words -/

/-- The texts that are written in certain ways. -/
def texts {ι : Type} (text : ι → List Char) : Language Char :=
  { w | ∃ i, w = text i }

/-- A language that has a word. -/
class HasWord (L : Language Char) : Prop where
  /-- There is a word. -/
  exists_mem : ∃ w, w ∈ L

instance (w : List Char) : HasWord {w} :=
  ⟨w, rfl⟩

instance : HasWord 1 :=
  ⟨[], rfl⟩

instance (L M : Language Char) [HasWord L] [HasWord M] : HasWord (L * M) := by
  obtain ⟨w, hw⟩ := HasWord.exists_mem (L := L)
  obtain ⟨w', hw'⟩ := HasWord.exists_mem (L := M)
  exact ⟨w ++ w', Language.append_mem_mul hw hw'⟩

instance {ι : Type} [Nonempty ι] (text : ι → List Char) : HasWord (texts text) :=
  ⟨text (Classical.arbitrary ι), Classical.arbitrary ι, rfl⟩

/-- Whether a failure of a reader that looks `k` characters far into a text lies where the text
before it can be completed to a word. -/
def Viable (L : Language Char) (t : List Char) (k : Nat) : Prop :=
  ∀ i, k = i + 1 → i ≤ t.length ∧ ∃ s, t.take i ++ s ∈ L

namespace Viable

variable {L M : Language Char} {t : List Char} {j k : Nat}

/-- Without a failure there is nothing to complete. -/
theorem zero : Viable L t 0 :=
  fun i h => absurd h.symm (Nat.succ_ne_zero i)

/-- A failure at the very start. -/
theorem one [HasWord L] : Viable L t 1 := by
  intro i hi
  obtain rfl : i = 0 := by omega
  exact ⟨Nat.zero_le _, HasWord.exists_mem⟩

/-- A failure within the beginning of a word, or right behind it. -/
theorem of_append {w : List Char} (hw : ∃ s, w ++ s ∈ L) (hk : k ≤ w.length + 1) :
    Viable L (w ++ t) k := by
  rintro i rfl
  obtain ⟨s, hs⟩ := hw
  have hi : i ≤ w.length := Nat.le_of_succ_le_succ hk
  refine ⟨by rw [List.length_append]; omega, w.drop i ++ s, ?_⟩
  rwa [List.take_append_of_le_length hi, ← List.append_assoc, List.take_append_drop]

/-- A single character that is looked for. -/
theorem letter [HasWord L] (o : Option α) : Viable L t (o.elim 1 fun _ => 0) := by
  cases o with
  | none => exact one
  | some a => exact zero

/-- A word of a language is one of every larger language. -/
theorem mono (h : Viable L t k) (hle : ∀ w ∈ L, w ∈ M) : Viable M t k := by
  intro i hi
  obtain ⟨hlength, s, hs⟩ := h i hi
  exact ⟨hlength, s, hle _ hs⟩

/-- The furthest of two failures is one of them. -/
theorem max (hj : Viable L t j) (hk : Viable L t k) : Viable L t (max j k) := by
  rcases Nat.le_total j k with hle | hle
  · rwa [Nat.max_eq_right hle]
  · rwa [Nat.max_eq_left hle]

/-- What can be completed can be completed further. -/
theorem mul_right (h : Viable L t k) [HasWord M] : Viable (L * M) t k := by
  intro i hi
  obtain ⟨hlength, s, hs⟩ := h i hi
  obtain ⟨w, hw⟩ := HasWord.exists_mem (L := M)
  refine ⟨hlength, s ++ w, ?_⟩
  rw [← List.append_assoc]
  exact Language.append_mem_mul hs hw

/-- A failure behind what was read, if every word can stand behind that. -/
theorem behind {w : List Char} (h : Viable M t k) (hw : ∀ m ∈ M, w ++ m ∈ L) :
    Viable L (w ++ t) (shift ((w ++ t).length - t.length) k) := by
  intro i hi
  have hlength : (w ++ t).length - t.length = w.length := by
    rw [List.length_append, Nat.add_sub_cancel]
  rw [hlength] at hi
  obtain ⟨i', hi', rfl⟩ := shift_eq_succ hi
  obtain ⟨hle, s, hs⟩ := h i' hi'
  refine ⟨by rw [List.length_append]; omega, s, ?_⟩
  rw [List.take_length_add_append, List.append_assoc]
  exact hw _ hs

end Viable

/-! ## Readers that follow a language -/

/-- Whether a reader follows a language. -/
structure Follows (p : Reader α) (L : Language Char) : Prop where
  /-- What is read is a word of the language. -/
  reads : ∀ {t a rest}, p.on t = some (a, rest) → ∃ w ∈ L, t = w ++ rest
  /-- The text before the furthest failure is the beginning of a word. -/
  viable : ∀ t, Viable L t (p.reach t)

namespace Follows

variable {L M P : Language Char}

/-- A reader that follows a language follows every larger one. -/
theorem mono {p : Reader α} (h : Follows p L) (hle : ∀ w ∈ L, w ∈ M) : Follows p M where
  reads hp := by
    obtain ⟨w, hw, ht⟩ := h.reads hp
    exact ⟨w, hle w hw, ht⟩
  viable t := (h.viable t).mono hle

/-- Reading nothing. -/
theorem pure (a : α) : Follows (Pure.pure a : Reader α) 1 where
  reads h := by
    obtain ⟨-, rfl⟩ := Prod.mk.inj (Option.some.inj h)
    exact ⟨[], Language.nil_mem_one, rfl⟩
  viable _ := .zero

/-- Failing without a report. -/
theorem fail : Follows (fail : Reader α) L where
  reads h := nomatch h
  viable _ := .zero

/-- One part after another. What was begun of the first part can be completed if there is a word
for the second part. -/
theorem bind {p : Reader α} {f : α → Reader β} [Steady p] [Tracked p] [∀ a, Steady (f a)]
    [∀ a, Tracked (f a)] [HasWord M] (hp : Follows p L) (hf : ∀ a, Follows (f a) M) :
    Follows (p >>= f) (L * M) where
  reads := by
    intro t b rest h
    rw [on_bind, Option.bind_eq_some_iff] at h
    obtain ⟨⟨a, t'⟩, ha, hb⟩ := h
    obtain ⟨w, hw, rfl⟩ := hp.reads ha
    obtain ⟨w', hw', rfl⟩ := (hf a).reads hb
    exact ⟨w ++ w', Language.append_mem_mul hw hw', (List.append_assoc _ _ _).symm⟩
  viable := by
    intro t
    rw [reach_bind]
    refine (hp.viable t).mul_right.max ?_
    cases ht : p.on t with
    | none => exact .zero
    | some r =>
      obtain ⟨w, hw, rfl⟩ := hp.reads ht
      exact ((hf r.1).viable r.2).behind fun _ => Language.append_mem_mul hw

/-- The value of a part does not matter. -/
theorem map {p : Reader α} [Steady p] [Tracked p] (hp : Follows p L) (f : α → β) :
    Follows (f <$> p) L where
  reads h := by
    rw [on_map, Option.map_eq_some_iff] at h
    obtain ⟨⟨a, t'⟩, ha, heq⟩ := h
    obtain ⟨-, rfl⟩ := Prod.mk.inj heq
    exact hp.reads ha
  viable t := by
    rw [reach_map]
    exact hp.viable t

/-- A part with a name. -/
theorem label {p : Reader α} [Tracked p] (hp : Follows p L) (name : String) :
    Follows (label name p) L where
  reads h := hp.reads h
  viable t := by
    rw [reach_label]
    exact hp.viable t

/-- Alternatives. -/
theorem orElse {p q : Reader α} [Steady p] [Tracked p] [Steady q] [Tracked q] (hp : Follows p L)
    (hq : Follows q L) : Follows (orElse p q) L where
  reads h := by
    rw [on_orElse, Option.or_eq_some_iff] at h
    rcases h with h | ⟨-, h⟩
    · exact hp.reads h
    · exact hq.reads h
  viable := by
    intro t
    rw [reach_orElse]
    refine (hp.viable t).max ?_
    cases p.on t with
    | none => exact hq.viable t
    | some r => exact .zero

/-- Several alternatives. -/
theorem firstOf_cons {p : Reader α} {ps : List (Reader α)} [Steady p] [Tracked p]
    [Steady (firstOf ps)] [Tracked (firstOf ps)] (hp : Follows p L)
    (hps : Follows (firstOf ps) L) : Follows (firstOf (p :: ps)) L :=
  hp.orElse hps

/-- As many repetitions as a bound allows, if one more of them at the front makes no difference to
the language. -/
theorem repeated {p : Reader α} [Steady p] [Tracked p] (hp : Follows p L) (hnil : [] ∈ P)
    (hcons : ∀ w ∈ L * P, w ∈ P) (n : Nat) : Follows (repeated p n) P := by
  have : HasWord P := ⟨[], hnil⟩
  induction n with
  | zero => exact (pure _).mono fun w hw => (Language.mem_one w).1 hw ▸ hnil
  | succ n ih =>
    constructor
    · intro t a rest h
      rw [on, reading_repeated_succ, Cursor.start] at h
      cases ht : p.on t with
      | none =>
        simp only [ht, Option.elim_none, Option.some.injEq, Prod.mk.injEq] at h
        exact ⟨[], hnil, h.2⟩
      | some r =>
        simp only [ht, Option.elim_some, Option.map_eq_some_iff, Prod.mk.injEq] at h
        obtain ⟨r', hr', -, rfl⟩ := h
        obtain ⟨w, hw, rfl⟩ := hp.reads ht
        obtain ⟨w', hw', hrest⟩ := ih.reads hr'
        exact ⟨w ++ w', hcons _ (Language.append_mem_mul hw hw'), by
          rw [hrest, List.append_assoc]⟩
    · intro t
      rw [reach_repeated_succ]
      refine ((hp.viable t).mul_right.mono hcons).max ?_
      cases ht : p.on t with
      | none => exact .zero
      | some r =>
        obtain ⟨w, hw, rfl⟩ := hp.reads ht
        exact (ih.viable r.2).behind fun _ hm => hcons _ (Language.append_mem_mul hw hm)

/-- As many repetitions as there are. -/
theorem many {p : Reader α} [Steady p] [Tracked p] (hp : Follows p L) (hnil : [] ∈ P)
    (hcons : ∀ w ∈ L * P, w ∈ P) : Follows (many p) P where
  reads h := (hp.repeated hnil hcons _).reads h
  viable t := (hp.repeated hnil hcons (t.length + 1)).viable t

/-- One repetition or more. -/
theorem many1 {p : Reader α} [Steady p] [Tracked p] (hp : Follows p L) (hnil : [] ∈ P)
    (hcons : ∀ w ∈ L * P, w ∈ P) : Follows (many1 p) (L * P) := by
  have : HasWord P := ⟨[], hnil⟩
  exact hp.bind fun a => (hp.many hnil hcons).map (List.cons a)

/-- A list of as many items as a bound allows, if the language has the empty list and single items,
and one more item with a separator at the front makes no difference to it. -/
theorem separated {separator : Reader Unit} {item : Reader α} [Steady separator] [Steady item]
    [Tracked separator] [Tracked item] (hitem : Follows item L) (hseparator : Follows separator M)
    (hnil : [] ∈ P) (hlast : ∀ w ∈ L, w ∈ P) (hcons : ∀ w ∈ L * (M * P), w ∈ P) (n : Nat) :
    Follows (separated separator item n) P := by
  have : HasWord P := ⟨[], hnil⟩
  induction n with
  | zero => exact (pure _).mono fun w hw => (Language.mem_one w).1 hw ▸ hnil
  | succ n ih =>
    constructor
    · intro t a rest h
      rw [on, reading_separated_succ, Cursor.start] at h
      cases ht : item.on t with
      | none =>
        simp only [ht, Option.elim_none, Option.some.injEq, Prod.mk.injEq] at h
        exact ⟨[], hnil, h.2⟩
      | some r =>
        obtain ⟨w, hw, rfl⟩ := hitem.reads ht
        cases hr : separator.on r.2 with
        | none =>
          simp only [ht, hr, Option.elim_some, Option.elim_none, Option.some.injEq,
            Prod.mk.injEq] at h
          exact ⟨w, hlast w hw, by rw [h.2]⟩
        | some r' =>
          simp only [ht, hr, Option.elim_some, Option.map_eq_some_iff, Prod.mk.injEq] at h
          obtain ⟨r'', hr'', -, rfl⟩ := h
          obtain ⟨w', hw', hrest⟩ := hseparator.reads hr
          obtain ⟨w'', hw'', hrest'⟩ := ih.reads hr''
          refine ⟨w ++ (w' ++ w''), hcons _ ?_, ?_⟩
          · exact Language.append_mem_mul hw (Language.append_mem_mul hw' hw'')
          · rw [hrest, hrest', List.append_assoc, List.append_assoc]
    · intro t
      rw [reach_separated_succ]
      refine ((hitem.viable t).mono hlast).max ?_
      cases ht : item.on t with
      | none => exact .zero
      | some r =>
        obtain ⟨w, hw, rfl⟩ := hitem.reads ht
        -- Behind the item a separator is looked for, and then further items.
        refine Viable.behind (M := M * P) ?_ fun _ hm => hcons _ (Language.append_mem_mul hw hm)
        refine (hseparator.viable r.2).mul_right.max ?_
        cases hr : separator.on r.2 with
        | none => exact .zero
        | some r' =>
          obtain ⟨w', hw', hrest⟩ := hseparator.reads hr
          rw [Option.elim_some, hrest]
          exact (ih.viable r'.2).behind fun _ => Language.append_mem_mul hw'

/-- A list of as many items as there are, with commas between them. -/
theorem commaSeparated {item : Reader α} [Steady item] [Tracked item] (hitem : Follows item L)
    (hcomma : Follows comma M) (hnil : [] ∈ P) (hlast : ∀ w ∈ L, w ∈ P)
    (hcons : ∀ w ∈ L * (M * P), w ∈ P) :
    Follows (commaSeparated item) P where
  reads h := (hitem.separated hcomma hnil hlast hcons _).reads h
  viable t := (hitem.separated hcomma hnil hlast hcons (t.length + 1)).viable t

end Follows

/-! ## Characters, words and blanks -/

/-- The characters of a class, as words. -/
def letters (accepts : Char → Bool) : Language Char :=
  { w | ∃ c, accepts c = true ∧ w = [c] }

/-- One character of a class that is not empty. -/
theorem follows_next {accepts : Char → Bool} {note : Cursor → Option Failure → Option Failure}
    (hnote : ∀ c furthest, extent (note c furthest) = max (extent furthest) (c.offset + 1))
    (hclass : ∃ c, accepts c = true) : Follows (next accepts note) (letters accepts) where
  reads := by
    intro t a rest h
    cases t with
    | nil => exact nomatch h
    | cons c t =>
      rw [on_next_cons] at h
      split at h
      · next hc =>
        obtain ⟨rfl, rfl⟩ := Prod.mk.inj (Option.some.inj h)
        exact ⟨[c], ⟨c, hc, rfl⟩, rfl⟩
      · exact nomatch h
  viable := by
    intro t
    rw [reach_next hnote]
    obtain ⟨c, hc⟩ := hclass
    have : HasWord (letters accepts) := ⟨[c], c, hc, rfl⟩
    exact .letter _

/-- A certain character. -/
theorem follows_char (x : Char) : Follows (char x) {[x]} := by
  have hchar : Follows (char x) (letters (· == x)) :=
    follows_next (extent_missing _) ⟨x, beq_self_eq_true x⟩
  refine hchar.mono ?_
  rintro w ⟨c, hc, rfl⟩
  rw [beq_iff_eq.1 hc]
  rfl

/-- The characters of a class, one or more of them. -/
theorem follows_run {accepts : Char → Bool} (hclass : ∃ c, accepts c = true) :
    Follows (many1 (satisfy accepts)) (texts fun run : Run accepts => run.chars) := by
  have hchar : Follows (satisfy accepts) (letters accepts) :=
    follows_next (fun _ _ => Failure.extent_fold _ _) hclass
  have hmany1 := hchar.many1 (P := { w | w.all accepts = true }) List.all_nil (by
    rintro _ ⟨_, ⟨c, hc, rfl⟩, w, hw, rfl⟩
    show ([c] ++ w).all accepts = true
    rw [List.cons_append, List.all_cons, hc]
    exact hw)
  refine hmany1.mono ?_
  rintro _ ⟨_, ⟨c, hc, rfl⟩, w, hw, rfl⟩
  refine ⟨⟨c :: w, List.cons_ne_nil c w, ?_⟩, rfl⟩
  rw [List.all_cons, hc]
  exact hw

/-- A word. -/
theorem follows_keyword (word : List Char) : Follows (keyword word) {word} := by
  induction word with
  | nil => exact .pure ()
  | cons x word ih =>
    have hword : Follows (keyword (x :: word)) ({[x]} * {word}) :=
      (follows_char x).bind fun _ => ih
    refine hword.mono ?_
    rintro _ ⟨_, rfl, _, rfl, rfl⟩
    rfl

instance : Nonempty Blanks :=
  ⟨⟨[], List.all_nil⟩⟩

/-- Blanks. -/
theorem follows_skipBlanks : Follows skipBlanks (texts Blanks.chars) where
  reads h := by
    obtain ⟨b, -, ht⟩ := spells_skipBlanks.sound h
    exact ⟨b.chars, ⟨b, rfl⟩, ht⟩
  viable _ := .zero

/-- The end of the text. -/
theorem follows_endOfText : Follows endOfText 1 where
  reads h := by
    obtain ⟨rfl, rfl⟩ := on_endOfText_eq_some.1 h
    exact ⟨[], Language.nil_mem_one, rfl⟩
  viable := by
    intro t
    rw [reach_endOfText]
    split
    · exact .zero
    · exact .one

/-- A comma with the blanks around it. -/
theorem follows_comma :
    Follows comma (texts fun b : Blanks × Blanks => b.1.chars ++ ',' :: b.2.chars) := by
  have hcomma : Follows comma (texts Blanks.chars * ({[',']} * texts Blanks.chars)) :=
    follows_skipBlanks.bind fun _ => (follows_char ',').bind fun _ => follows_skipBlanks
  refine hcomma.mono ?_
  rintro _ ⟨_, ⟨gap, rfl⟩, _, ⟨_, rfl, _, ⟨lead, rfl⟩, rfl⟩, rfl⟩
  exact ⟨(gap, lead), rfl⟩

/-! ## Strings and keys -/

instance : Tracked escaped := by
  unfold escaped
  infer_instance

instance : Tracked escape := by
  unfold escape
  infer_instance

instance (quote : Char) : Tracked (quoted quote) := by
  unfold quoted
  infer_instance

instance : Tracked string := by
  unfold string
  infer_instance

instance : Tracked key := by
  unfold key
  infer_instance

instance : Nonempty { e // e ∈ escapes } :=
  ⟨⟨('n', '\n'), by decide⟩⟩

/-- The character behind a backslash. -/
theorem follows_escaped :
    Follows escaped (texts fun e : { e // e ∈ escapes } => [e.1.1]) := by
  have hchar : ∀ c v, (c, v) ∈ escapes →
      Follows (char c) (texts fun e : { e // e ∈ escapes } => [e.1.1]) := by
    intro c v hmem
    refine (follows_char c).mono ?_
    rintro _ rfl
    exact ⟨⟨(c, v), hmem⟩, rfl⟩
  have hletter : ∀ c v, (c, v) ∈ escapes →
      Follows (char c >>= fun _ => Pure.pure v : Reader Char)
        (texts fun e : { e // e ∈ escapes } => [e.1.1]) :=
    fun c v hmem => (hchar c v hmem).map fun _ => v
  exact (hchar _ '\\' (by decide)).firstOf_cons <| (hchar _ '/' (by decide)).firstOf_cons <|
    (hchar _ '\'' (by decide)).firstOf_cons <| (hchar _ '"' (by decide)).firstOf_cons <|
    (hletter _ _ (by decide)).firstOf_cons <| (hletter _ _ (by decide)).firstOf_cons <|
    (hletter _ _ (by decide)).firstOf_cons .fail

/-- A character between two quotes. -/
theorem follows_piece {quote : Char} (hquote : quote ∈ ['\'', '"']) :
    Follows (orElse (noneOf ['\\', quote]) escape) (texts fun p : Piece quote => p.text) := by
  have hletter : (! ['\\', quote].contains 'a') = true := by
    simp only [List.mem_cons, List.not_mem_nil, or_false] at hquote
    rcases hquote with rfl | rfl <;> decide
  have hplain : Follows (noneOf ['\\', quote]) (letters (! ['\\', quote].contains ·)) :=
    follows_next (extent_missing _) ⟨'a', hletter⟩
  have hescape : Follows escape ({['\\']} * texts fun e : { e // e ∈ escapes } => [e.1.1]) :=
    ((follows_char '\\').bind fun _ => follows_escaped).label _
  refine (hplain.mono ?_).orElse (hescape.mono ?_)
  · rintro _ ⟨c, hc, rfl⟩
    exact ⟨.plain c (by simpa using hc), rfl⟩
  · rintro _ ⟨_, rfl, _, ⟨e, rfl⟩, rfl⟩
    exact ⟨.escape e, rfl⟩

/-- A string between two quotes of one kind. -/
theorem follows_quoted {quote : Char} (hquote : quote ∈ ['\'', '"']) :
    Follows (quoted quote) (texts Quoted.text) := by
  have hpieces : Follows (many (orElse (noneOf ['\\', quote]) escape))
      (texts fun ps : List (Piece quote) => ps.flatMap Piece.text) := by
    refine (follows_piece hquote).many ⟨[], rfl⟩ ?_
    rintro _ ⟨_, ⟨p, rfl⟩, _, ⟨ps, rfl⟩, rfl⟩
    exact ⟨p :: ps, List.flatMap_cons.symm⟩
  have hend : ∀ chars, Follows (do let _ ← char quote; return String.ofList chars) {[quote]} :=
    fun chars => (follows_char quote).map fun _ => String.ofList chars
  have hstring : Follows (quoted quote)
      ({[quote]} * ((texts fun ps : List (Piece quote) => ps.flatMap Piece.text) * {[quote]})) :=
    (follows_char quote).bind fun _ => hpieces.bind hend
  refine hstring.mono ?_
  rintro _ ⟨_, rfl, _, ⟨_, ⟨ps, rfl⟩, _, rfl, rfl⟩, rfl⟩
  exact ⟨⟨⟨quote, hquote⟩, ps⟩, rfl⟩

/-- A string. -/
theorem follows_string : Follows string (texts Quoted.text) :=
  ((follows_quoted (by decide)).orElse (follows_quoted (by decide))).label _

instance : Nonempty Key :=
  ⟨.quoted ⟨⟨'"', by decide⟩, []⟩⟩

/-- A key. -/
theorem follows_key : Follows (orElse string key) (texts Key.text) := by
  have hrun : Follows key (texts fun run : Run isKeyChar => run.chars) :=
    ((follows_run ⟨'a', by decide +kernel⟩).map String.ofList).label _
  refine (follows_string.mono ?_).orElse (hrun.mono ?_)
  · rintro _ ⟨q, rfl⟩
    exact ⟨.quoted q, rfl⟩
  · rintro _ ⟨run, rfl⟩
    exact ⟨.bare run, rfl⟩

end FindSelect.Literal
