import FindSelect.Proofs.Text.Classes
import FindSelect.Sql.Predicate
import Mathlib.Data.List.Chain

/-!
# The lexer of SQL

`lexemes` splits a text of SQL into its tokens: strings in single quotes, in which two quotes stand
for one, the marks `(`, `)`, `,` and `;`, comparison symbols, and bare words. A lexeme is a token
with the blanks before it, so that no character of the text gets lost: `source` puts the text
together again.

`lexemes_source` says that the lexer finds the lexemes a text was put together from, if they are
well spaced: no two of them, one behind the other, run into one.
-/

namespace FindSelect.Sql

/-- A token of SQL. -/
inductive Token where
  /-- A bare word: a keyword, a name, a number or `*`. -/
  | word (text : String)
  /-- A string, by its content. -/
  | string (content : String)
  /-- A comparison symbol. -/
  | symbol (text : String)
  /-- A punctuation mark. -/
  | mark (c : Char)
deriving DecidableEq, Repr

/-- A token with the blanks before it. -/
structure Lexeme where
  /-- The blanks. -/
  gap : List Char
  /-- The token. -/
  token : Token
deriving DecidableEq, Repr

/-- Whether a character is a punctuation mark. -/
def isMark (c : Char) : Bool :=
  c == '(' || c == ')' || c == ',' || c == ';'

/-- Whether a character may stand in a comparison symbol. -/
def isSymbolChar (c : Char) : Bool :=
  c == '=' || c == '!' || c == '<' || c == '>'

/-- Whether a character may stand in a bare word: whatever is not taken by something else. -/
def isWordChar (c : Char) : Bool :=
  !(Text.isBlank c || c == '\'' || isMark c || isSymbolChar c)

/-! ## Splitting a text -/

/-- The content of a string and the text behind it, given the text behind the opening quote. There
is none if the string does not end. -/
def stringBody? : List Char → Option (List Char × List Char)
  | [] => none
  | '\'' :: '\'' :: rest => (stringBody? rest).map fun (s, rest') => ('\'' :: s, rest')
  | '\'' :: rest => some ([], rest)
  | c :: rest => (stringBody? rest).map fun (s, rest') => (c :: s, rest')

/-- The token that starts with a character, and the text behind it. -/
def token? (c : Char) (rest : List Char) : Option (Token × List Char) :=
  if c = '\'' then (stringBody? rest).map fun (s, rest') => (.string (String.ofList s), rest')
  else if isMark c then some (.mark c, rest)
  else if isSymbolChar c then
    some (.symbol (String.ofList (c :: rest.takeWhile isSymbolChar)), rest.dropWhile isSymbolChar)
  else some (.word (String.ofList (c :: rest.takeWhile isWordChar)), rest.dropWhile isWordChar)

/-- The text behind the content of a string is shorter than the text from the content on. -/
theorem length_of_stringBody? {text s rest : List Char} (h : stringBody? text = some (s, rest)) :
    rest.length < text.length := by
  fun_induction stringBody? text generalizing s with
  | case1 => simp at h
  | case2 text ih =>
    obtain ⟨⟨s', rest'⟩, hbody, heq⟩ := Option.map_eq_some_iff.1 h
    have := ih (s := s') (by rw [hbody]; simp_all)
    simp only [List.length_cons]
    omega
  | case3 text => simp_all
  | case4 c text _ _ ih =>
    obtain ⟨⟨s', rest'⟩, hbody, heq⟩ := Option.map_eq_some_iff.1 h
    have := ih (s := s') (by rw [hbody]; simp_all)
    simp only [List.length_cons]
    omega

/-- The text behind a token is not longer than the text behind its first character. -/
theorem length_of_token? {c : Char} {text rest : List Char} {t : Token}
    (h : token? c text = some (t, rest)) : rest.length ≤ text.length := by
  unfold token? at h
  split at h
  · obtain ⟨⟨s, rest'⟩, hbody, heq⟩ := Option.map_eq_some_iff.1 h
    have := length_of_stringBody? hbody
    simp only [Prod.mk.injEq] at heq
    rw [← heq.2]
    omega
  · split at h
    · simp_all
    · split at h
      · simp only [Option.some.injEq, Prod.mk.injEq] at h
        rw [← h.2]
        exact (List.dropWhile_sublist _).length_le
      · simp only [Option.some.injEq, Prod.mk.injEq] at h
        rw [← h.2]
        exact (List.dropWhile_sublist _).length_le

/-- The lexemes of a text. There are none if a string in it does not end. -/
def lexemes (text : List Char) : Option (List Lexeme) :=
  match _ : text.dropWhile Text.isBlank with
  | [] => some []
  | c :: rest =>
    match _ : token? c rest with
    | none => none
    | some (t, rest') => (lexemes rest').map (⟨text.takeWhile Text.isBlank, t⟩ :: ·)
termination_by text.length
decreasing_by
  have hrest := length_of_token? ‹token? c rest = some (t, rest')›
  have hdrop := (List.dropWhile_sublist Text.isBlank (l := text)).length_le
  rw [‹text.dropWhile Text.isBlank = c :: rest›, List.length_cons] at hdrop
  omega

/-! ## Putting a text together -/

/-- How a token is written. -/
def Token.text : Token → List Char
  | word text => text.toList
  | string content => (quoted content).toList
  | symbol text => text.toList
  | mark c => [c]

/-- The text of a list of lexemes. -/
def source (ls : List Lexeme) : List Char :=
  ls.flatMap fun l => l.gap ++ l.token.text

@[simp] theorem source_nil : source [] = [] := rfl

@[simp] theorem source_cons (l : Lexeme) (ls : List Lexeme) :
    source (l :: ls) = l.gap ++ (l.token.text ++ source ls) := by
  simp [source]

@[simp] theorem source_append (ls ms : List Lexeme) :
    source (ls ++ ms) = source ls ++ source ms := by
  simp [source]

/-- Whether a token is one that the lexer can find. -/
def Token.isValid : Token → Bool
  | word text => text != "" && text.toList.all isWordChar
  | string _ => true
  | symbol text => text != "" && text.toList.all isSymbolChar
  | mark c => isMark c

/-- Whether a token ends before the given character, or before the end of the text. -/
def Token.endsBefore (t : Token) (next : Option Char) : Bool :=
  match t with
  | word _ => !next.any isWordChar
  | string _ => next != some '\''
  | symbol _ => !next.any isSymbolChar
  | mark _ => true

/-- The content of a string is found behind the opening quote, if no quote follows the closing
one. -/
theorem stringBody?_quoted (s rest : List Char) (hrest : rest.head? ≠ some '\'') :
    stringBody? ((s.flatMap fun c => if c = '\'' then ['\'', '\''] else [c]) ++ '\'' :: rest) =
      some (s, rest) := by
  induction s with
  | nil =>
    cases rest with
    | nil => simp [stringBody?]
    | cons c rest =>
      have hc : c ≠ '\'' := by simpa using hrest
      simp [stringBody?, hc]
  | cons c s ih =>
    by_cases hc : c = '\''
    · simp [hc, stringBody?, ih]
    · simp [hc, stringBody?, ih]

/-- A character of a word is none of the others. -/
theorem eq_false_of_isWordChar {c : Char} (h : isWordChar c = true) :
    Text.isBlank c = false ∧ c ≠ '\'' ∧ isMark c = false ∧ isSymbolChar c = false := by
  simpa [isWordChar, and_assoc] using h

/-- A mark is neither blank nor a quote. -/
theorem eq_false_of_isMark {c : Char} (h : isMark c = true) :
    Text.isBlank c = false ∧ c ≠ '\'' := by
  simp only [isMark, Bool.or_eq_true, beq_iff_eq] at h
  rcases h with ((rfl | rfl) | rfl) | rfl <;> decide

/-- A character of a symbol is neither blank nor a quote nor a mark. -/
theorem eq_false_of_isSymbolChar {c : Char} (h : isSymbolChar c = true) :
    Text.isBlank c = false ∧ c ≠ '\'' ∧ isMark c = false := by
  simp only [isSymbolChar, Bool.or_eq_true, beq_iff_eq] at h
  rcases h with ((rfl | rfl) | rfl) | rfl <;> decide

/-- A text of characters of a class is one of them with a run of others behind it, which ends before
what follows the text. -/
theorem exists_cons_of_class {p : Char → Bool} {text : String} {rest : List Char}
    (htext : (text != "" && text.toList.all p) = true) (hrest : (!rest.head?.any p) = true) :
    ∃ c tail, text.toList = c :: tail ∧ p c = true ∧
      (tail ++ rest).takeWhile p = tail ∧ (tail ++ rest).dropWhile p = rest := by
  rw [Bool.and_eq_true, bne_iff_ne, ne_eq, ← String.toList_inj] at htext
  obtain ⟨hne, hall⟩ := htext
  obtain ⟨c, tail, hcons⟩ := List.exists_cons_of_ne_nil hne
  rw [hcons, List.all_cons, Bool.and_eq_true] at hall
  exact ⟨c, tail, hcons, hall.1, Text.takeWhile_run hall.2 (by simpa using hrest)⟩

/-- A token that is written is found again, if it ends before what follows it. -/
theorem token?_text {t : Token} {rest : List Char} (hvalid : t.isValid = true)
    (hends : t.endsBefore rest.head? = true) :
    ∃ c tail, t.text = c :: tail ∧ Text.isBlank c = false ∧
      token? c (tail ++ rest) = some (t, rest) := by
  cases t with
  | word text =>
    obtain ⟨c, tail, htext, hc, htake, hdrop⟩ := exists_cons_of_class hvalid hends
    obtain ⟨hblank, hquote, hmark, hsymbol⟩ := eq_false_of_isWordChar hc
    refine ⟨c, tail, htext, hblank, ?_⟩
    simp [token?, hquote, hmark, hsymbol, htake, hdrop, ← htext]
  | string content =>
    have hbody := stringBody?_quoted content.toList rest (by simpa [Token.endsBefore] using hends)
    have htext : (Token.string content).text = '\'' ::
        ((content.toList.flatMap fun c => if c = '\'' then ['\'', '\''] else [c]) ++ ['\'']) := by
      simp only [Token.text, quoted, String.toList_ofList]
      rfl
    refine ⟨'\'', _, htext, by decide, ?_⟩
    simp [token?, hbody]
  | symbol text =>
    obtain ⟨c, tail, htext, hc, htake, hdrop⟩ := exists_cons_of_class hvalid hends
    obtain ⟨hblank, hquote, hmark⟩ := eq_false_of_isSymbolChar hc
    refine ⟨c, tail, htext, hblank, ?_⟩
    simp [token?, hquote, hmark, hc, htake, hdrop, ← htext]
  | mark c =>
    obtain ⟨hblank, hquote⟩ := eq_false_of_isMark hvalid
    have hmark : isMark c = true := hvalid
    exact ⟨c, [], rfl, hblank, by simp [token?, hquote, hmark]⟩

/-- A lexeme at the start of a text is found, if it ends before what follows it. -/
theorem lexemes_cons {l : Lexeme} {rest : List Char} (hgap : l.gap.all Text.isBlank = true)
    (hvalid : l.token.isValid = true) (hends : l.token.endsBefore rest.head? = true) :
    lexemes (l.gap ++ (l.token.text ++ rest)) = (lexemes rest).map (l :: ·) := by
  -- A token starts with a character that is not blank, so the gap ends where it should.
  obtain ⟨c, tail, htext, hblank, htoken⟩ := token?_text hvalid hends
  have hhead : (c :: (tail ++ rest)).head?.any Text.isBlank = false := by simpa using hblank
  obtain ⟨htake, hdrop⟩ := Text.takeWhile_run hgap hhead
  rw [htext, List.cons_append, lexemes]
  split
  · next h => simp [hdrop] at h
  · next c' rest' h =>
    rw [hdrop, List.cons.injEq] at h
    obtain ⟨rfl, rfl⟩ := h
    split
    · next h => simp [htoken] at h
    · next t rest'' h =>
      rw [htoken, Option.some.injEq, Prod.mk.injEq] at h
      obtain ⟨rfl, rfl⟩ := h
      rw [htake]

/-! ## Well spaced lexemes -/

/-- Whether two lexemes, one behind the other, stay apart: there is a gap between them, or one of
them is a mark. -/
def Lexeme.Apart (l m : Lexeme) : Prop :=
  m.gap ≠ [] ∨ (∃ c, l.token = .mark c) ∨ ∃ c, m.token = .mark c

/-- Whether a list of lexemes is well spaced: gaps are blank, tokens are such that the lexer can
find them, and no two of them run into one. -/
structure WellSpaced (ls : List Lexeme) : Prop where
  /-- The gaps are blank. -/
  gap : ∀ l ∈ ls, l.gap.all Text.isBlank = true
  /-- The tokens can be found. -/
  valid : ∀ l ∈ ls, l.token.isValid = true
  /-- Neighbours stay apart. -/
  apart : ls.IsChain Lexeme.Apart

/-- A character that is blank or a mark ends every token but a mark. -/
theorem Token.endsBefore_of_boundary (t : Token) {c : Char}
    (h : Text.isBlank c = true ∨ isMark c = true) : t.endsBefore (some c) = true := by
  have hword : isWordChar c = false := by
    rcases h with h | h <;> simp [isWordChar, h]
  have hquote : c ≠ '\'' := by
    rcases h with h | h
    · rintro rfl
      exact absurd h (by decide)
    · exact (eq_false_of_isMark h).2
  have hsymbol : isSymbolChar c = false := by
    by_contra hc
    obtain ⟨hblank, -, hmark⟩ := eq_false_of_isSymbolChar (by simpa using hc)
    rcases h with h | h
    · exact absurd h (by simp [hblank])
    · exact absurd h (by simp [hmark])
  cases t with
  | word text => simp [Token.endsBefore, hword]
  | string content => simp [Token.endsBefore, hquote]
  | symbol text => simp [Token.endsBefore, hsymbol]
  | mark c => rfl

/-- A lexeme ends before one that stays apart from it. -/
theorem Lexeme.Apart.endsBefore {l m : Lexeme} (h : l.Apart m)
    (hgap : m.gap.all Text.isBlank = true) (hvalid : m.token.isValid = true) (rest : List Char) :
    l.token.endsBefore (m.gap ++ (m.token.text ++ rest)).head? = true := by
  -- What follows starts with a blank of the gap or, without a gap, with a mark.
  cases hm : m.gap with
  | cons c gap =>
    rw [hm, List.all_cons, Bool.and_eq_true] at hgap
    exact l.token.endsBefore_of_boundary (.inl hgap.1)
  | nil =>
    rcases h with h | ⟨c, hc⟩ | ⟨c, hc⟩
    · exact absurd hm h
    · rw [hc]
      rfl
    · rw [hc] at hvalid ⊢
      exact l.token.endsBefore_of_boundary (.inr hvalid)

/-- The lexer finds the lexemes that a text was put together from. -/
theorem lexemes_source {ls : List Lexeme} (h : WellSpaced ls) : lexemes (source ls) = some ls := by
  induction ls with
  | nil =>
    rw [source_nil, lexemes]
    rfl
  | cons l ls ih =>
    obtain ⟨hgap, hvalid, hapart⟩ := h
    rw [List.forall_mem_cons] at hgap hvalid
    have hends : l.token.endsBefore (source ls).head? = true := by
      cases ls with
      | nil => cases l.token <;> rfl
      | cons m ls =>
        rw [List.isChain_cons_cons] at hapart
        rw [source_cons]
        exact hapart.1.endsBefore (hgap.2 m (by simp)) (hvalid.2 m (by simp)) _
    rw [source_cons, lexemes_cons hgap.1 hvalid.1 hends, ih ⟨hgap.2, hvalid.2, hapart.tail⟩]
    rfl

/-- Two well spaced lists, one behind the other, are well spaced if they stay apart. -/
theorem WellSpaced.append {ls ms : List Lexeme} (hl : WellSpaced ls) (hm : WellSpaced ms)
    (h : ∀ l ∈ ls.getLast?, ∀ m ∈ ms.head?, l.Apart m) : WellSpaced (ls ++ ms) where
  gap l hmem := (List.mem_append.1 hmem).elim (hl.gap l) (hm.gap l)
  valid l hmem := (List.mem_append.1 hmem).elim (hl.valid l) (hm.valid l)
  apart := List.isChain_append.2 ⟨hl.apart, hm.apart, h⟩

/-- A lexeme before a well spaced list. -/
theorem WellSpaced.cons {l : Lexeme} {ms : List Lexeme} (hgap : l.gap.all Text.isBlank = true)
    (hvalid : l.token.isValid = true) (hm : WellSpaced ms) (h : ∀ m ∈ ms.head?, l.Apart m) :
    WellSpaced (l :: ms) where
  gap := List.forall_mem_cons.2 ⟨hgap, hm.gap⟩
  valid := List.forall_mem_cons.2 ⟨hvalid, hm.valid⟩
  apart := List.isChain_cons.2 ⟨h, hm.apart⟩

/-- The empty list is well spaced. -/
theorem WellSpaced.nil : WellSpaced [] :=
  ⟨by simp, by simp, .nil⟩

/-- A character of a field path may stand in a bare word. -/
theorem isWordChar_of_isFieldChar {c : Char} (h : c = '.' ∨ isFieldChar c = true) :
    isWordChar c = true := by
  rcases h with rfl | h
  · decide
  · -- None of the special characters is a field character.
    have hother : ∀ x, isFieldChar x = false → c ≠ x := by
      rintro x hx rfl
      exact absurd h (by simp [hx])
    have hmark : isMark c = false := by
      simp [isMark, hother '(' (by decide), hother ')' (by decide), hother ',' (by decide),
        hother ';' (by decide)]
    have hsymbol : isSymbolChar c = false := by
      simp [isSymbolChar, hother '=' (by decide), hother '!' (by decide), hother '<' (by decide),
        hother '>' (by decide)]
    simp [isWordChar, isBlank_of_isFieldChar h, hother '\'' (by decide), hmark, hsymbol]

/-- A field path is a bare word. -/
theorem isValid_word_of_isFieldPath {name : String} (h : isFieldPath name = true) :
    (Token.word name).isValid = true := by
  obtain ⟨hne, hchars⟩ := chars_of_isFieldPath h
  simp only [Token.isValid, Bool.and_eq_true, bne_iff_ne, List.all_eq_true]
  exact ⟨hne, fun c hc => isWordChar_of_isFieldChar (hchars c hc)⟩

end FindSelect.Sql
