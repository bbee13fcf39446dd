import FindSelect.Proofs.Shell.Arguments
import FindSelect.Proofs.Shell.Reading

/-!
# Which texts are calls

A `WrittenCall` is a call with all that its text has beside its parts: the blanks that may stand at
both ends and around the argument list, and the semicolon. A text is a call if and only if it is the
text of such a call (`read?_eq_some`), and then there is one way only to take it apart: a word ends
where its run of word characters does, and behind the argument list no parenthesis can follow, so it
reaches to the last one, whatever stands in it.

Nothing but the collection, the method and the arguments goes into a query, and the blanks at the
ends of the argument list do not count. So the rest of a call makes no difference, neither to the
query nor to the error that is reported (`parse_eq_of_sameRequest`).
-/

namespace FindSelect

/-- Blanks backwards. -/
def Literal.Blanks.reverse (b : Blanks) : Blanks :=
  ⟨b.chars.reverse, by rw [List.all_reverse]; exact b.all⟩

namespace Shell

open Literal (Blanks Run)

/-! ## Calls as they are written -/

/-- What may stand behind the argument list: blanks, with a semicolon between them or not. -/
structure Closing where
  /-- The blanks behind the parenthesis. -/
  gap : Blanks
  /-- Whether there is a semicolon. -/
  semicolon : Bool
  /-- The blanks at the end. -/
  trail : Blanks

/-- The text behind the argument list. -/
def Closing.text (closing : Closing) : List Char :=
  closing.gap.chars ++ ((if closing.semicolon then [';'] else []) ++ closing.trail.chars)

/-- A call as it is written. -/
structure WrittenCall where
  /-- The blanks at the start. -/
  lead : Blanks
  /-- The word that names the database. -/
  database : Run Text.isWord
  /-- The word that names the collection. -/
  collection : Run Text.isWord
  /-- The word that names the method. -/
  method : Run Text.isWord
  /-- The blanks before the argument list. -/
  gap : Blanks
  /-- All that stands between the parentheses. -/
  arguments : List Char
  /-- What stands behind the argument list. -/
  closing : Closing

namespace WrittenCall

/-- The text of a call up to its argument list. -/
def front (w : WrittenCall) : List Char :=
  w.lead.chars ++ (w.database.chars ++ '.' :: (w.collection.chars ++
    '.' :: (w.method.chars ++ w.gap.chars)))

/-- The text of a call. -/
def text (w : WrittenCall) : List Char :=
  w.front ++ '(' :: (w.arguments ++ ')' :: w.closing.text)

/-- The parts of a call. -/
def call (w : WrittenCall) : Call :=
  ⟨w.database.chars, w.collection.chars, w.method.chars, w.arguments⟩

end WrittenCall

/-! ## Reading the parts -/

/-- A character that is found is the first one. -/
theorem after?_eq_some {c : Char} {text rest : List Char} :
    after? c text = some rest ↔ text = c :: rest := by
  cases text with
  | nil => simp [after?]
  | cons c' text =>
    rw [after?]
    split
    · next h => simp [h]
    · next h => simp [h]

/-- A word is read as far as its run of word characters goes. -/
theorem word?_run (run : Run Text.isWord) {rest : List Char}
    (hrest : rest.head?.any Text.isWord = false) :
    word? (run.chars ++ rest) = some (run.chars, rest) := by
  obtain ⟨htake, hdrop⟩ := Text.takeWhile_run run.all hrest
  unfold word?
  rw [htake, hdrop]
  split
  · next hnil => exact absurd hnil run.ne_nil
  · rfl

/-- What is read as a word is a run of word characters. -/
theorem exists_run_of_word? {text word rest : List Char} (h : word? text = some (word, rest)) :
    ∃ run : Run Text.isWord, run.chars = word ∧ text = run.chars ++ rest := by
  unfold word? at h
  split at h
  · exact absurd h (by simp)
  · next hne =>
    obtain ⟨rfl, rfl⟩ := Prod.mk.inj (Option.some.inj h)
    exact ⟨⟨_, hne, List.all_takeWhile⟩, rfl, List.takeWhile_append_dropWhile.symm⟩

/-- Before a word no blanks are skipped. -/
theorem trimLeft_run (run : Run Text.isWord) (rest : List Char) :
    Text.trimLeft (run.chars ++ rest) = run.chars ++ rest := by
  have hhead := run.head_accepted rest
  obtain ⟨c, chars, htext⟩ : ∃ c chars, run.chars ++ rest = c :: chars :=
    List.exists_cons_of_ne_nil (by simp [run.ne_nil])
  rw [htext] at hhead ⊢
  have hword : Text.isWord c = true := hhead c rfl
  refine Text.trimLeft_cons ?_
  by_contra hblank
  rw [Text.isWord_of_isBlank (by simpa using hblank)] at hword
  exact Bool.false_ne_true hword

/-- Blanks before a character that is not blank are skipped. -/
theorem trimLeft_blanks (b : Blanks) {c : Char} (hc : Text.isBlank c = false) (rest : List Char) :
    Text.trimLeft (b.chars ++ c :: rest) = c :: rest := by
  rw [Text.trimLeft_append b.all, Text.trimLeft_cons hc]

/-- What is skipped is a run of blanks. -/
theorem exists_blanks (text : List Char) : ∃ b : Blanks, text = b.chars ++ Text.trimLeft text := by
  obtain ⟨lead, hlead, htext⟩ := Text.exists_trimLeft text
  exact ⟨⟨lead, hlead⟩, htext⟩

/-- A word ends before blanks and the parenthesis behind them. -/
theorem not_isWord_gap (gap : Blanks) (rest : List Char) :
    (gap.chars ++ '(' :: rest).head?.any Text.isWord = false := by
  obtain ⟨chars, hall⟩ := gap
  cases chars with
  | nil =>
    show Text.isWord '(' = false
    decide +kernel
  | cons c chars =>
    rw [List.all_cons, Bool.and_eq_true] at hall
    exact Text.isWord_of_isBlank hall.1

/-- The argument list ends before the last parenthesis. -/
theorem beforeClosing?_closing (text : List Char) (closing : Closing) :
    beforeClosing? (text ++ ')' :: closing.text) = some text := by
  obtain ⟨gap, semicolon, trail⟩ := closing
  have hparenthesis : Text.isBlank ')' = false := by decide
  have hsemicolon : Text.isBlank ';' = false := by decide
  -- Backwards, the blanks at the end come first.
  have htext : (text ++ ')' :: Closing.text ⟨gap, semicolon, trail⟩).reverse =
      trail.reverse.chars ++ ((if semicolon then [';'] else []) ++
        (gap.reverse.chars ++ ')' :: text.reverse)) := by
    cases semicolon <;> simp [Closing.text, Blanks.reverse]
  unfold beforeClosing?
  rw [htext]
  cases semicolon with
  | true =>
    rw [if_pos rfl, List.singleton_append, trimLeft_blanks _ hsemicolon]
    simp only [after?, if_true, Option.map_some, Option.getD_some, trimLeft_blanks _ hparenthesis,
      List.reverse_reverse]
  | false =>
    have hboth : Text.trimLeft (trail.reverse.chars ++ ([] ++
        (gap.reverse.chars ++ ')' :: text.reverse))) = ')' :: text.reverse := by
      rw [Text.trimLeft_append trail.reverse.all, List.nil_append,
        trimLeft_blanks _ hparenthesis]
    simp only [Bool.false_eq_true, if_false, hboth]
    simp [after?]

/-- An argument list that is found ends before a parenthesis with nothing behind it but blanks and
perhaps a semicolon. -/
theorem exists_closing {text inner : List Char} (h : beforeClosing? text = some inner) :
    ∃ closing : Closing, text = inner ++ ')' :: closing.text := by
  unfold beforeClosing? at h
  obtain ⟨front, hfront, rfl⟩ := Option.map_eq_some_iff.1 h
  rw [after?_eq_some] at hfront
  obtain ⟨trail, htrail⟩ := exists_blanks text.reverse
  cases hsemicolon : after? ';' (Text.trimLeft text.reverse) with
  | none =>
    rw [hsemicolon, Option.map_none, Option.getD_none] at hfront
    rw [hfront] at htrail
    refine ⟨⟨trail.reverse, false, ⟨[], rfl⟩⟩, ?_⟩
    rw [← List.reverse_inj, htrail]
    simp [Closing.text, Blanks.reverse]
  | some rest =>
    rw [hsemicolon, Option.map_some, Option.getD_some] at hfront
    obtain ⟨gap, hgap⟩ := exists_blanks rest
    rw [hfront] at hgap
    rw [after?_eq_some.1 hsemicolon, hgap] at htrail
    refine ⟨⟨gap.reverse, true, trail.reverse⟩, ?_⟩
    rw [← List.reverse_inj, htrail]
    simp [Closing.text, Blanks.reverse]

/-! ## Reading a call -/

/-- A call that is written is read. -/
theorem read?_text (w : WrittenCall) : Call.read? w.text = some w.call := by
  obtain ⟨lead, database, collection, method, gap, arguments, closing⟩ := w
  have hdot : ∀ rest : List Char, ('.' :: rest).head?.any Text.isWord = false := by
    intro rest
    show Text.isWord '.' = false
    decide +kernel
  have hdatabase := fun rest => word?_run database (hdot rest)
  have hcollection := fun rest => word?_run collection (hdot rest)
  have hmethod := fun rest => word?_run method (not_isWord_gap gap rest)
  have hopen := fun rest => trimLeft_blanks gap (show Text.isBlank '(' = false by decide) rest
  have hlead := fun rest => Text.trimLeft_append lead.all (database.chars ++ rest)
  simp only [Call.read?, WrittenCall.text, WrittenCall.front, List.append_assoc, List.cons_append,
    hlead, trimLeft_run, hdatabase, hcollection, hmethod, hopen, after?, if_true,
    beforeClosing?_closing, Option.bind_eq_bind, Option.bind_some]
  rfl

/-- A call that is read is written. -/
theorem exists_writtenCall {text : List Char} {call : Call} (h : Call.read? text = some call) :
    ∃ w : WrittenCall, w.text = text ∧ w.call = call := by
  unfold Call.read? at h
  simp only [Option.bind_eq_bind, Option.bind_eq_some_iff, after?_eq_some, Prod.exists] at h
  obtain ⟨_, _, hdatabase, _, rfl, _, _, hcollection, _, rfl, _, rest, hmethod, _, hopen,
    arguments, harguments, hcall⟩ := h
  obtain ⟨database, rfl, hstart⟩ := exists_run_of_word? hdatabase
  obtain ⟨collection, rfl, rfl⟩ := exists_run_of_word? hcollection
  obtain ⟨method, rfl, rfl⟩ := exists_run_of_word? hmethod
  obtain ⟨closing, rfl⟩ := exists_closing harguments
  obtain ⟨lead, hlead⟩ := exists_blanks text
  obtain ⟨gap, hgap⟩ := exists_blanks rest
  rw [hstart] at hlead
  rw [hopen] at hgap
  refine ⟨⟨lead, database, collection, method, gap, arguments, closing⟩, ?_, ?_⟩
  · rw [hlead, hgap]
    simp [WrittenCall.text, WrittenCall.front]
  · exact Option.some.inj hcall

/-- A text is read as a call if and only if it is the text of that call. -/
theorem read?_eq_some {text : List Char} {call : Call} :
    Call.read? text = some call ↔ ∃ w : WrittenCall, w.text = text ∧ w.call = call := by
  constructor
  · exact exists_writtenCall
  · rintro ⟨w, rfl, rfl⟩
    exact read?_text w

/-- Behind the argument list no parenthesis follows. -/
theorem Closing.parenthesis_notMem (closing : Closing) : ')' ∉ closing.text := by
  have hblanks : ∀ b : Blanks, ')' ∉ b.chars := fun b hb =>
    absurd (List.all_eq_true.1 b.all ')' hb) (by decide)
  unfold Closing.text
  cases closing.semicolon <;> simp [hblanks]

/-! ## What a call asks for -/

/-- Whether two calls ask for the same: of the same collection, by the same method, which may be
written in upper or lower case if it is known, and with the same arguments up to the blanks at the
ends. -/
structure Call.SameRequest (call call' : Call) : Prop where
  /-- The collections are the same. -/
  collection : call.collection = call'.collection
  /-- The methods are the same, or both of them find documents. -/
  method : call.method = call'.method ∨
    (Text.sameIgnoringCase (String.ofList call.method) "find" = true ∧
      Text.sameIgnoringCase (String.ofList call'.method) "find" = true)
  /-- The argument lists are the same up to the blanks at their ends. -/
  arguments : Text.trim call.arguments = Text.trim call'.arguments

/-- Calls that ask for the same are read as the same query, or refused for the same reason. -/
theorem parse_eq_of_sameRequest {text text' : String} {call call' : Call}
    (hcall : Call.read? text.toList = some call) (hcall' : Call.read? text'.toList = some call')
    (h : call.SameRequest call') : parse text = parse text' := by
  have harguments : arguments call.arguments = arguments call'.arguments :=
    arguments_eq_of_trim_eq h.arguments
  have hmethod : method (String.ofList call.method) = method (String.ofList call'.method) := by
    rcases h.method with heq | ⟨hfind, hfind'⟩
    · rw [heq]
    · rw [method, method, if_pos hfind, if_pos hfind']
  unfold parse
  rw [hcall, hcall']
  simp only [harguments, hmethod, h.collection]

/-- A text is read as a call if and only if it can be taken apart into the words and the argument
list of that call, with blanks and perhaps a semicolon where they may stand. It can be taken apart
in one way only, but for the blanks, and the argument list ends before the last closing parenthesis.
Calls that ask for the same come to the same query or to the same error, whatever their databases,
their blanks and their semicolons. -/
theorem calls_decompose_uniquely :
    (∀ (text : List Char) (call : Call), Call.read? text = some call ↔
      ∃ w : WrittenCall, w.text = text ∧ w.call = call) ∧
    (∀ w w' : WrittenCall, w.text = w'.text → w.call = w'.call) ∧
    (∀ w : WrittenCall, w.text = w.front ++ '(' :: (w.arguments ++ ')' :: w.closing.text) ∧
      ')' ∉ w.closing.text) ∧
    ∀ w w' : WrittenCall, w.call.SameRequest w'.call →
      parse (String.ofList w.text) = parse (String.ofList w'.text) := by
  have hread : ∀ w : WrittenCall, Call.read? (String.ofList w.text).toList = some w.call := by
    intro w
    rw [String.toList_ofList, read?_text]
  refine ⟨fun _ _ => read?_eq_some, ?_, fun w => ⟨rfl, w.closing.parenthesis_notMem⟩, ?_⟩
  · intro w w' h
    have hcall := read?_text w
    rw [h, read?_text] at hcall
    exact (Option.some.inj hcall).symm
  · intro w w' h
    exact parse_eq_of_sameRequest (hread w) (hread w') h

/-- A call on users whose argument list has another call in it and is not a literal. -/
def plainCall : WrittenCall where
  lead := ⟨[], List.all_nil⟩
  database := ⟨['d', 'b'], List.cons_ne_nil _ _, by decide +kernel⟩
  collection := ⟨['u', 's', 'e', 'r', 's'], List.cons_ne_nil _ _, by decide +kernel⟩
  method := ⟨['f', 'i', 'n', 'd'], List.cons_ne_nil _ _, by decide +kernel⟩
  gap := ⟨[], List.all_nil⟩
  arguments := "'x'); db.t.find(".toList
  closing := ⟨⟨[], List.all_nil⟩, false, ⟨['\n'], rfl⟩⟩

/-- The same call on another database, with blanks wherever they may stand and a semicolon. -/
def decoratedCall : WrittenCall where
  lead := ⟨['\n', ' '], rfl⟩
  database := ⟨['s', 'h', 'o', 'p'], List.cons_ne_nil _ _, by decide +kernel⟩
  collection := ⟨['u', 's', 'e', 'r', 's'], List.cons_ne_nil _ _, by decide +kernel⟩
  method := ⟨['F', 'I', 'N', 'D'], List.cons_ne_nil _ _, by decide +kernel⟩
  gap := ⟨['\t'], rfl⟩
  arguments := " 'x'); db.t.find( ".toList
  closing := ⟨⟨['\t'], rfl⟩, true, ⟨['\n'], rfl⟩⟩

/-- The decorated call is refused as the plain one is. The line break at the end of the plain one
may as well stand before the semicolon that it does not have. -/
theorem calls_decompose_uniquely_decoratedCall :
    plainCall.text = "db.users.find('x'); db.t.find()\n".toList ∧
    decoratedCall.text = "\n shop.users.FIND\t( 'x'); db.t.find( )\t;\n".toList ∧
    plainCall.call.SameRequest decoratedCall.call ∧
    parse (String.ofList plainCall.text) = parse (String.ofList decoratedCall.text) ∧
    ∃ w : WrittenCall, w.closing ≠ plainCall.closing ∧ w.text = plainCall.text ∧
      w.call = plainCall.call := by
  obtain ⟨-, hunique, -, hparse⟩ := calls_decompose_uniquely
  have hsame : plainCall.call.SameRequest decoratedCall.call :=
    ⟨rfl, .inr (by decide), by decide⟩
  let shifted : WrittenCall :=
    { plainCall with closing := ⟨⟨['\n'], rfl⟩, false, ⟨[], List.all_nil⟩⟩ }
  have htext : shifted.text = plainCall.text := by decide
  refine ⟨by decide, by decide, hsame, hparse _ _ hsame, shifted, ?_, htext, hunique _ _ htext⟩
  intro h
  exact absurd (congrArg (fun c => c.gap.chars) h) (by decide)

end Shell

end FindSelect
