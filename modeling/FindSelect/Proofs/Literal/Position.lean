import FindSelect.Proofs.Literal.Acceptance

/-!
# Where a text is refused

A text that is not a literal is refused with the furthest failure of its reading, `failure`, whose
place is told as a line and a column. `rejection_position` says what they are: the column counts the
bytes behind the last line break, and the line counts the line breaks before the place, from one.
Right behind a line break, however, the line is still the one that the line break ends. So a line
and a column belong to one place of a text, with one exception: the place behind the first line
break is told in the same way as the start of the text.
-/

namespace FindSelect.Literal

open Reader

/-! ## The failure that is told -/

section

variable {α : Type}

/-- Reads a whole text. -/
def Reader.whole (p : Reader α) : Reader α := do
  let a ← p
  endOfText
  return a

/-- A text that is not read is refused with the furthest failure of reading it whole. -/
theorem run_eq_error {p : Reader α} {text : String} {d : Diagnosis} :
    p.run text = .error d ↔ p.whole.on text.toList = none ∧
      d = ((p.whole (Cursor.start text.toList) none).furthest.getD
        ⟨0, [], text.toList.head?⟩).locate text.toList := by
  have hwhole : (do let a ← p; endOfText; return a : Reader α) = p.whole := rfl
  unfold run Reader.on
  dsimp only
  rw [hwhole]
  rcases p.whole (Cursor.start text.toList) none with ⟨_ | ⟨a, c⟩, furthest⟩
  · simp [Outcome.reading, eq_comm]
  · simp [Outcome.reading]

end

/-- The grammar of literals for a text, which is read whole. -/
def wholeValue (text : String) : Reader Value :=
  (value (text.length + 1)).whole

/-- The failure with which a text is refused that is not a literal: the furthest one. -/
def failure (text : String) : Failure :=
  (wholeValue text (Cursor.start text.toList) none).furthest.getD ⟨0, [], text.toList.head?⟩

/-- What is said about a text is said about its furthest failure. -/
theorem parse_eq_notALiteral {text : String} {d : Diagnosis}
    (h : parse text = .error (.format (.notALiteral d))) :
    (wholeValue text).on text.toList = none ∧ d = (failure text).locate text.toList := by
  unfold parse at h
  split at h
  · cases hread : read text with
    | ok v =>
      rw [hread] at h
      exact nomatch h
    | error d' =>
      rw [hread] at h
      obtain rfl : d' = d := by simpa [Except.mapError] using h
      exact run_eq_error.1 hread
  · exact absurd h (by simp)

/-! ## Lines and columns -/

/-- The number of bytes of a text in UTF-8. -/
def bytes (text : List Char) : Nat :=
  (text.map Char.utf8Size).sum

/-- A text that is not empty has a byte. -/
theorem bytes_eq_zero {text : List Char} : bytes text = 0 ↔ text = [] := by
  cases text with
  | nil => exact iff_of_true rfl rfl
  | cons c text =>
    have hc := c.utf8Size_pos
    simp only [bytes, List.map_cons, List.sum_cons, reduceCtorEq, iff_false]
    omega

/-- The bytes of two texts add up. -/
theorem bytes_append (s t : List Char) : bytes (s ++ t) = bytes s + bytes t := by
  rw [bytes, List.map_append, List.sum_append]
  rfl

/-- Whether a text ends with a line: what stands behind its last line break, and all of it if there
is none. -/
def EndsWithLine (before line : List Char) : Prop :=
  '\n' ∉ line ∧ ∃ lines, before = lines ++ line ∧ ∀ c ∈ lines.getLast?, c = '\n'

/-- Every text ends with a line. -/
theorem exists_endsWithLine (before : List Char) : ∃ line, EndsWithLine before line := by
  refine ⟨(before.reverse.takeWhile (· != '\n')).reverse, ?_,
    (before.reverse.dropWhile (· != '\n')).reverse, ?_, ?_⟩
  · intro hmem
    have hbreak := List.all_eq_true.1 List.all_takeWhile _ (List.mem_reverse.1 hmem)
    exact absurd hbreak (by decide)
  · rw [← List.reverse_append, List.takeWhile_append_dropWhile, List.reverse_reverse]
  · intro c hc
    rw [List.getLast?_reverse] at hc
    have hhead := List.head?_dropWhile_not (· != '\n') before.reverse
    rw [hc] at hhead
    simpa using hhead

/-- The column counts the bytes of the line. -/
theorem EndsWithLine.columnAfter_eq {before line : List Char} (h : EndsWithLine before line) :
    columnAfter before = 1 + bytes line := by
  obtain ⟨hline, lines, rfl, hlast⟩ := h
  have hsum : ∀ (l : List Char) n, l.foldl (fun n c => n + c.utf8Size) n = n + bytes l := by
    intro l
    induction l with
    | nil => exact fun n => rfl
    | cons c l ih =>
      intro n
      rw [List.foldl_cons, ih, bytes, bytes, List.map_cons, List.sum_cons, Nat.add_assoc]
  have hrun : line.reverse.all (· != '\n') = true := by
    rw [List.all_reverse, List.all_eq_true]
    intro c hc
    exact bne_iff_ne.2 fun heq => hline (heq ▸ hc)
  have hend : lines.reverse.head?.any (· != '\n') = false := by
    rw [List.head?_reverse]
    cases hc : lines.getLast? with
    | none => rfl
    | some c => simp [hlast c hc]
  rw [columnAfter, List.reverse_append, (Text.takeWhile_run hrun hend).1, hsum, bytes,
    List.map_reverse, List.sum_reverse]
  rfl

/-- The line counts the line breaks from one, but right behind a line break it does not count that
one. -/
theorem EndsWithLine.lineAfter_eq {before line : List Char} (h : EndsWithLine before line) :
    lineAfter before =
      if line = [] then max 1 (before.count '\n') else before.count '\n' + 1 := by
  obtain ⟨hline, lines, rfl, hlast⟩ := h
  unfold lineAfter
  dsimp only
  rcases List.eq_nil_or_concat line with rfl | ⟨line, c, rfl⟩
  · rw [List.append_nil, if_pos rfl]
    cases hc : lines.getLast? with
    | none => rfl
    | some c => simp [hlast c hc]
  · have hc : c ≠ '\n' := fun heq => hline (by simp [heq])
    have hgetLast : (lines ++ line.concat c).getLast? = some c := by simp
    rw [if_neg (by simp), hgetLast]
    split
    · next heq => exact absurd heq (by simp)
    · next heq => exact absurd (Option.some.inj heq) hc
    · rfl

/-- Behind more of the same line the column is greater by what was added. -/
theorem columnAfter_append (before : List Char) {w : List Char} (hw : '\n' ∉ w) :
    columnAfter (before ++ w) = columnAfter before + bytes w := by
  obtain ⟨line, hline⟩ := exists_endsWithLine before
  have hlonger : EndsWithLine (before ++ w) (line ++ w) := by
    obtain ⟨hbreak, lines, rfl, hlast⟩ := hline
    exact ⟨by simp [hbreak, hw], lines, List.append_assoc _ _ _, hlast⟩
  rw [hlonger.columnAfter_eq, hline.columnAfter_eq, bytes_append, Nat.add_assoc]

/-- The line is known from the line breaks and from whether the column is the first one. -/
theorem lineAfter_eq (before : List Char) :
    lineAfter before =
      if columnAfter before = 1 then max 1 (before.count '\n') else before.count '\n' + 1 := by
  obtain ⟨line, hline⟩ := exists_endsWithLine before
  have hfirst : columnAfter before = 1 ↔ line = [] := by
    rw [hline.columnAfter_eq, Nat.add_eq_left, bytes_eq_zero]
  rw [hline.lineAfter_eq]
  simp only [hfirst]

/-- At the first column of a line there is nothing before the place, or a line break. -/
theorem columnAfter_eq_one {before : List Char} :
    columnAfter before = 1 ↔ ∀ c ∈ before.getLast?, c = '\n' := by
  obtain ⟨line, hline⟩ := exists_endsWithLine before
  rw [hline.columnAfter_eq, Nat.add_eq_left, bytes_eq_zero]
  obtain ⟨hbreak, lines, rfl, hlast⟩ := hline
  rcases List.eq_nil_or_concat line with rfl | ⟨line, c, rfl⟩
  · simpa using hlast
  · have hc : c ≠ '\n' := fun heq => hbreak (by simp [heq])
    simp [hc]

/-- A place and one behind it are told in the same way if and only if the first one is the start of
the text and the second one lies right behind the first line break. -/
theorem line_column_append_iff (before : List Char) {w : List Char} (hw : w ≠ []) :
    (lineAfter before = lineAfter (before ++ w) ∧ columnAfter before = columnAfter (before ++ w)) ↔
      before = [] ∧ w.getLast? = some '\n' ∧ w.count '\n' = 1 := by
  constructor
  · rintro ⟨hline, hcolumn⟩
    have hbreak : '\n' ∈ w := by
      by_contra hbreak
      rw [columnAfter_append before hbreak, Nat.left_eq_add, bytes_eq_zero] at hcolumn
      exact hw hcolumn
    have hcount := List.count_pos_iff.2 hbreak
    rw [lineAfter_eq, lineAfter_eq, ← hcolumn, List.count_append] at hline
    by_cases hfirst : columnAfter before = 1
    · rw [if_pos hfirst, if_pos hfirst] at hline
      obtain ⟨hnone, hone⟩ : before.count '\n' = 0 ∧ w.count '\n' = 1 := by omega
      -- Without a line break, only the start of the text is at the first column.
      have hstart : before = [] := by
        by_contra hne
        have hlast := columnAfter_eq_one.1 hfirst _ (List.getLast_mem_getLast? hne)
        exact List.count_eq_zero.1 hnone (hlast ▸ List.getLast_mem hne)
      refine ⟨hstart, ?_, hone⟩
      rw [hfirst, hstart, List.nil_append] at hcolumn
      have hlast := columnAfter_eq_one.1 hcolumn.symm _ (List.getLast_mem_getLast? hw)
      rw [List.getLast?_eq_some_getLast hw, hlast]
    · rw [if_neg hfirst, if_neg hfirst] at hline
      omega
  · rintro ⟨rfl, hlast, hone⟩
    have hcolumn : columnAfter w = 1 := columnAfter_eq_one.2 fun c hc =>
      Option.some.inj (hc.symm.trans hlast)
    rw [List.nil_append, lineAfter_eq w, hcolumn, hone]
    exact ⟨rfl, rfl⟩

/-- Right behind a line break there is one before. -/
theorem EndsWithLine.count_pos {before : List Char} (h : EndsWithLine before [])
    (hne : before ≠ []) : 0 < before.count '\n' := by
  obtain ⟨-, lines, hlines, hlast⟩ := h
  rw [← List.append_nil lines, ← hlines] at hlast
  have hbreak := hlast _ (List.getLast_mem_getLast? hne)
  exact List.count_pos_iff.2 (hbreak ▸ List.getLast_mem hne)

/-! ## The main result -/

/-- A text that is not a literal is refused with the line and the column of its furthest failure.
The column is one more than the number of bytes between that place and the last line break before
it, or the start of the text. The line is one more than the number of line breaks before the place,
but right behind a line break it is their number. Two places of a text are told by the same line and
the same column if and only if one is the start of the text and the other one lies right behind the
first line break. -/
theorem rejection_position {text : String} {d : Diagnosis}
    (h : parse text = .error (.format (.notALiteral d))) :
    (∃ line, EndsWithLine (text.toList.take (failure text).offset) line ∧
      d.column = 1 + bytes line ∧
      (line ≠ [] ∨ text.toList.take (failure text).offset = [] →
        d.line = 1 + (text.toList.take (failure text).offset).count '\n') ∧
      (line = [] → text.toList.take (failure text).offset ≠ [] →
        d.line = (text.toList.take (failure text).offset).count '\n')) ∧
    ∀ i j, i < j → j ≤ text.length →
      ((lineAfter (text.toList.take i) = lineAfter (text.toList.take j) ∧
          columnAfter (text.toList.take i) = columnAfter (text.toList.take j)) ↔
        i = 0 ∧ (text.toList.take j).getLast? = some '\n' ∧
          (text.toList.take j).count '\n' = 1) := by
  obtain ⟨-, rfl⟩ := parse_eq_notALiteral h
  constructor
  · generalize failure text = f
    obtain ⟨line, hline⟩ := exists_endsWithLine (text.toList.take f.offset)
    refine ⟨line, hline, hline.columnAfter_eq, ?_, ?_⟩
    · intro hcase
      refine hline.lineAfter_eq.trans ?_
      split
      · next hnil =>
        rw [hcase.resolve_left (not_not_intro hnil)]
        rfl
      · exact Nat.add_comm _ _
    · rintro rfl hne
      refine hline.lineAfter_eq.trans ?_
      rw [if_pos rfl]
      exact Nat.max_eq_right (hline.count_pos hne)
  · intro i j hij hj
    rw [← String.length_toList] at hj
    obtain ⟨w, hw⟩ : text.toList.take i <+: text.toList.take j :=
      List.take_prefix_take_left (Nat.le_of_lt hij)
    have hlength := congrArg List.length hw
    rw [List.length_append, List.length_take, List.length_take] at hlength
    have hne : w ≠ [] := by
      rintro rfl
      rw [List.length_nil] at hlength
      omega
    rw [← hw, line_column_append_iff _ hne]
    have hstart : text.toList.take i = [] ↔ i = 0 := by
      rw [← List.length_eq_zero_iff, List.length_take]
      omega
    rw [hstart]
    refine and_congr_right ?_
    rintro rfl
    rw [List.take_zero, List.nil_append]

/-- A computation whose value is left out fails as it does with it. -/
theorem eq_error_of_map {ε α : Type} {x : Except ε α} {e : ε}
    (h : x.map (fun _ => ()) = .error e) : x = .error e := by
  cases x with
  | ok a => exact nomatch h
  | error e' => exact congrArg _ (Except.error.inj h)

/-- A text that is refused at the first character of its second line, behind a letter of two
bytes. -/
def brokenText : String :=
  "['é',\n!"

/-- `brokenText` is refused. -/
theorem parse_brokenText :
    parse brokenText =
      .error (.format (.notALiteral ((failure brokenText).locate brokenText.toList))) :=
  eq_error_of_map (by decide +kernel)

/-- The second line of `brokenText` is told as the first one, with the column where it starts. The
start of the text is told in the same way. -/
theorem rejection_position_brokenText :
    (failure brokenText).offset = 6 ∧
      (∃ d, parse brokenText = .error (.format (.notALiteral d)) ∧ d.line = 1 ∧ d.column = 1) ∧
      lineAfter (brokenText.toList.take 0) = lineAfter (brokenText.toList.take 6) ∧
      columnAfter (brokenText.toList.take 0) = columnAfter (brokenText.toList.take 6) := by
  have hoffset : (failure brokenText).offset = 6 := by decide +kernel
  obtain ⟨⟨line, hline, hcolumn, -, hbehind⟩, hplaces⟩ := rejection_position parse_brokenText
  rw [hoffset] at hline hbehind
  have hnil : line = [] := by
    rw [← bytes_eq_zero, ← Nat.add_eq_left, ← hline.columnAfter_eq]
    decide
  have hcount : (brokenText.toList.take 6).count '\n' = 1 := by decide
  have hone := (hbehind hnil (by decide)).trans hcount
  rw [hnil] at hcolumn
  have hsame := (hplaces 0 6 (by decide) (by decide)).2 ⟨rfl, by decide, hcount⟩
  exact ⟨hoffset, ⟨_, parse_brokenText, hone, hcolumn⟩, hsame⟩

/-- The line that is told is not always the line of the failure. -/
theorem not_forall_line_eq :
    ¬ ∀ (text : String) (d : Diagnosis), parse text = .error (.format (.notALiteral d)) →
      d.line = 1 + (text.toList.take (failure text).offset).count '\n' := by
  intro h
  have hline := h brokenText _ parse_brokenText
  exact absurd hline (by decide +kernel)

end FindSelect.Literal
