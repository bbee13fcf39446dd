import FindSelect.FieldPath
import Mathlib.Data.List.Basic

/-!
# How the classes of characters lie to one another

A blank is neither alphanumeric nor a word character, so a name or a word ends before the blank
behind it. A field path is made of field characters and dots alone. `takeWhile_run` says that a run
of characters of a class is found again at the start of a text, and `intercalate_cons` takes apart a
text with separators.
-/

namespace FindSelect.Text

/-- A class of code points has no blank if none of the few in the table belongs to it. -/
theorem eq_false_of_isBlank {f : Nat → Bool}
    (hf : ∀ r ∈ blank.list, ∀ n ∈ List.range' r.1 (r.2 + 1 - r.1), f n = false) {c : Char}
    (h : isBlank c = true) : f c.toNat = false := by
  obtain ⟨r, hr, hlow, hhigh⟩ := (blank.contains_iff _).1 h
  refine hf r hr c.toNat (List.mem_range'_1.2 ⟨hlow, ?_⟩)
  omega

/-- A blank is not alphanumeric. -/
theorem isAlphanumeric_of_isBlank {c : Char} (h : isBlank c = true) : isAlphanumeric c = false := by
  unfold isAlphanumeric isAlphabetic isDecimalDigit isOtherNumber
  exact eq_false_of_isBlank (f := fun n => alphabeticBasic.contains n ||
    alphabeticBeyond.contains n || decimalDigit.contains n || otherNumber.contains n)
    (by decide +kernel) h

/-- A blank does not stand in a word. -/
theorem isWord_of_isBlank {c : Char} (h : isBlank c = true) : isWord c = false := by
  have hclasses := eq_false_of_isBlank (f := fun n => alphabeticBasic.contains n ||
    alphabeticBeyond.contains n || (markBasic.contains n || markBeyond.contains n) ||
    decimalDigit.contains n || connector.contains n || (n == 0x200C || n == 0x200D))
    (by decide +kernel) h
  unfold isWord isAlphabetic isMark isDecimalDigit isConnector isJoiner
  rw [hclasses, Bool.false_and]

/-- A blank is not an ASCII digit. -/
theorem isAsciiDigit_of_isBlank {c : Char} (h : isBlank c = true) : isAsciiDigit c = false := by
  have hdigit : isAsciiDigit c = true ↔ 48 ≤ c.toNat ∧ c.toNat ≤ 57 := by
    simp only [isAsciiDigit, Bool.and_eq_true, decide_eq_true_eq, Char.le_def,
      UInt32.le_iff_toNat_le]
    rfl
  have hnone := eq_false_of_isBlank (f := fun n => decide (48 ≤ n ∧ n ≤ 57)) (by decide) h
  rw [← Bool.not_eq_true, hdigit]
  exact of_decide_eq_false hnone

/-- A run of characters of a class is what is taken, if no character of the class follows it. -/
theorem takeWhile_run {p : Char → Bool} {run rest : List Char} (hrun : run.all p = true)
    (hrest : rest.head?.any p = false) :
    (run ++ rest).takeWhile p = run ∧ (run ++ rest).dropWhile p = rest := by
  have hrest' : rest.takeWhile p = [] ∧ rest.dropWhile p = rest := by
    cases rest with
    | nil => exact ⟨rfl, rfl⟩
    | cons c rest =>
      have hc : p c = false := by simpa using hrest
      simp [hc]
  rw [List.all_eq_true] at hrun
  rw [List.takeWhile_append_of_pos hrun, List.dropWhile_append_of_pos hrun, hrest'.1, hrest'.2]
  exact ⟨List.append_nil _, rfl⟩

/-- A list with separators is its first item and the others behind a separator each. -/
theorem intercalate_cons {α : Type} (sep x : List α) (xs : List (List α)) :
    sep.intercalate (x :: xs) = x ++ xs.flatMap (sep ++ ·) := by
  induction xs generalizing x with
  | nil => simp [List.intercalate]
  | cons y ys ih =>
    have hy := ih y
    simp only [List.intercalate] at hy ⊢
    simp [List.intersperse, hy]

end FindSelect.Text

namespace FindSelect

/-- A character of a field name is not blank. -/
theorem isBlank_of_isFieldChar {c : Char} (h : isFieldChar c = true) : Text.isBlank c = false := by
  rcases Bool.or_eq_true_iff.1 h with h | h
  · by_contra hb
    rw [Text.isAlphanumeric_of_isBlank (by simpa using hb)] at h
    exact absurd h (by decide)
  · rw [beq_iff_eq.1 h]
    decide

/-- Every character of a text is a dot or stands in a segment. -/
theorem mem_segments_of_mem {c : Char} {s : List Char} (h : c ∈ s) :
    c = '.' ∨ ∃ segment ∈ segments s, c ∈ segment := by
  induction s with
  | nil => simp at h
  | cons a s ih =>
    rw [segments]
    by_cases ha : a = '.'
    · rw [if_pos ha]
      rcases List.mem_cons.1 h with rfl | h
      · exact .inl ha
      · rcases ih h with hc | ⟨segment, hmem, hc⟩
        · exact .inl hc
        · exact .inr ⟨segment, List.mem_cons_of_mem _ hmem, hc⟩
    · -- The character goes to the front of the first segment of the rest.
      rw [if_neg ha]
      obtain ⟨first, others, hs⟩ := List.exists_cons_of_ne_nil (segments_ne_nil s)
      rw [hs] at ih ⊢
      rcases List.mem_cons.1 h with rfl | h
      · exact .inr ⟨c :: first, List.mem_cons_self, List.mem_cons_self⟩
      · rcases ih h with hc | ⟨segment, hmem, hc⟩
        · exact .inl hc
        · rcases List.mem_cons.1 hmem with rfl | hmem
          · exact .inr ⟨a :: segment, List.mem_cons_self, List.mem_cons_of_mem _ hc⟩
          · exact .inr ⟨segment, List.mem_cons_of_mem _ hmem, hc⟩

/-- A field path is not empty, and its characters are field characters and dots. -/
theorem chars_of_isFieldPath {name : String} (h : isFieldPath name = true) :
    name ≠ "" ∧ ∀ c ∈ name.toList, c = '.' ∨ isFieldChar c = true := by
  unfold isFieldPath at h
  constructor
  · rintro rfl
    exact absurd h (by decide)
  · intro c hc
    rcases mem_segments_of_mem hc with hdot | ⟨segment, hmem, hc⟩
    · exact .inl hdot
    · have hsegment := List.all_eq_true.1 h segment hmem
      rw [Bool.and_eq_true] at hsegment
      exact .inr (List.all_eq_true.1 hsegment.2 c hc)

end FindSelect
