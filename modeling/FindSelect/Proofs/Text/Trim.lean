import FindSelect.Text.Trim
import Mathlib.Data.List.TakeWhile

/-!
# What is left of a text without the blanks at its ends

A text is what `trim` leaves of it, between blanks (`exists_trim`), and blanks at its ends make no
difference to what is left (`trim_append_left`, `trim_append_right`). So two texts of which the same
is left differ in the blanks at their ends only. The same is said of the two halves of `trim`, which
look at one end each.
-/

namespace FindSelect.Text

/-- Nothing is left of blanks. -/
theorem trimLeft_eq_nil {s : List Char} : trimLeft s = [] ↔ s.all isBlank = true := by
  rw [trimLeft, List.dropWhile_eq_nil_iff, List.all_eq_true]

/-- Blanks at the start make no difference to what is left. -/
theorem trimLeft_append {lead : List Char} (h : lead.all isBlank = true) (s : List Char) :
    trimLeft (lead ++ s) = trimLeft s :=
  List.dropWhile_append_of_pos (List.all_eq_true.1 h)

/-- A text is what is left of it behind blanks. -/
theorem exists_trimLeft (s : List Char) :
    ∃ lead : List Char, lead.all isBlank = true ∧ s = lead ++ trimLeft s :=
  ⟨s.takeWhile isBlank, List.all_takeWhile, List.takeWhile_append_dropWhile.symm⟩

/-- Blanks at the end make no difference to what is left. -/
theorem trimRight_append {trail : List Char} (h : trail.all isBlank = true) (s : List Char) :
    trimRight (s ++ trail) = trimRight s := by
  unfold trimRight
  rw [List.reverse_append, trimLeft_append (by rwa [List.all_reverse])]

/-- A text is what is left of it before blanks. -/
theorem exists_trimRight (s : List Char) :
    ∃ trail : List Char, trail.all isBlank = true ∧ s = trimRight s ++ trail := by
  obtain ⟨lead, hlead, hs⟩ := exists_trimLeft s.reverse
  refine ⟨lead.reverse, by rwa [List.all_reverse], ?_⟩
  rw [trimRight, ← List.reverse_append, ← hs, List.reverse_reverse]

/-- What stands before a text hides its start, so only the blanks at its end matter. -/
theorem trimRight_append_trimRight (w s : List Char) :
    trimRight (w ++ trimRight s) = trimRight (w ++ s) := by
  obtain ⟨trail, htrail, hs⟩ := exists_trimRight s
  have hall : trimRight ((w ++ trimRight s) ++ trail) = trimRight (w ++ trimRight s) :=
    trimRight_append htrail _
  rw [List.append_assoc, ← hs] at hall
  exact hall.symm

/-- Blanks at the start make no difference to what is left between the ends. -/
theorem trim_append_left {lead : List Char} (h : lead.all isBlank = true) (s : List Char) :
    trim (lead ++ s) = trim s := by
  rw [trim, trimLeft_append h, trim]

/-- Blanks at the end make no difference to what is left between the ends. -/
theorem trim_append_right {trail : List Char} (h : trail.all isBlank = true) (s : List Char) :
    trim (s ++ trail) = trim s := by
  unfold trim
  rw [trimLeft, List.dropWhile_append, ← trimLeft, ← trimLeft]
  -- If nothing is left of the text itself, the blanks behind it go with those before it.
  split
  · next hempty =>
    rw [trimLeft_eq_nil.2 h, List.isEmpty_iff.1 hempty]
  · exact trimRight_append h _

/-- What is left before the blanks at the end is all that matters between the ends. -/
theorem trim_trimRight (s : List Char) : trim (trimRight s) = trim s := by
  obtain ⟨trail, htrail, hs⟩ := exists_trimRight s
  have hall : trim (trimRight s ++ trail) = trim (trimRight s) := trim_append_right htrail _
  rw [← hs] at hall
  exact hall.symm

/-- A text is what is left of it, between blanks. -/
theorem exists_trim (s : List Char) :
    ∃ lead trail : List Char, lead.all isBlank = true ∧ trail.all isBlank = true ∧
      s = lead ++ (trim s ++ trail) := by
  obtain ⟨lead, hlead, hs⟩ := exists_trimLeft s
  obtain ⟨trail, htrail, hrest⟩ := exists_trimRight (trimLeft s)
  exact ⟨lead, trail, hlead, htrail, hs.trans (congrArg (lead ++ ·) hrest)⟩

/-- All is left of a text with a character that is not blank at each end. -/
theorem trim_of_ends {c c' : Char} (hc : isBlank c = false) (hc' : isBlank c' = false)
    (s : List Char) : trim (c :: (s ++ [c'])) = c :: (s ++ [c']) := by
  have hreverse : (c :: (s ++ [c'])).reverse = c' :: (c :: s).reverse := by simp
  rw [trim, trimLeft_cons hc, trimRight, hreverse, trimLeft_cons hc', ← hreverse,
    List.reverse_reverse]

/-- Nothing is left of a text if and only if it is blank. -/
theorem trim_eq_nil {s : List Char} : trim s = [] ↔ s.all isBlank = true := by
  constructor
  · intro h
    obtain ⟨lead, trail, hlead, htrail, hs⟩ := exists_trim s
    rw [hs, h, List.nil_append, List.all_append, hlead, htrail, Bool.and_self]
  · intro h
    rw [trim, trimLeft_eq_nil.2 h]
    rfl

end FindSelect.Text
