import FindSelect.Number
import FindSelect.Text.CharClass
import Mathlib.Data.List.Basic

/-!
# The text of a number

A number is written with digits, signs, a point and the letter `e` alone, and its text is not empty:
`Number.isNumeral_toText`.
-/

namespace FindSelect

/-- Whether a character may stand in the text of a number. -/
def isNumeralChar (c : Char) : Bool :=
  Text.isAsciiDigit c || c == '-' || c == '+' || c == '.' || c == 'e'

/-- Whether a text may be that of a number: a run of one numeral character or more. -/
def isNumeral (text : String) : Bool :=
  text != "" && text.toList.all isNumeralChar

/-- A run of numeral characters may be the text of a number, with and without a minus sign. -/
theorem isNumeral_ofList {body : List Char} (hne : body ≠ [])
    (hall : body.all isNumeralChar = true) (negative : Bool) :
    isNumeral (String.ofList (if negative then '-' :: body else body)) = true := by
  have hminus : isNumeralChar '-' = true := by decide
  unfold isNumeral
  rw [Bool.and_eq_true, bne_iff_ne, ne_eq, ← String.toList_inj, String.toList_ofList]
  cases negative with
  | false => exact ⟨hne, hall⟩
  | true =>
    refine ⟨List.cons_ne_nil _ _, ?_⟩
    rw [if_pos rfl, List.all_cons, hminus, hall]
    rfl

/-- The digits of a natural number are ASCII digits. -/
theorem Decimal.all_isAsciiDigit_digits (n : Nat) :
    (Decimal.digits n).all Text.isAsciiDigit = true := by
  rw [List.all_eq_true]
  intro c hc
  have hdigit : c.isDigit = true := Nat.isDigit_of_mem_toDigits (by decide) (by decide) hc
  simp only [Char.isDigit, Bool.and_eq_true, decide_eq_true_eq, ge_iff_le] at hdigit
  simp only [Text.isAsciiDigit, Bool.and_eq_true, decide_eq_true_eq]
  exact hdigit

/-- The digits of a natural number are numeral characters. -/
theorem Decimal.all_digits (n : Nat) : (Decimal.digits n).all isNumeralChar = true := by
  rw [List.all_eq_true]
  intro c hc
  simp [isNumeralChar, List.all_eq_true.1 (Decimal.all_isAsciiDigit_digits n) c hc]

/-- The layout of a decimal is a run of numeral characters if its digits are. -/
theorem Binary64.all_layout {digits : List Char} (h : digits.all isNumeralChar = true)
    (order : Int) : (Binary64.layout digits order).all isNumeralChar = true := by
  have htake : ∀ n, (digits.take n).all isNumeralChar = true := fun n =>
    List.all_eq_true.2 fun c hc => List.all_eq_true.1 h c (List.mem_of_mem_take hc)
  have hdrop : ∀ n, (digits.drop n).all isNumeralChar = true := fun n =>
    List.all_eq_true.2 fun c hc => List.all_eq_true.1 h c (List.mem_of_mem_drop hc)
  have hzeros : ∀ n, (List.replicate n '0').all isNumeralChar = true := fun n =>
    List.all_eq_true.2 fun c hc => by
      rw [List.eq_of_mem_replicate hc]
      decide
  have hpoint : isNumeralChar '.' = true := by decide
  have hzero : isNumeralChar '0' = true := by decide
  have he : isNumeralChar 'e' = true := by decide
  have hsign : isNumeralChar (if order < 0 then '-' else '+') = true := by
    split <;> decide
  -- The layouts: with the point behind or between the digits, before them, or with an exponent.
  unfold Binary64.layout
  split
  · simp only [List.all_append, htake, hzeros, List.all_cons, List.all_nil, hpoint, Bool.and_true]
    split
    · simp [hzero]
    · exact hdrop _
  · split
    · simp only [List.all_append, List.all_cons, List.all_nil, hzero, hpoint, hzeros, h,
        Bool.and_true]
    · simp only [List.all_append, htake, List.all_cons, List.all_nil, he, hsign,
        Decimal.all_digits, Bool.and_true, Bool.true_and]
      split
      · rfl
      · rw [List.all_cons, hpoint, hdrop]
        rfl

/-- The layout of a decimal is not empty: it has a point or an exponent. -/
theorem Binary64.layout_ne_nil (digits : List Char) (order : Int) :
    Binary64.layout digits order ≠ [] := by
  unfold Binary64.layout
  split
  · simp
  · split <;> simp

/-- The text of a binary number may be that of a number. -/
theorem Binary64.isNumeral_toText (x : Binary64) : isNumeral x.toText = true := by
  -- Trailing zeros are dropped from the digits before they are laid out.
  have hdigits : ((Decimal.digits x.shortest.coefficient).reverse.dropWhile
      (· == '0')).reverse.all isNumeralChar = true := by
    rw [List.all_eq_true]
    intro c hc
    have hmem := (List.dropWhile_sublist _).subset (List.mem_reverse.1 hc)
    exact List.all_eq_true.1 (Decimal.all_digits _) c (List.mem_reverse.1 hmem)
  unfold Binary64.toText
  split
  · exact isNumeral_ofList (by simp) (by decide) _
  · exact isNumeral_ofList (layout_ne_nil _ _) (all_layout hdigits _) _

/-- The text of a number is a run of one numeral character or more. -/
theorem Number.isNumeral_toText (n : Number) : isNumeral n.toText = true := by
  cases n with
  | integer n =>
    have hne : Decimal.digits n.natAbs ≠ [] := Nat.toDigits_ne_nil
    have htext := isNumeral_ofList hne (Decimal.all_digits _) (decide (n < 0))
    unfold Number.toText Number.integerText
    simpa only [decide_eq_true_eq] using htext
  | binary x => exact x.isNumeral_toText

end FindSelect
