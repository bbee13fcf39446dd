import FindSelect.Proofs.Literal.Derivation
import FindSelect.Proofs.NumberText

/-!
# Numbers are read back from their texts

The text of a number is a numeral, and the numeral stands for that number (`exists_numeral_toText`).
So different numbers have different texts, also where other text follows (`toText_append_inj`).

A binary number is nearest to its shortest decimal, since that is how the decimal was found. What
has to be seen is that the text has the value of the decimal: trailing zeros are taken off its
digits, and the point and the exponent stand where they make up for that (`isNumeralFor_layout`).
-/

namespace FindSelect

open Literal (Digits Run WrittenNumeral EndsNumeral)

/-! ## Digits with zeros around them -/

namespace Decimal

/-- Zeros behind digits multiply their value by powers of ten. -/
theorem ofDigits_append_zeros (digits : List Char) (n : Nat) :
    ofDigits (digits ++ List.replicate n '0') = 10 ^ n * ofDigits digits :=
  (Nat.ofDigitChars_append 0).trans Nat.ofDigitChars_replicate_zero

/-- Zeros before digits do not change their value. -/
theorem ofDigits_zeros_append (n : Nat) (digits : List Char) :
    ofDigits (List.replicate n '0' ++ digits) = ofDigits digits := by
  have hzeros : Nat.ofDigitChars 10 (List.replicate n '0') 0 = 0 :=
    Nat.ofDigitChars_replicate_zero
  refine (Nat.ofDigitChars_append 0).trans ?_
  rw [hzeros]
  rfl

/-- The digits of a number have its value. -/
theorem ofDigits_digits (n : Nat) : ofDigits (digits n) = n :=
  Nat.ofDigitChars_toDigits (by decide) (by decide)

/-- The digits of the coefficient without the zeros at their end. -/
def significant (d : Decimal) : List Char :=
  ((digits d.coefficient).reverse.dropWhile (· == '0')).reverse

/-- The digits of the coefficient are the significant ones and zeros. -/
theorem exists_digits_eq (d : Decimal) :
    ∃ n, digits d.coefficient = d.significant ++ List.replicate n '0' := by
  have hzeros : ∀ c ∈ (digits d.coefficient).reverse.takeWhile (· == '0'), c = '0' :=
    fun c hc => beq_iff_eq.1 (List.all_eq_true.1 List.all_takeWhile c hc)
  have hsplit : (digits d.coefficient).reverse.takeWhile (· == '0') ++
      (digits d.coefficient).reverse.dropWhile (· == '0') = (digits d.coefficient).reverse :=
    List.takeWhile_append_dropWhile
  rw [List.eq_replicate_of_mem hzeros] at hsplit
  have hdigits := congrArg List.reverse hsplit
  rw [List.reverse_append, List.reverse_replicate, List.reverse_reverse] at hdigits
  exact ⟨_, hdigits.symm⟩

/-- A decimal has the value of its significant digits, the first of which has the power of ten that
is the order of the decimal. -/
theorem toRat_eq_significant (d : Decimal) :
    d.toRat = ofDigits d.significant * 10 ^ (d.order + 1 - d.significant.length) := by
  obtain ⟨n, hn⟩ := d.exists_digits_eq
  have hcoefficient : d.coefficient = 10 ^ n * ofDigits d.significant := by
    rw [← ofDigits_append_zeros, ← hn, ofDigits_digits]
  have hexponent : d.order + 1 - d.significant.length = n + d.exponent := by
    rw [order, hn, List.length_append, List.length_replicate]
    omega
  rw [hexponent, zpow_add₀ (by norm_num), zpow_natCast, toRat, hcoefficient]
  push_cast
  ring

end Decimal

/-! ## Binary numbers -/

namespace Binary64

/-- The exact decimal of a number is its magnitude. -/
theorem toRat_exact (x : Binary64) : x.exact.toRat = x.magnitude := by
  unfold exact magnitude
  by_cases hscale : 0 ≤ x.scale
  · rw [if_pos hscale]
    have hpow : (2 : ℚ) ^ x.scale = 2 ^ x.scale.toNat := by
      rw [← zpow_natCast, Int.toNat_of_nonneg hscale]
    rw [hpow]
    simp [Decimal.toRat]
  · -- Below the point a power of two is a power of ten over one of five.
    rw [if_neg hscale]
    obtain ⟨n, hn⟩ : ∃ n : Nat, x.scale = -n := ⟨(-x.scale).toNat, by omega⟩
    have hpow : (5 : ℚ) ^ n * 10 ^ (-n : Int) = 2 ^ (-n : Int) := by
      rw [zpow_neg, zpow_neg, zpow_natCast, zpow_natCast, show (10 : ℚ) = 5 * 2 by norm_num,
        mul_pow]
      field_simp
    have hcast : (Nat.pow 5 (-x.scale).toNat : ℚ) = 5 ^ n := by
      rw [hn]
      simp
    rw [Decimal.toRat]
    push_cast
    rw [hcast, hn, mul_assoc, hpow]

/-- A number is nearest to its magnitude. -/
theorem isNearest_magnitude (x : Binary64) : x.IsNearest x.magnitude := by
  intro y
  rw [sub_self, abs_zero]
  refine ⟨abs_nonneg _, fun h => .inl ?_⟩
  exact sub_eq_zero.1 (abs_eq_zero.1 h.symm)

/-- A number is nearest to its shortest decimal. -/
theorem isNearest_shortest (x : Binary64) : x.IsNearest x.shortest.toRat := by
  unfold shortest
  dsimp only
  cases hshort : (List.range (Decimal.digits x.exact.coefficient).length).findSome? fun kept =>
      (x.exact.neighbours ((Decimal.digits x.exact.coefficient).length - 1 - kept)).find? fun d =>
        d.toBinary64? x.negative == some x with
  | none =>
    rw [Option.getD_none, toRat_exact]
    exact x.isNearest_magnitude
  | some d =>
    -- A shorter decimal was taken because it is read back as the number.
    obtain ⟨kept, -, hfound⟩ := List.exists_of_findSome?_eq_some hshort
    have hread : d.toBinary64? x.negative = some x := by simpa using List.find?_some hfound
    exact (Decimal.isNearest_of_toBinary64? hread).2

/-- Nothing but zero is nearest to zero. -/
theorem isZero_of_isNearest {x : Binary64} (h : x.IsNearest 0) : x.isZero = true := by
  have hzero : (zero false).magnitude = 0 := by
    simp [magnitude, significand, zero]
  have hmagnitude : x.magnitude = (zero false).magnitude := by
    have hle := (h (zero false)).1
    rw [hzero, sub_zero, sub_zero, abs_zero] at hle
    rw [hzero, abs_eq_zero.1 (le_antisymm hle (abs_nonneg _))]
  have hplace : x.place = 0 := strictMono_placeValue.injective hmagnitude
  rw [isZero, hplace]
  rfl

end Binary64

/-! ## Numerals with a point or an exponent -/

/-- Whether a text, behind the sign, is a numeral that is not an integer and has the given absolute
value. -/
def IsNumeralFor (negative : Bool) (text : List Char) (r : ℚ) : Prop :=
  ∃ w : WrittenNumeral, w.negative = negative ∧
    w.text = (if negative then ['-'] else []) ++ text ∧ ¬ w.numeral.IsInteger ∧
    w.numeral.decimal.toRat = r

/-- Digits with a point between them have the value of all the digits, divided by ten for each one
behind the point. -/
theorem isNumeralFor_point (negative : Bool) (whole fraction : Digits) :
    IsNumeralFor negative (whole.chars ++ '.' :: fraction.chars)
      (Decimal.ofDigits (whole.chars ++ fraction.chars) * 10 ^ (-fraction.chars.length : Int)) := by
  refine ⟨⟨negative, whole, some fraction, none⟩, rfl, ?_, fun h => (nomatch h.1), ?_⟩
  · simp [WrittenNumeral.text]
  · simp [WrittenNumeral.numeral, Literal.Numeral.decimal, Decimal.toRat]

/-- Digits with an exponent behind them have the value of the digits times that power of ten. -/
theorem isNumeralFor_exponent (negative : Bool) (whole : Digits) (fraction : Option Digits)
    (order : Int) :
    IsNumeralFor negative
      (whole.chars ++ fraction.elim [] (fun d => '.' :: d.chars) ++
        ['e', if order < 0 then '-' else '+'] ++ Decimal.digits order.natAbs)
      (Decimal.ofDigits (whole.chars ++ fraction.elim [] Run.chars) *
        10 ^ (order - (fraction.elim [] Run.chars).length)) := by
  let digits : Digits := ⟨Decimal.digits order.natAbs, Nat.toDigits_ne_nil,
    Decimal.all_isAsciiDigit_digits _⟩
  have hsign : (if order < 0 then '-' else '+') ∈ ['+', '-'] := by
    split <;> decide
  let exponent : Literal.WrittenExponent := ⟨⟨'e', by decide⟩, some ⟨_, hsign⟩, digits⟩
  have hvalue : exponent.exponent.value = order := by
    have hdigits : Decimal.ofDigits digits.chars = order.natAbs := Decimal.ofDigits_digits _
    rw [Literal.Exponent.value, Literal.WrittenExponent.exponent, hdigits]
    by_cases horder : order < 0
    · simp only [exponent, horder, if_true, Option.map_some, beq_self_eq_true]
      omega
    · simp only [exponent, horder, if_false, Option.map_some]
      show (order.natAbs : Int) = order
      omega
  refine ⟨⟨negative, whole, fraction, some exponent⟩, rfl, ?_, fun h => (nomatch h.2), ?_⟩
  · cases fraction <;> simp [WrittenNumeral.text, Literal.WrittenExponent.text, exponent, digits]
  · cases fraction <;> simp [WrittenNumeral.numeral, Literal.Numeral.decimal, Decimal.toRat, hvalue]

/-! ## Layouts -/

section

variable (negative : Bool) (digits : Digits)

/-- Zeros are digits. -/
theorem all_isAsciiDigit_zeros (n : Nat) :
    (List.replicate n '0').all Text.isAsciiDigit = true := by
  rw [List.all_replicate]
  split <;> decide

/-- With all digits before the point, zeros fill the places up to it. -/
theorem isNumeralFor_zeros_after {n : Nat} (h : digits.chars.length ≤ n + 1) :
    IsNumeralFor negative
      (digits.chars ++ List.replicate (n + 1 - digits.chars.length) '0' ++ ['.', '0'])
      (Decimal.ofDigits digits.chars * 10 ^ ((n : Int) + 1 - digits.chars.length)) := by
  obtain ⟨k, hk⟩ := Nat.exists_eq_add_of_le h
  have hzeros : n + 1 - digits.chars.length = k := by omega
  have hexponent : (n : Int) + 1 - digits.chars.length = k := by omega
  let whole : Digits := ⟨digits.chars ++ List.replicate k '0', by simp [digits.ne_nil], by
    rw [List.all_append, digits.all, all_isAsciiDigit_zeros]
    rfl⟩
  have hvalue : (Decimal.ofDigits (whole.chars ++ ['0']) : ℚ) * 10 ^ (-1 : Int) =
      Decimal.ofDigits digits.chars * 10 ^ (k : Int) := by
    have happend : whole.chars ++ ['0'] = digits.chars ++ List.replicate (k + 1) '0' := by
      simp [whole, List.replicate_succ']
    rw [happend, Decimal.ofDigits_append_zeros, zpow_natCast, zpow_neg_one]
    push_cast
    ring
  have hpoint := isNumeralFor_point negative whole ⟨['0'], by simp, by decide⟩
  rw [hzeros, hexponent, ← hvalue]
  simpa [whole] using hpoint

/-- With digits on both sides, the point stands between them. -/
theorem isNumeralFor_split {n : Nat} (h : n + 1 < digits.chars.length) :
    IsNumeralFor negative (digits.chars.take (n + 1) ++ '.' :: digits.chars.drop (n + 1))
      (Decimal.ofDigits digits.chars * 10 ^ ((n : Int) + 1 - digits.chars.length)) := by
  have hall := digits.all
  rw [← List.take_append_drop (n + 1) digits.chars, List.all_append, Bool.and_eq_true] at hall
  let whole : Digits := ⟨digits.chars.take (n + 1), by simp [digits.ne_nil], hall.1⟩
  let fraction : Digits := ⟨digits.chars.drop (n + 1), by simp; omega, hall.2⟩
  have hpoint := isNumeralFor_point negative whole fraction
  have hexponent : (-fraction.chars.length : Int) = (n : Int) + 1 - digits.chars.length := by
    simp only [fraction, List.length_drop]
    omega
  rw [hexponent] at hpoint
  simpa [whole, fraction] using hpoint

/-- With all digits behind the point, zeros fill the places from it. -/
theorem isNumeralFor_zeros_before (n : Nat) :
    IsNumeralFor negative ('0' :: '.' :: (List.replicate n '0' ++ digits.chars))
      (Decimal.ofDigits digits.chars * 10 ^ (-(n : Int) - digits.chars.length)) := by
  let fraction : Digits := ⟨List.replicate n '0' ++ digits.chars, by simp [digits.ne_nil], by
    rw [List.all_append, digits.all, all_isAsciiDigit_zeros]
    rfl⟩
  have hvalue : Decimal.ofDigits (['0'] ++ fraction.chars) = Decimal.ofDigits digits.chars :=
    Decimal.ofDigits_zeros_append (n + 1) digits.chars
  have hexponent : (-fraction.chars.length : Int) = -(n : Int) - digits.chars.length := by
    simp only [fraction, List.length_append, List.length_replicate]
    omega
  rw [← hvalue, ← hexponent]
  exact isNumeralFor_point negative ⟨['0'], by simp, by decide⟩ fraction

/-- With an exponent, the point stands behind the first digit. -/
theorem isNumeralFor_scientific (order : Int) :
    IsNumeralFor negative
      (digits.chars.take 1 ++
        (if (digits.chars.drop 1).isEmpty then [] else '.' :: digits.chars.drop 1) ++
        ['e', if order < 0 then '-' else '+'] ++ Decimal.digits order.natAbs)
      (Decimal.ofDigits digits.chars * 10 ^ (order + 1 - digits.chars.length)) := by
  obtain ⟨chars, hne, hall⟩ := digits
  obtain ⟨first, others, rfl⟩ := List.exists_cons_of_ne_nil hne
  rw [List.all_cons, Bool.and_eq_true] at hall
  let whole : Digits := ⟨[first], by simp, by simp [hall.1]⟩
  have hexponent : order + 1 - (first :: others).length = order - (others.length : Int) := by
    rw [List.length_cons]
    omega
  rw [hexponent]
  cases others with
  | nil => exact isNumeralFor_exponent negative whole none order
  | cons second others =>
    exact isNumeralFor_exponent negative whole (some ⟨second :: others, by simp, hall.2⟩) order

/-- The layout of digits is a numeral with the value of the digits, the first of which has the given
power of ten. -/
theorem isNumeralFor_layout (order : Int) :
    IsNumeralFor negative (Binary64.layout digits.chars order)
      (Decimal.ofDigits digits.chars * 10 ^ (order + 1 - digits.chars.length)) := by
  unfold Binary64.layout
  split
  · -- The point stands behind the first digit or further on, maybe behind all of them.
    next horder =>
    obtain ⟨n, rfl⟩ := Int.eq_ofNat_of_zero_le horder.1
    by_cases hlong : digits.chars.length ≤ n + 1
    · have hafter := isNumeralFor_zeros_after negative digits hlong
      simpa [List.take_of_length_le hlong, List.drop_eq_nil_of_le hlong] using hafter
    · have hsplit := isNumeralFor_split negative digits (Nat.lt_of_not_le hlong)
      have hzeros : n + 1 - digits.chars.length = 0 := by omega
      have hfraction : digits.chars.drop (n + 1) ≠ [] := by simpa using hlong
      simpa [hzeros, hfraction] using hsplit
  · split
    · -- The point stands before the first digit.
      next horder =>
      obtain ⟨n, hn⟩ : ∃ n : Nat, order = -n - 1 := ⟨(-order - 1).toNat, by omega⟩
      have hzeros : (-order).toNat - 1 = n := by omega
      have hexponent : order + 1 - digits.chars.length = -(n : Int) - digits.chars.length := by
        omega
      rw [hzeros, hexponent]
      exact isNumeralFor_zeros_before negative digits n
    · exact isNumeralFor_scientific negative digits order

end

/-! ## Texts of numbers -/

/-- A binary number that is nearest to the value of a numeral with its sign is what the numeral
stands for. -/
theorem IsNumeralFor.denotes {x : Binary64} {text : List Char} {r : ℚ}
    (h : IsNumeralFor x.negative text r) (hx : x.IsNearest r) :
    ∃ w : WrittenNumeral, w.text = (if x.negative then ['-'] else []) ++ text ∧
      w.numeral.Denotes (.binary x) := by
  obtain ⟨w, hnegative, htext, hinteger, hvalue⟩ := h
  exact ⟨w, htext, hinteger, hnegative.symm, hvalue ▸ hx⟩

/-- The text of a binary number is a numeral that stands for it. -/
theorem Binary64.exists_numeral_toText (x : Binary64) :
    ∃ w : WrittenNumeral, w.text = x.toText.toList ∧ w.numeral.Denotes (.binary x) := by
  have hsign : ∀ body : List Char,
      (String.ofList (if x.negative then '-' :: body else body)).toList =
        (if x.negative then ['-'] else []) ++ body := by
    intro body
    cases x.negative <;> simp
  unfold toText
  rw [hsign]
  by_cases hzero : x.isZero = true
  · rw [if_pos hzero]
    have hmagnitude : x.magnitude = 0 := by
      simp [magnitude, significand, beq_iff_eq.1 hzero]
    have hpoint := isNumeralFor_point x.negative ⟨['0'], by simp, by decide⟩
      ⟨['0'], by simp, by decide⟩
    refine hpoint.denotes ?_
    have hvalue : (Decimal.ofDigits ['0', '0'] : ℚ) * 10 ^ (-1 : Int) = x.magnitude := by
      rw [hmagnitude]
      simp [Decimal.ofDigits]
    exact hvalue ▸ x.isNearest_magnitude
  · rw [if_neg hzero]
    have hnearest := x.isNearest_shortest
    rw [Decimal.toRat_eq_significant] at hnearest
    -- Without significant digits the decimal would be zero, and so would the number.
    have hne : x.shortest.significant ≠ [] := by
      intro hnil
      rw [hnil] at hnearest
      exact hzero (isZero_of_isNearest (by simpa [Decimal.ofDigits] using hnearest))
    have hall : x.shortest.significant.all Text.isAsciiDigit = true := by
      obtain ⟨n, hn⟩ := x.shortest.exists_digits_eq
      have hdigits := Decimal.all_isAsciiDigit_digits x.shortest.coefficient
      rw [hn, List.all_append, Bool.and_eq_true] at hdigits
      exact hdigits.1
    exact (isNumeralFor_layout x.negative ⟨_, hne, hall⟩ x.shortest.order).denotes hnearest

/-- The text of an integer is a numeral for it. -/
theorem Number.exists_numeral_integerText (i : Int) :
    ∃ w : WrittenNumeral, w.text = integerText i ∧ w.numeral.IsInteger ∧
      w.numeral.integer = i := by
  let digits : Digits :=
    ⟨Decimal.digits i.natAbs, Nat.toDigits_ne_nil, Decimal.all_isAsciiDigit_digits _⟩
  refine ⟨⟨decide (i < 0), digits, none, none⟩, ?_, ⟨rfl, rfl⟩, ?_⟩
  · by_cases hneg : i < 0 <;> simp [WrittenNumeral.text, integerText, hneg, digits]
  · simp only [Literal.Numeral.integer, WrittenNumeral.numeral, digits, Decimal.ofDigits_digits,
      decide_eq_true_eq]
    split <;> omega

/-- The text of a number is a numeral that stands for it. -/
theorem Number.exists_numeral_toText (n : Number) :
    ∃ w : WrittenNumeral, w.text = n.toText.toList ∧ w.numeral.Denotes n := by
  cases n with
  | integer i =>
    obtain ⟨w, htext, hinteger, hvalue⟩ := exists_numeral_integerText i
    exact ⟨w, htext.trans (String.toList_ofList).symm, hinteger, hvalue.symm⟩
  | binary x => exact x.exists_numeral_toText

/-- Different numbers have different texts, wherever the texts end. -/
theorem Number.toText_append_inj {n n' : Number} {rest rest' : List Char}
    (hrest : EndsNumeral rest) (hrest' : EndsNumeral rest')
    (h : n.toText.toList ++ rest = n'.toText.toList ++ rest') : n = n' ∧ rest = rest' := by
  obtain ⟨w, htext, hdenotes⟩ := n.exists_numeral_toText
  obtain ⟨w', htext', hdenotes'⟩ := n'.exists_numeral_toText
  rw [← htext, ← htext'] at h
  -- One text spells one numeral, and one numeral stands for one number.
  obtain ⟨hnumeral, htail⟩ := Literal.spells_numeral.unique hrest hrest' h
  exact ⟨hdenotes.unique (hnumeral ▸ hdenotes'), htail⟩

end FindSelect
