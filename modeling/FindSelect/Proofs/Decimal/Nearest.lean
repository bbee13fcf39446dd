import FindSelect.Decimal.Binary64
import Mathlib.Algebra.Order.Field.Power
import Mathlib.Algebra.Order.Field.Rat
import Mathlib.Order.Monotone.Basic
import Mathlib.Tactic.FieldSimp
import Mathlib.Tactic.Linarith
import Mathlib.Tactic.NormNum
import Mathlib.Tactic.Positivity
import Mathlib.Tactic.Ring

/-!
# Decimals are read to the nearest binary64 number

A decimal is read as the nearest finite number, of two equally near ones as the one with the even
significand (`Decimal.isNearest_of_toBinary64?`). It can be read if and only if it is below
`Binary64.overflow` (`Decimal.exists_toBinary64?_iff`). The numbers are compared as rational
numbers, and at most one number of either sign is nearest (`Binary64.IsNearest.unique`).

The places are in the order of the magnitudes (`strictMono_placeValue`), and the numbers of one
binade are the multiples of its unit (`placeValue_add`). So it is enough to round to such a
multiple: a number outside of the binade is further away than one of the two ends of it.
-/

namespace FindSelect

/-- The rational number that a decimal stands for. -/
def Decimal.toRat (d : Decimal) : ℚ :=
  d.coefficient * 10 ^ d.exponent

namespace Binary64

/-- The absolute value of a number. -/
def magnitude (x : Binary64) : ℚ :=
  x.significand * 2 ^ x.scale

/-- The least number that is too large to be read: half way between the last finite number, which is
`(2 ^ 53 - 1) * 2 ^ 971`, and `2 ^ 1024`. -/
def overflow : ℚ :=
  (2 ^ 54 - 1) * 2 ^ 970

/-- Whether the absolute value of a number is nearest to a rational number: no finite number is
nearer, and if another one is as near, the significand is even. -/
def IsNearest (x : Binary64) (r : ℚ) : Prop :=
  ∀ y : Binary64, |x.magnitude - r| ≤ |y.magnitude - r| ∧
    (|x.magnitude - r| = |y.magnitude - r| → y.magnitude = x.magnitude ∨ Even x.significand)

/-! ## Places and magnitudes -/

/-- The magnitude of the number at a place, as if the places went on without end. For a number of
the format it is the magnitude, by definition. -/
def placeValue (p : Nat) : ℚ :=
  ((if p < Nat.pow 2 52 then p else Nat.pow 2 52 + p % Nat.pow 2 52 : Nat) : ℚ) *
    2 ^ ((max 1 (p / Nat.pow 2 52) : Nat) - 1075 : Int)

/-- The significand has the parity of the place. -/
theorem even_significand_iff (x : Binary64) : Even x.significand ↔ Even x.place := by
  simp only [significand, Nat.pow_eq, Nat.even_iff]
  split <;> omega

/-- In the `j`-th binade, and up to its end, the magnitudes are the multiples of its unit. The first
binade has no smallest multiple. -/
theorem placeValue_add {j m : Nat} (hm : m ≤ 2 ^ 53) (hj : j = 0 ∨ 2 ^ 52 ≤ m) :
    placeValue (j * 2 ^ 52 + m) = m * 2 ^ (j - 1074 : Int) := by
  have hstep : (2 : ℚ) ^ (j - 1073 : Int) = 2 * 2 ^ (j - 1074 : Int) := by
    rw [show (j - 1073 : Int) = 1 + (j - 1074) by omega, zpow_add₀ (by norm_num), zpow_one]
  simp only [placeValue, Nat.pow_eq]
  by_cases hsmall : j * 2 ^ 52 + m < 2 ^ 52
  · -- Below the first full binade the place is the significand.
    obtain rfl : j = 0 := by omega
    have hbinade : (0 * 2 ^ 52 + m) / 2 ^ 52 = 0 := by omega
    rw [if_pos hsmall, hbinade]
    norm_num
  · rw [if_neg hsmall]
    by_cases hend : m = 2 ^ 53
    · -- The end of the binade is the start of the next one, with twice the unit.
      subst hend
      have hbinade : (j * 2 ^ 52 + 2 ^ 53) / 2 ^ 52 = j + 2 := by omega
      have hrest : (j * 2 ^ 52 + 2 ^ 53) % 2 ^ 52 = 0 := by omega
      have hscale : ((max 1 (j + 2) : Nat) - 1075 : Int) = j - 1073 := by omega
      rw [hbinade, hrest, hscale, hstep]
      push_cast
      ring
    · have hbinade : (j * 2 ^ 52 + m) / 2 ^ 52 = j + 1 := by omega
      have hrest : 2 ^ 52 + (j * 2 ^ 52 + m) % 2 ^ 52 = m := by omega
      have hscale : ((max 1 (j + 1) : Nat) - 1075 : Int) = j - 1074 := by omega
      rw [hbinade, hrest, hscale]

/-- The places are in the order of the magnitudes. -/
theorem strictMono_placeValue : StrictMono placeValue := by
  refine strictMono_nat_of_lt_succ fun p => ?_
  -- Every place lies in a binade and is not the end of it.
  obtain ⟨j, m, rfl, hm, hj⟩ : ∃ j m, p = j * 2 ^ 52 + m ∧ m < 2 ^ 53 ∧ (j = 0 ∨ 2 ^ 52 ≤ m) :=
    ⟨p / 2 ^ 52 - 1, p - (p / 2 ^ 52 - 1) * 2 ^ 52, by omega, by omega, by omega⟩
  have hunit : (0 : ℚ) < 2 ^ (j - 1074 : Int) := by positivity
  rw [Nat.add_assoc, placeValue_add hm.le hj, placeValue_add hm (by omega)]
  push_cast
  linarith

/-- A number is determined by its sign and its magnitude. -/
theorem eq_of_magnitude_eq {x y : Binary64} (hsign : x.negative = y.negative)
    (h : x.magnitude = y.magnitude) : x = y := by
  have hplace : x.place = y.place := strictMono_placeValue.injective h
  cases x
  cases y
  simp_all

/-- At most one number of either sign is nearest to a rational number. -/
theorem IsNearest.unique {x y : Binary64} {r : ℚ} (hx : x.IsNearest r) (hy : y.IsNearest r)
    (hsign : x.negative = y.negative) : x = y := by
  refine eq_of_magnitude_eq hsign ?_
  wlog hle : x.place ≤ y.place generalizing x y
  · exact (this hy hx hsign.symm (by omega)).symm
  by_contra hne
  have hdist : |x.magnitude - r| = |y.magnitude - r| := le_antisymm (hx y).1 (hy x).1
  have hxeven : Even x.place :=
    (even_significand_iff x).1 (((hx y).2 hdist).resolve_left fun h => hne h.symm)
  have hyeven : Even y.place := (even_significand_iff y).1 (((hy x).2 hdist.symm).resolve_left hne)
  -- Both places are even, so a place lies between them, and it is nearer than both.
  rw [Nat.even_iff] at hxeven hyeven
  have hplace : x.place ≠ y.place := fun h => hne (congrArg placeValue h)
  have hmiddle : x.place + 1 < y.place := by omega
  let z : Binary64 := ⟨false, x.place + 1, hmiddle.trans y.place_lt⟩
  have hxz : x.magnitude < z.magnitude := strictMono_placeValue (Nat.lt_succ_self _)
  have hzy : z.magnitude < y.magnitude := strictMono_placeValue hmiddle
  have hz := (hx z).1
  rcases abs_cases (x.magnitude - r) with ⟨h₁, _⟩ | ⟨h₁, _⟩ <;>
    rcases abs_cases (y.magnitude - r) with ⟨h₂, _⟩ | ⟨h₂, _⟩ <;>
    rcases abs_cases (z.magnitude - r) with ⟨h₃, _⟩ | ⟨h₃, _⟩ <;> linarith

end Binary64

open Binary64

/-! ## Rounding a quotient -/

/-- Whether an integer is nearest to a rational number, a half going to the even neighbour. -/
structure IsRounded (s : ℚ) (m : Nat) : Prop where
  /-- The integer is at most a half away. -/
  near : 2 * |(m : ℚ) - s| ≤ 1
  /-- If it is a half away, it is even. -/
  even : 2 * |(m : ℚ) - s| = 1 → Even m

/-- A quotient is rounded. -/
theorem isRounded_roundDiv (num : Nat) {den : Nat} (hden : 0 < den) :
    IsRounded (num / den) (roundDiv num den) := by
  have hden' : (0 : ℚ) < den := by exact_mod_cast hden
  obtain ⟨q, r, hnum, hr⟩ : ∃ q r, num = den * q + r ∧ r < den :=
    ⟨num / den, num % den, (Nat.div_add_mod num den).symm, Nat.mod_lt _ hden⟩
  have hquot : num / den = q := by rw [hnum, Nat.mul_add_div hden, Nat.div_eq_of_lt hr, add_zero]
  have hrem : num % den = r := by rw [hnum, Nat.mul_add_mod, Nat.mod_eq_of_lt hr]
  -- The remainder, as a part of the denominator, is the distance to the quotient.
  obtain ⟨t, ht⟩ : ∃ t : ℚ, t = r / den := ⟨_, rfl⟩
  have hs : (num / den : ℚ) = q + t := by
    rw [ht, hnum]
    push_cast
    field_simp
  have ht₀ : 0 ≤ t := by rw [ht]; positivity
  have ht₁ : t < 1 := by
    rw [ht, div_lt_one hden']
    exact_mod_cast hr
  have hhalf : den < 2 * r ↔ 1 < 2 * t := by
    rw [ht, ← mul_div_assoc, one_lt_div hden']
    exact_mod_cast Iff.rfl
  have htie : 2 * r = den ↔ 2 * t = 1 := by
    rw [ht, ← mul_div_assoc, div_eq_one_iff_eq hden'.ne']
    exact_mod_cast Iff.rfl
  have hbelow : |(q : ℚ) - (q + t)| = t := by
    rw [sub_add_cancel_left, abs_neg, abs_of_nonneg ht₀]
  have habove : |((q + 1 : Nat) : ℚ) - (q + t)| = 1 - t := by
    push_cast
    rw [add_sub_add_left_eq_sub, abs_of_pos (by linarith)]
  rw [hs, roundDiv]
  simp only [hquot, hrem, hhalf, htie]
  split
  · next hup =>
    refine ⟨?_, ?_⟩
    · rw [habove]
      rcases hup with h | h <;> linarith
    · rw [habove]
      intro heq
      rcases hup with h | h
      · linarith
      · exact Nat.even_iff.2 (by omega)
  · next hup =>
    rw [not_or, not_lt, not_and] at hup
    refine ⟨by rw [hbelow]; exact hup.1, ?_⟩
    rw [hbelow]
    intro heq
    have hq := hup.2 heq
    exact Nat.even_iff.2 (by omega)

/-- No integer is nearer than the rounded one, and another one is as near only if that one is
even. -/
theorem IsRounded.le {s : ℚ} {m : Nat} (h : IsRounded s m) {k : Nat} (hk : k ≠ m) :
    |(m : ℚ) - s| ≤ |(k : ℚ) - s| ∧ (|(m : ℚ) - s| = |(k : ℚ) - s| → Even m) := by
  have hapart : (1 : ℚ) ≤ |(k : ℚ) - m| := by
    have hint : (1 : Int) ≤ |(k : Int) - m| := Int.one_le_abs (by omega)
    exact_mod_cast hint
  have htriangle : |(k : ℚ) - m| ≤ |(k : ℚ) - s| + |(m : ℚ) - s| := by
    rw [abs_sub_comm (m : ℚ) s]
    exact abs_sub_le _ _ _
  have hnear := h.near
  refine ⟨by linarith, fun heq => h.even ?_⟩
  linarith

/-- What is rounded to an odd integer or below lies below the half behind it. -/
theorem IsRounded.le_odd_iff {s : ℚ} {m n : Nat} (h : IsRounded s m) (hn : Odd n) :
    m ≤ n ↔ s < n + 1 / 2 := by
  obtain ⟨hlow, hhigh⟩ := abs_le.1 (show |(m : ℚ) - s| ≤ 1 / 2 by linarith [h.near])
  constructor
  · intro hle
    by_contra hs
    rw [not_lt] at hs
    have hge : (n : ℚ) ≤ m := by linarith
    obtain rfl : m = n := le_antisymm hle (by exact_mod_cast hge)
    -- The half behind an odd integer goes to the even one behind it.
    have htie : 2 * |(m : ℚ) - s| = 1 := by
      rw [abs_of_nonpos (by linarith)]
      linarith
    exact Nat.not_even_iff_odd.2 hn (h.even htie)
  · intro hs
    by_contra hlt
    have hge : ((n + 1 : Nat) : ℚ) ≤ m := by exact_mod_cast not_le.1 hlt
    push_cast at hge
    linarith

/-! ## The scale of a fraction -/

/-- An integer power as a fraction of natural powers. -/
theorem zpow_eq_toNat_div (b : Nat) (z : Int) :
    (b : ℚ) ^ z = (b ^ z.toNat : Nat) / (b ^ (-z).toNat : Nat) := by
  rcases Int.le_total 0 z with hz | hz
  · obtain ⟨n, rfl⟩ := Int.eq_ofNat_of_zero_le hz
    simp
  · obtain ⟨n, hn⟩ := Int.eq_ofNat_of_zero_le (Int.neg_nonneg.2 hz)
    obtain rfl : z = -n := by omega
    simp

/-- A decimal is the quotient of its numerator and its denominator. -/
theorem Decimal.toRat_eq_div (d : Decimal) : d.toRat = d.numerator / d.denominator := by
  have hpow := zpow_eq_toNat_div 10 d.exponent
  simp only [numerator, denominator, Nat.pow_eq]
  rw [toRat, show (10 : ℚ) = (10 : Nat) by norm_num, hpow]
  push_cast
  ring

/-- A fraction of positive numbers lies between two powers of two that the logarithms give. -/
theorem two_zpow_log2 {num den : Nat} (hnum : 0 < num) (hden : 0 < den) :
    (2 : ℚ) ^ ((num.log2 : Int) - den.log2 - 1) ≤ num / den ∧
      (num / den : ℚ) < 2 ^ ((num.log2 : Int) - den.log2 + 1) := by
  have hden' : (0 : ℚ) < den := by exact_mod_cast hden
  have hlow : ∀ n : Nat, 0 < n → (2 : ℚ) ^ (n.log2 : Int) ≤ n := by
    intro n hn
    rw [zpow_natCast]
    exact_mod_cast Nat.log2_self_le (by omega)
  have hhigh : ∀ n : Nat, (n : ℚ) < 2 ^ ((n.log2 : Int) + 1) := by
    intro n
    have hn : n < 2 ^ (n.log2 + 1) := Nat.lt_log2_self
    exact_mod_cast hn
  constructor
  · rw [le_div_iff₀ hden']
    calc (2 : ℚ) ^ ((num.log2 : Int) - den.log2 - 1) * den
        ≤ 2 ^ ((num.log2 : Int) - den.log2 - 1) * 2 ^ ((den.log2 : Int) + 1) := by
          gcongr
          exact (hhigh den).le
      _ = 2 ^ (num.log2 : Int) := by
          rw [← zpow_add₀ (by norm_num)]
          congr 1
          omega
      _ ≤ num := hlow num hnum
  · rw [div_lt_iff₀ hden']
    calc (num : ℚ) < 2 ^ ((num.log2 : Int) + 1) := hhigh num
      _ = 2 ^ ((num.log2 : Int) - den.log2 + 1) * 2 ^ (den.log2 : Int) := by
          rw [← zpow_add₀ (by norm_num)]
          congr 1
          omega
      _ ≤ 2 ^ ((num.log2 : Int) - den.log2 + 1) * den := by
          gcongr
          exact hlow den hden

/-- Whether a fraction is below a power of two is decided on natural numbers. -/
theorem div_lt_two_zpow_iff (num : Nat) {den : Nat} (hden : 0 < den) (z : Int) :
    (num / den : ℚ) < 2 ^ z ↔ num * 2 ^ (-z).toNat < den * 2 ^ z.toNat := by
  have hpow := zpow_eq_toNat_div 2 z
  rw [show (2 : ℚ) = (2 : Nat) by norm_num, hpow,
    div_lt_div_iff₀ (by exact_mod_cast hden) (by exact_mod_cast Nat.two_pow_pos _),
    mul_comm _ (den : ℚ)]
  exact_mod_cast Iff.rfl

/-- The scale of a fraction is the least one of the format in which it has at most 53 bits. -/
theorem roundingScale_spec {num den : Nat} (hnum : 0 < num) (hden : 0 < den) :
    -1074 ≤ roundingScale num den ∧ (num / den : ℚ) < 2 ^ (roundingScale num den + 53) ∧
      (roundingScale num den = -1074 ∨ (2 : ℚ) ^ (roundingScale num den + 52) ≤ num / den) := by
  obtain ⟨hlow, hhigh⟩ := two_zpow_log2 hnum hden
  unfold roundingScale
  simp only [Nat.pow_eq, ← div_lt_two_zpow_iff num hden]
  generalize hq : max ((num.log2 : Int) - den.log2 - 53) (-1074) = q
  split
  · next hlt =>
    refine ⟨by omega, hlt, ?_⟩
    rcases Int.le_total ((num.log2 : Int) - den.log2 - 53) (-1074) with hle | hle
    · exact .inl (by omega)
    · right
      rwa [show q + 52 = (num.log2 : Int) - den.log2 - 1 by omega]
  · next hlt =>
    -- The first guess is one too small, and the power that it missed is now the lower bound.
    refine ⟨by omega, hhigh.trans_le ?_, .inr ?_⟩
    · exact zpow_le_zpow_right₀ (by norm_num) (by omega)
    · rw [show q + 1 + 52 = q + 53 by omega]
      exact not_lt.1 hlt

/-! ## The nearest place -/

/-- A place as one of a binade: the fraction is `s` units of the binade, and the place is the one of
the rounded multiple. -/
structure InBinade (r : ℚ) (p j m : Nat) (s : ℚ) : Prop where
  /-- The place is the one of the multiple `m`. -/
  place : p = j * 2 ^ 52 + m
  /-- The fraction is `s` units. -/
  units : r = s * 2 ^ (j - 1074 : Int)
  /-- The multiple is the rounded one. -/
  rounded : IsRounded s m
  /-- The fraction is below the end of the binade. -/
  lt_end : s < 2 ^ 53
  /-- The fraction is not below the start of the binade, if there is one before it. -/
  start_le : j = 0 ∨ 2 ^ 52 ≤ s

/-- A fraction is rounded in its binade. -/
theorem inBinade_nearestPlace {num den : Nat} (hnum : 0 < num) (hden : 0 < den) :
    ∃ j m s, InBinade (num / den) (nearestPlace num den) j m s := by
  obtain ⟨hq, hlt, hle⟩ := roundingScale_spec hnum hden
  unfold nearestPlace
  generalize roundingScale num den = q at hq hlt hle
  have hunit : (0 : ℚ) < 2 ^ q := by positivity
  have hsplit : ∀ n : Nat, (2 : ℚ) ^ (q + n) = 2 ^ n * 2 ^ q := by
    intro n
    rw [add_comm, zpow_add₀ (by norm_num), zpow_natCast]
  have hj : (((q + 1074).toNat : Nat) - 1074 : Int) = q := by omega
  have hden' : 0 < den * 2 ^ q.toNat := Nat.mul_pos hden (Nat.two_pow_pos _)
  have hscaled : ((num * 2 ^ (-q).toNat : Nat) / (den * 2 ^ q.toNat : Nat) : ℚ) =
      num / den / 2 ^ q := by
    have hpow := zpow_eq_toNat_div 2 q
    rw [show ((2 : Nat) : ℚ) = 2 by norm_num] at hpow
    rw [hpow]
    push_cast
    rw [div_div_div_eq]
  have hrounded := isRounded_roundDiv (num * 2 ^ (-q).toNat) hden'
  rw [hscaled] at hrounded
  refine ⟨(q + 1074).toNat, _, num / den / 2 ^ q, rfl, ?_, hrounded, ?_, ?_⟩
  · rw [hj, div_mul_cancel₀ _ hunit.ne']
  · rw [div_lt_iff₀ hunit, ← hsplit 53]
    exact hlt
  · rcases hle with hle | hle
    · exact .inl (by omega)
    · right
      rw [le_div_iff₀ hunit, ← hsplit 52]
      exact hle

namespace InBinade

variable {r s : ℚ} {p j m : Nat}

/-- The rounded multiple does not leave the binade. -/
theorem bounds (h : InBinade r p j m s) : m ≤ 2 ^ 53 ∧ (j = 0 ∨ 2 ^ 52 ≤ m) := by
  have hnear := abs_le.1 (show |(m : ℚ) - s| ≤ 1 / 2 by linarith [h.rounded.near])
  have hend := h.lt_end
  constructor
  · have hm : (m : ℚ) < (2 ^ 53 + 1 : Nat) := by
      push_cast
      linarith
    exact Nat.lt_succ_iff.1 (by exact_mod_cast hm)
  · refine h.start_le.imp id fun hstart => ?_
    have hm : ((2 ^ 52 : Nat) : ℚ) < (m + 1 : Nat) := by
      push_cast
      linarith
    exact Nat.lt_succ_iff.1 (by exact_mod_cast hm)

/-- The magnitude at the place. -/
theorem placeValue_eq (h : InBinade r p j m s) : placeValue p = m * 2 ^ (j - 1074 : Int) := by
  rw [h.place, placeValue_add h.bounds.1 h.bounds.2]

/-- The place is nearest: another one is not nearer, and as near only if the place is even. -/
theorem nearest (h : InBinade r p j m s) (p' : Nat) :
    |placeValue p - r| ≤ |placeValue p' - r| ∧
      (|placeValue p - r| = |placeValue p' - r| → p' = p ∨ Even p) := by
  have hunit : (0 : ℚ) < 2 ^ (j - 1074 : Int) := by positivity
  have hdist : ∀ k : ℚ, |k * 2 ^ (j - 1074 : Int) - r| = |k - s| * 2 ^ (j - 1074 : Int) := by
    intro k
    rw [h.units, ← sub_mul, abs_mul, abs_of_pos hunit]
  have hend := h.lt_end
  -- Against a multiple of the unit, this is how integers are rounded.
  have hmultiple : ∀ k : Nat, |(m : ℚ) - s| ≤ |(k : ℚ) - s| := by
    intro k
    by_cases hk : k = m
    · rw [hk]
    · exact (h.rounded.le hk).1
  -- Beyond a multiple of the unit, it is further away than that.
  have hbeyond : ∀ k : Nat, |(k : ℚ) * 2 ^ (j - 1074 : Int) - r| < |placeValue p' - r| →
      |(m : ℚ) - s| * 2 ^ (j - 1074 : Int) < |placeValue p' - r| := by
    intro k hk
    rw [hdist] at hk
    exact (mul_le_mul_of_nonneg_right (hmultiple k) hunit.le).trans_lt hk
  have hend : r < (2 ^ 53 : Nat) * 2 ^ (j - 1074 : Int) := by
    rw [h.units]
    push_cast
    exact mul_lt_mul_of_pos_right h.lt_end hunit
  rw [h.placeValue_eq, hdist]
  by_cases habove : j * 2 ^ 52 + 2 ^ 53 < p'
  · have hvalue := strictMono_placeValue habove
    rw [placeValue_add le_rfl (by omega)] at hvalue
    have hfar := hbeyond (2 ^ 53) (by
      rw [abs_of_pos (by linarith), abs_of_pos (by linarith)]
      linarith)
    exact ⟨hfar.le, fun heq => absurd heq hfar.ne⟩
  by_cases hbelow : p' < j * 2 ^ 52 + 2 ^ 52 ∧ j ≠ 0
  · have hvalue := strictMono_placeValue hbelow.1
    have hstart : ((2 ^ 52 : Nat) : ℚ) * 2 ^ (j - 1074 : Int) ≤ r := by
      rw [h.units]
      push_cast
      exact mul_le_mul_of_nonneg_right (h.start_le.resolve_left hbelow.2) hunit.le
    rw [placeValue_add (by omega) (by omega)] at hvalue
    have hfar := hbeyond (2 ^ 52) (by
      rw [abs_of_nonpos (by linarith), abs_of_nonpos (by linarith)]
      linarith)
    exact ⟨hfar.le, fun heq => absurd heq hfar.ne⟩
  · obtain ⟨k, rfl⟩ : ∃ k, p' = j * 2 ^ 52 + k := ⟨p' - j * 2 ^ 52, by omega⟩
    rw [placeValue_add (by omega) (by omega), hdist]
    refine ⟨mul_le_mul_of_nonneg_right (hmultiple k) hunit.le, fun heq => ?_⟩
    by_cases hk : k = m
    · exact .inl (by rw [hk, h.place])
    · have heven := (h.rounded.le hk).2 (mul_right_cancel₀ hunit.ne' heq)
      rw [Nat.even_iff] at heven
      exact .inr (Nat.even_iff.2 (by rw [h.place]; omega))

/-- The place is one of a finite number if and only if the fraction does not overflow. -/
theorem place_lt_limit_iff (h : InBinade r p j m s) : p < limit ↔ r < overflow := by
  obtain ⟨hm, hj⟩ := h.bounds
  have hunit : (0 : ℚ) < 2 ^ (j - 1074 : Int) := by positivity
  have hlimit : limit = 2045 * 2 ^ 52 + 2 ^ 53 := by decide
  have hplace := h.place
  have hpow : ∀ n : Nat, (2 : ℚ) ^ ((970 + n : Nat) : Int) = 2 ^ n * 2 ^ 970 := by
    intro n
    rw [zpow_natCast, pow_add, mul_comm]
  rcases Nat.lt_trichotomy j 2045 with hlt | rfl | hgt
  · -- Both hold, since the end of the binade is finite.
    have hr : r < overflow := by
      calc r = s * 2 ^ (j - 1074 : Int) := h.units
        _ < 2 ^ 53 * 2 ^ (j - 1074 : Int) := mul_lt_mul_of_pos_right h.lt_end hunit
        _ ≤ 2 ^ 53 * 2 ^ ((970 + 0 : Nat) : Int) := by
          gcongr
          · norm_num
          · omega
        _ ≤ overflow := by
          rw [overflow, hpow, pow_zero, one_mul]
          gcongr
          norm_num
    exact iff_of_true (by omega) hr
  · -- In the last binade, the end of it is the first place that is not finite.
    have hoverflow : overflow =
        ((2 ^ 53 - 1 : Nat) + 1 / 2) * 2 ^ ((2045 : Nat) - 1074 : Int) := by
      rw [overflow, show ((2045 : Nat) - 1074 : Int) = (970 + 1 : Nat) by norm_num, hpow,
        ← mul_assoc]
      refine congrArg (· * (2 : ℚ) ^ 970) ?_
      norm_num
    calc p < limit ↔ m ≤ 2 ^ 53 - 1 := by omega
      _ ↔ s < (2 ^ 53 - 1 : Nat) + 1 / 2 := h.rounded.le_odd_iff (by decide)
      _ ↔ r < overflow := by rw [h.units, hoverflow, mul_lt_mul_iff_left₀ hunit]
  · -- Neither holds, since the start of the binade is not finite.
    have hr : overflow ≤ r := by
      calc overflow ≤ 2 ^ 52 * 2 ^ ((970 + 2 : Nat) : Int) := by
            rw [overflow, hpow, ← mul_assoc]
            gcongr
            norm_num
        _ ≤ 2 ^ 52 * 2 ^ (j - 1074 : Int) := by
          gcongr
          · norm_num
          · omega
        _ ≤ s * 2 ^ (j - 1074 : Int) :=
          mul_le_mul_of_nonneg_right (h.start_le.resolve_left (by omega)) hunit.le
        _ = r := h.units.symm
    exact iff_of_false (by omega) (not_lt.2 hr)

end InBinade

/-! ## Reading decimals -/

/-- A decimal other than zero lies between the powers of ten that its order gives. -/
theorem Decimal.toRat_order {d : Decimal} (h : d.coefficient ≠ 0) :
    (10 : ℚ) ^ d.order ≤ d.toRat ∧ d.toRat < 10 ^ (d.order + 1) := by
  obtain ⟨n, hn⟩ := Nat.exists_eq_add_one_of_ne_zero (List.length_pos_iff.2
    (Nat.toDigits_ne_nil (b := 10) (n := d.coefficient))).ne'
  have hlow : 10 ^ n ≤ d.coefficient := by
    by_contra hlt
    rcases Nat.eq_zero_or_pos n with rfl | hpos
    · omega
    · have hle := (Nat.length_toDigits_le_iff (by decide) hpos).2 (not_le.1 hlt)
      omega
  have hhigh : d.coefficient < 10 ^ (n + 1) :=
    (Nat.length_toDigits_le_iff (by decide) n.succ_pos).1 hn.le
  have horder : d.order = n + d.exponent := by
    rw [order, digits, hn]
    omega
  rw [horder, toRat, add_right_comm, zpow_add₀ (by norm_num), zpow_add₀ (by norm_num)]
  constructor
  · gcongr
    exact_mod_cast hlow
  · gcongr
    exact_mod_cast hhigh

/-- The limit of the format is below `10 ^ 309`. -/
theorem overflow_le_ten_pow : overflow ≤ 10 ^ (309 : Int) := by
  have hnat : 2 ^ 54 * 2 ^ 970 ≤ 10 ^ 309 := by decide +kernel
  have hrat : (2 : ℚ) ^ 54 * 2 ^ 970 ≤ 10 ^ 309 := by exact_mod_cast hnat
  calc overflow ≤ (2 : ℚ) ^ 54 * 2 ^ 970 := by
        rw [overflow]
        gcongr
        linarith
    _ ≤ 10 ^ (309 : Int) := hrat

/-- Half of the least positive number is above `10 ^ (-324)`. -/
theorem two_mul_ten_pow_lt : 2 * (10 : ℚ) ^ (-324 : Int) < 2 ^ (-1074 : Int) := by
  have hnat : 2 * 2 ^ 1074 < 10 ^ 324 := by decide +kernel
  have hrat : 2 * (2 : ℚ) ^ 1074 < 10 ^ 324 := by exact_mod_cast hnat
  rw [zpow_neg, zpow_neg, ← div_eq_mul_inv, div_lt_iff₀ (by positivity), inv_mul_eq_div,
    lt_div_iff₀ (by positivity)]
  exact hrat

/-- How the place of a decimal is found: it is zero for less than half of the least positive number,
the limit for what overflows, and else the one of a rounded fraction. -/
theorem Decimal.place_cases (d : Decimal) :
    (d.place = 0 ∧ 0 ≤ d.toRat ∧ 2 * d.toRat < 2 ^ (-1074 : Int)) ∨
      (d.place = limit ∧ overflow ≤ d.toRat) ∨ ∃ j m s, InBinade d.toRat d.place j m s := by
  by_cases hzero : d.coefficient = 0
  · left
    have hrat : d.toRat = 0 := by rw [toRat, hzero, Nat.cast_zero, zero_mul]
    rw [place, if_pos hzero, hrat]
    exact ⟨rfl, le_rfl, by norm_num⟩
  obtain ⟨hlow, hhigh⟩ := toRat_order hzero
  by_cases hlarge : 309 ≤ d.order
  · refine .inr (.inl ?_)
    rw [place, if_neg hzero, if_pos hlarge]
    refine ⟨rfl, ?_⟩
    calc overflow ≤ 10 ^ (309 : Int) := overflow_le_ten_pow
      _ ≤ 10 ^ d.order := zpow_le_zpow_right₀ (by norm_num) hlarge
      _ ≤ d.toRat := hlow
  by_cases hsmall : d.order < -324
  · left
    rw [place, if_neg hzero, if_neg hlarge, if_pos hsmall]
    refine ⟨rfl, le_trans (by positivity) hlow, ?_⟩
    calc 2 * d.toRat < 2 * 10 ^ (d.order + 1) := by linarith
      _ ≤ 2 * 10 ^ (-324 : Int) := by
        gcongr
        · norm_num
        · omega
      _ < 2 ^ (-1074 : Int) := two_mul_ten_pow_lt
  · refine .inr (.inr ?_)
    have hnum : 0 < d.numerator := Nat.mul_pos (by omega) (Nat.pow_pos (by decide))
    have hden : 0 < d.denominator := Nat.pow_pos (by decide)
    rw [place, if_neg hzero, if_neg hlarge, if_neg hsmall, toRat_eq_div]
    exact inBinade_nearestPlace hnum hden

/-- The place of a decimal is one of a finite number if and only if the decimal does not
overflow. -/
theorem Decimal.place_lt_limit_iff (d : Decimal) : d.place < limit ↔ d.toRat < overflow := by
  rcases d.place_cases with ⟨hplace, -, hsmall⟩ | ⟨hplace, hlarge⟩ | ⟨j, m, s, h⟩
  · have hoverflow : (1 : ℚ) ≤ overflow := by
      rw [overflow]
      exact one_le_mul_of_one_le_of_one_le (by norm_num) (one_le_pow₀ (by norm_num))
    have hone : (2 : ℚ) ^ (-1074 : Int) ≤ 1 := zpow_le_one_of_nonpos₀ (by norm_num) (by norm_num)
    rw [hplace]
    exact iff_of_true (by decide) (by linarith)
  · rw [hplace]
    exact iff_of_false (lt_irrefl _) (not_lt.2 hlarge)
  · exact h.place_lt_limit_iff

/-- The place of a decimal is nearest, if it is one of a finite number. -/
theorem Decimal.isNearest_place {d : Decimal} (negative : Bool) (h : d.place < limit) :
    IsNearest ⟨negative, d.place, h⟩ d.toRat := by
  -- It is enough to compare places.
  suffices hnearest : ∀ p, |placeValue d.place - d.toRat| ≤ |placeValue p - d.toRat| ∧
      (|placeValue d.place - d.toRat| = |placeValue p - d.toRat| → p = d.place ∨ Even d.place) by
    intro y
    obtain ⟨hle, htie⟩ := hnearest y.place
    refine ⟨hle, fun heq => (htie heq).imp (congrArg placeValue) fun heven => ?_⟩
    exact (even_significand_iff _).2 heven
  intro p
  rcases d.place_cases with ⟨hplace, hnonneg, hsmall⟩ | ⟨hplace, -⟩ | ⟨j, m, s, hbinade⟩
  · -- Zero is nearer than every other number.
    refine ⟨?_, fun _ => .inr (by rw [hplace]; exact Even.zero)⟩
    rcases Nat.eq_zero_or_pos p with rfl | hp
    · rw [hplace]
    · have hleast : (2 : ℚ) ^ (-1074 : Int) ≤ placeValue p := by
        calc (2 : ℚ) ^ (-1074 : Int) = placeValue 1 := by norm_num [placeValue]
          _ ≤ placeValue p := strictMono_placeValue.monotone hp
      have hzero : placeValue 0 = 0 := by norm_num [placeValue]
      rw [hplace, hzero, zero_sub, abs_neg, abs_of_nonneg hnonneg, abs_of_pos (by linarith)]
      linarith
  · exact absurd h (by rw [hplace]; exact lt_irrefl _)
  · exact hbinade.nearest p

/-- A decimal is read if and only if it does not overflow. -/
theorem Decimal.exists_toBinary64?_iff {d : Decimal} {negative : Bool} :
    (∃ x, d.toBinary64? negative = some x) ↔ d.toRat < overflow := by
  rw [toBinary64?, ← place_lt_limit_iff]
  constructor
  · rintro ⟨x, hx⟩
    by_contra hplace
    exact absurd hx (by simp [hplace])
  · intro hplace
    exact ⟨_, dif_pos hplace⟩

/-- A decimal is read as the nearest number with the given sign. -/
theorem Decimal.isNearest_of_toBinary64? {d : Decimal} {negative : Bool} {x : Binary64}
    (h : d.toBinary64? negative = some x) : x.negative = negative ∧ x.IsNearest d.toRat := by
  rw [toBinary64?] at h
  split at h
  · next hplace =>
    obtain rfl := Option.some.inj h
    exact ⟨rfl, isNearest_place negative hplace⟩
  · exact absurd h (by simp)

end FindSelect
