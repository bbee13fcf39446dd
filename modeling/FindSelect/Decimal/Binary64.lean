import FindSelect.Decimal.Basic

/-!
# Finite binary64 numbers

The finite numbers of the 64-bit binary format, with the reading of decimals: `Decimal.toBinary64?`
gives the nearest number, a tie going to the one with the even significand, and nothing when the
decimal is too large.

The non-negative finite numbers are in increasing order one-to-one with the natural numbers below
`Binary64.limit`: zero is the first, the least positive number the second, and so on. A number is
kept as its sign and its place in that order, so each has one representation, and rounding up past
the end of a binade needs no special care.
-/

namespace FindSelect

/-- The number of non-negative finite numbers: 2047 binades of `2 ^ 52` numbers each. -/
def Binary64.limit : Nat := 2047 * Nat.pow 2 52

/-- A finite binary64 number. -/
structure Binary64 where
  /-- Whether the number has a minus sign; zero may have one too. -/
  negative : Bool
  /-- The place of the absolute value among the non-negative finite numbers, counted from zero. -/
  place : Nat
  /-- The place is one of a finite number. -/
  place_lt : place < Binary64.limit
deriving DecidableEq, Repr

namespace Binary64

/-- Zero with the given sign. -/
def zero (negative : Bool) : Binary64 :=
  ⟨negative, 0, by decide⟩

/-- Whether the number is zero, of either sign. -/
def isZero (x : Binary64) : Bool :=
  x.place == 0

/-- The integer `m` with `|x| = m * 2 ^ x.scale`. -/
def significand (x : Binary64) : Nat :=
  if x.place < Nat.pow 2 52 then x.place else Nat.pow 2 52 + x.place % Nat.pow 2 52

/-- The integer `q` with `|x| = x.significand * 2 ^ q`. The numbers of the first two binades share
the least scale. -/
def scale (x : Binary64) : Int :=
  (max 1 (x.place / Nat.pow 2 52) : Nat) - 1075

/-- The absolute value of a number, as the decimal that equals it. -/
def exact (x : Binary64) : Decimal :=
  if 0 ≤ x.scale then ⟨x.significand * Nat.pow 2 x.scale.toNat, 0⟩
  else ⟨x.significand * Nat.pow 5 (-x.scale).toNat, x.scale⟩

end Binary64

/-- The quotient rounded to the nearest integer, a half to the even neighbour. -/
def roundDiv (num den : Nat) : Nat :=
  let q := num / den
  let r := num % den
  if den < 2 * r ∨ (2 * r = den ∧ q % 2 = 1) then q + 1 else q

/-- The scale in which the fraction `num / den` is rounded: the least scale of the format in which
it has at most 53 bits. The logarithms give the answer or the scale just below it. -/
def roundingScale (num den : Nat) : Int :=
  let q := max ((num.log2 : Int) - den.log2 - 53) (-1074)
  if num * Nat.pow 2 (-(q + 53)).toNat < den * Nat.pow 2 (q + 53).toNat then q else q + 1

/-- The place of the number nearest to the fraction `num / den`, which may lie beyond the last
finite one. A significand of `2 ^ 53` is the first of the next binade, as its place says. -/
def nearestPlace (num den : Nat) : Nat :=
  let q := roundingScale num den
  (q + 1074).toNat * Nat.pow 2 52 +
    roundDiv (num * Nat.pow 2 (-q).toNat) (den * Nat.pow 2 q.toNat)

/-- The place of the number nearest to a decimal. From `10 ^ 309` on the decimal is beyond every
finite number and below `10 ^ (-324)` it is nearest to zero, whatever its digits, so neither is
computed. -/
def Decimal.place (d : Decimal) : Nat :=
  if d.coefficient = 0 then 0
  else if 309 ≤ d.order then Binary64.limit
  else if d.order < -324 then 0
  else nearestPlace d.numerator d.denominator

/-- The binary64 number nearest to a decimal with a sign, or nothing if the decimal rounds beyond
the last finite number. -/
def Decimal.toBinary64? (negative : Bool) (d : Decimal) : Option Binary64 :=
  if h : d.place < Binary64.limit then some ⟨negative, d.place, h⟩ else none

end FindSelect
