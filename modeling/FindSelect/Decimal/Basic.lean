/-!
# Decimals

A decimal is a natural coefficient times a power of ten. All arithmetic on decimals is exact, on
natural numbers.
-/

namespace FindSelect

/-- The decimal `coefficient * 10 ^ exponent`. -/
structure Decimal where
  /-- The digits, read as one natural number. -/
  coefficient : Nat
  /-- The power of ten that the coefficient is multiplied by. -/
  exponent : Int
deriving DecidableEq, Repr

namespace Decimal

/-- The number that a list of ASCII digits writes. -/
def ofDigits (digits : List Char) : Nat :=
  digits.foldl (fun n c => 10 * n + (c.toNat - '0'.toNat)) 0

/-- The digits of a natural number, without leading zeros; `0` has one digit. -/
def digits (n : Nat) : List Char :=
  Nat.toDigits 10 n

/-- The numerator of a decimal over `denominator`. -/
def numerator (d : Decimal) : Nat :=
  d.coefficient * Nat.pow 10 d.exponent.toNat

/-- The denominator of a decimal: the power of ten that a negative exponent divides by. -/
def denominator (d : Decimal) : Nat :=
  Nat.pow 10 (-d.exponent).toNat

/-- The power of ten of the first digit, so that `d` lies between `10 ^ d.order` and
`10 ^ (d.order + 1)` when it is not zero. -/
def order (d : Decimal) : Int :=
  d.exponent + (digits d.coefficient).length - 1

end Decimal

end FindSelect
