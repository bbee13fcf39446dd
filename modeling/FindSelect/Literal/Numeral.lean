import FindSelect.Number

/-!
# Numerals

A numeral is a number as it is written. One without a fraction and an exponent is an integer and has
to be in range; any other is read to the nearest binary64 number, and has to be finite.

`Numeral.value?` models what `number` makes of the text that it has read.
-/

namespace FindSelect.Literal

/-- The exponent of a numeral. -/
structure Exponent where
  /-- Whether a minus sign stands before the digits. -/
  negative : Bool
  /-- The digits. -/
  digits : List Char
deriving DecidableEq, Repr

/-- The parts of a number as it is written. -/
structure Numeral where
  /-- Whether a minus sign stands before the digits. -/
  negative : Bool
  /-- The digits before the point. -/
  whole : List Char
  /-- The digits after the point, if there is one. -/
  fraction : Option (List Char)
  /-- The exponent, if there is one. -/
  exponent : Option Exponent
deriving DecidableEq, Repr

/-- The integer that an exponent stands for. -/
def Exponent.value (e : Exponent) : Int :=
  let n : Int := Decimal.ofDigits e.digits
  if e.negative then -n else n

namespace Numeral

/-- The absolute value of a numeral, as a decimal. -/
def decimal (n : Numeral) : Decimal :=
  let fraction := n.fraction.getD []
  let exponent := (n.exponent.map Exponent.value).getD 0
  ⟨Decimal.ofDigits (n.whole ++ fraction), exponent - fraction.length⟩

/-- The number that a numeral writes, if there is one. -/
def value? (n : Numeral) : Option Number :=
  match n.fraction, n.exponent with
  | none, none =>
    let magnitude : Int := Decimal.ofDigits n.whole
    let i := if n.negative then -magnitude else magnitude
    if Number.inRange i then some (.integer i) else none
  | _, _ => (n.decimal.toBinary64? n.negative).map .binary

end Numeral

end FindSelect.Literal
