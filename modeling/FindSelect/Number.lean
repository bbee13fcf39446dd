import FindSelect.Decimal.Shortest

/-!
# Numbers

A number of a query is an integer or a binary64 number, by how it was written: `1` and `1.0` are
different numbers with different texts. Integers are written in full.
-/

namespace FindSelect

/-- A number of a query. -/
inductive Number where
  /-- A number written without a fraction and without an exponent. -/
  | integer (value : Int)
  /-- A number written with a fraction or an exponent. -/
  | binary (value : Binary64)
deriving DecidableEq, Repr

namespace Number

/-- Whether a query may hold an integer: from `-2 ^ 63`, the least one of 64 bits with a sign, up to
`2 ^ 64 - 1`, the greatest one of 64 bits without. -/
def inRange (n : Int) : Bool :=
  -9223372036854775808 ≤ n && n ≤ 18446744073709551615

/-- Whether the number is zero. -/
def isZero : Number → Bool
  | integer n => n == 0
  | binary x => x.isZero

/-- The decimal text of an integer. -/
def integerText (n : Int) : List Char :=
  if n < 0 then '-' :: Decimal.digits n.natAbs else Decimal.digits n.natAbs

/-- The text of a number. -/
def toText : Number → String
  | integer n => String.ofList (integerText n)
  | binary x => x.toText

end Number

end FindSelect
