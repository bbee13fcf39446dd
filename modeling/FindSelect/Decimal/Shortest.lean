import FindSelect.Decimal.Binary64

/-!
# The shortest decimal of a binary64 number

Of the decimals that read back as a given number, `Binary64.shortest` is one with the fewest digits,
and of those the nearest to the number. `Binary64.toText` writes it.
-/

namespace FindSelect

/-- The two decimals on either side of `d` that have `dropped` digits less, the nearer one first; of
two at the same distance, the one with the even last digit. -/
def Decimal.neighbours (d : Decimal) (dropped : Nat) : List Decimal :=
  let unit := Nat.pow 10 dropped
  let below := d.coefficient / unit
  let left := d.coefficient % unit
  let side (n : Nat) : Decimal := ⟨n, d.exponent + dropped⟩
  if 2 * left < unit ∨ (2 * left = unit ∧ below % 2 = 0) then [side below, side (below + 1)]
  else [side (below + 1), side below]

namespace Binary64

/-- The shortest decimal that reads back as `x`. For one digit, two digits and so on, the two
neighbours of the exact value are tried; with all its digits the exact value itself is reached. -/
def shortest (x : Binary64) : Decimal :=
  let size := (Decimal.digits x.exact.coefficient).length
  let short := (List.range size).findSome? fun kept =>
    (x.exact.neighbours (size - 1 - kept)).find? fun d => d.toBinary64? x.negative == some x
  short.getD x.exact

/-- The layout of a decimal given by its digits `d₀d₁d₂…`, without trailing zeros, and the power of
ten of the first. Powers from `-5` to `15` are written positionally, with at least one digit after
the point; the others as `d₀.d₁d₂…e+n` or `e-n`, without a point if there is one digit. -/
def layout (digits : List Char) (order : Int) : List Char :=
  if 0 ≤ order ∧ order < 16 then
    let whole := order.toNat + 1
    let fraction := digits.drop whole
    digits.take whole ++ List.replicate (whole - digits.length) '0' ++ ['.'] ++
      (if fraction.isEmpty then ['0'] else fraction)
  else if -5 ≤ order ∧ order < 0 then
    ['0', '.'] ++ List.replicate ((-order).toNat - 1) '0' ++ digits
  else
    let fraction := digits.drop 1
    digits.take 1 ++ (if fraction.isEmpty then [] else '.' :: fraction) ++
      ['e', if order < 0 then '-' else '+'] ++ Decimal.digits order.natAbs

/-- The text of a number: its sign and its shortest digits. Zero is `0.0` or `-0.0`. -/
def toText (x : Binary64) : String :=
  let digits := (Decimal.digits x.shortest.coefficient).reverse.dropWhile (· == '0') |>.reverse
  let body := if x.isZero then ['0', '.', '0'] else layout digits x.shortest.order
  String.ofList (if x.negative then '-' :: body else body)

end Binary64

end FindSelect
