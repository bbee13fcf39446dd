import FindSelect.Decimal.Binary64
import FindSelect.Text.CharClass

/-!
# Numbers and truth values in TOML

Which runs of characters are numbers or truth values of TOML. Underscores may stand between digits,
a decimal integer has no leading zeros, and a number must not be too large: integers have at most
128 bits, and the nearest binary64 number has to be finite.
-/

namespace FindSelect.Toml

/-- The digits of a group of digits, in which single underscores may stand between two digits. -/
def ungroup (isDigit : Char → Bool) : List Char → Option (List Char)
  | [] => none
  | [c] => if isDigit c then some [c] else none
  | c :: '_' :: rest => if isDigit c then (c :: ·) <$> ungroup isDigit rest else none
  | c :: rest => if isDigit c then (c :: ·) <$> ungroup isDigit rest else none

/-- The digits of a decimal number before its point, without leading zeros. -/
def whole (text : List Char) : Option (List Char) := do
  match ← ungroup Text.isAsciiDigit text with
  | '0' :: _ :: _ => none
  | digits => some digits

/-- The text after a sign, and whether the sign is a minus. -/
def signed : List Char → Bool × List Char
  | '+' :: rest => (false, rest)
  | '-' :: rest => (true, rest)
  | text => (false, text)

/-- Whether a text is a decimal integer. -/
def isInteger (text : List Char) : Bool :=
  let (negative, text) := signed text
  match whole text with
  | none => false
  | some digits => Decimal.ofDigits digits < Nat.pow 2 128 &&
    (!negative || Decimal.ofDigits digits ≤ Nat.pow 2 127)

/-- The number that a digit up to `f` stands for. -/
def digitValue (c : Char) : Nat :=
  if c ≤ '9' then c.toNat - '0'.toNat else c.toLower.toNat - 'a'.toNat + 10

/-- Whether a text is a group of digits of the given base. -/
def isBased (base : Nat) (text : List Char) : Bool :=
  let isDigit (c : Char) : Bool := c.isAlphanum && digitValue c < base
  match ungroup isDigit text with
  | none => false
  | some digits => digits.foldl (fun n c => base * n + digitValue c) 0 < Nat.pow 2 128

/-- The exponent that a text writes behind its mark. -/
def exponent (text : List Char) : Option Int := do
  let (negative, text) := signed text
  let n : Int := Decimal.ofDigits (← ungroup Text.isAsciiDigit text)
  return if negative then -n else n

/-- Splits a text at the first character of a class, which belongs to neither part. -/
def splitAtFirst (p : Char → Bool) (text : List Char) : List Char × Option (List Char) :=
  match text.dropWhile (!p ·) with
  | [] => (text, none)
  | _ :: rest => (text.takeWhile (!p ·), some rest)

/-- The decimal that a text without a sign writes with a fraction or an exponent. -/
def decimal (text : List Char) : Option Decimal := do
  let (mantissa, exponentText) := splitAtFirst (fun c => c == 'e' || c == 'E') text
  let (wholeText, fractionText) := splitAtFirst (· == '.') mantissa
  guard (exponentText.isSome || fractionText.isSome)
  let whole ← whole wholeText
  let fraction ← (fractionText.map (ungroup Text.isAsciiDigit)).getD (some [])
  let exponent ← (exponentText.map exponent).getD (some 0)
  return ⟨Decimal.ofDigits (whole ++ fraction), exponent - fraction.length⟩

/-- Whether a text is a number with a fraction or an exponent, or one of the two names. -/
def isFloat (text : List Char) : Bool :=
  let (negative, text) := signed text
  text == ['i', 'n', 'f'] || text == ['n', 'a', 'n'] ||
    ((decimal text).bind (Decimal.toBinary64? negative)).isSome

/-- Whether a text is a number or a truth value. -/
def isPlain (text : List Char) : Bool :=
  match text with
  | ['t', 'r', 'u', 'e'] | ['f', 'a', 'l', 's', 'e'] => true
  | '0' :: 'x' :: digits => isBased 16 digits
  | '0' :: 'o' :: digits => isBased 8 digits
  | '0' :: 'b' :: digits => isBased 2 digits
  | _ => isInteger text || isFloat text

end FindSelect.Toml
