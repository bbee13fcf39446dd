import FindSelect.Decimal.Basic
import FindSelect.Text.CharClass
import FindSelect.Toml.Scanner

/-!
# Dates and times in TOML

A value can be a date, a time, or a date with a time and perhaps an offset from universal time. A
`T` or a single blank stands between date and time, and a time may go without its seconds. The
numbers have to be those of an actual day of the Gregorian calendar and of an actual time, which may
be a leap second.
-/

namespace FindSelect.Toml

open Scanner

/-- Takes a number of digits, which give a natural number. -/
def fixedNumber (size : Nat) : Scanner Nat := do
  let digits ← takeExactly size
  guard (digits.all Text.isAsciiDigit)
  return Decimal.ofDigits digits

/-- Whether a year has a twenty-ninth of February. -/
def isLeapYear (year : Nat) : Bool :=
  year % 4 == 0 && (year % 100 != 0 || year % 400 == 0)

/-- The number of days of a month, which is counted from one. -/
def daysInMonth (year month : Nat) : Nat :=
  if month = 2 then if isLeapYear year then 29 else 28
  else if month = 4 ∨ month = 6 ∨ month = 9 ∨ month = 11 then 30
  else 31

/-- Takes a date. -/
def date : Scanner Unit := do
  let year ← fixedNumber 4
  expect ['-']
  let month ← fixedNumber 2
  expect ['-']
  let day ← fixedNumber 2
  guard (1 ≤ month ∧ month ≤ 12 ∧ 1 ≤ day ∧ day ≤ daysInMonth year month)

/-- Takes the hour and the minute of a time or of an offset. -/
def hourAndMinute : Scanner Unit := do
  let hour ← fixedNumber 2
  expect [':']
  let minute ← fixedNumber 2
  guard (hour ≤ 23 ∧ minute ≤ 59)

/-- Takes a time. The seconds may be missing, and may have a fraction. -/
def time : Scanner Unit := do
  hourAndMinute
  if ← accept [':'] then
    let second ← fixedNumber 2
    guard (second ≤ 60)
    if ← accept ['.'] then
      let fraction ← takeWhile Text.isAsciiDigit
      guard !fraction.isEmpty

/-- Takes an offset from universal time, if one comes next. -/
def offset : Scanner Unit := do
  match ← peek with
  | some 'Z' | some 'z' =>
    let _ ← next
  | some '+' | some '-' =>
    let _ ← next
    hourAndMinute
  | _ => return

/-- Whether a time follows a date. A blank belongs to the value only if a digit comes after it. -/
def timeFollows : Scanner Bool := do
  match ← get with
  | 'T' :: _ | 't' :: _ => return true
  | ' ' :: c :: _ => return Text.isAsciiDigit c
  | _ => return false

/-- Takes a date, perhaps with a time and an offset, or a time alone. -/
def dateTime : Scanner Unit := do
  match ← optional date with
  | none => time
  | some _ =>
    if ← timeFollows then
      let _ ← next
      time
      offset

end FindSelect.Toml
