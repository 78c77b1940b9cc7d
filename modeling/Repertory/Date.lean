import Repertory.Number.Integer
import Repertory.Text.Blank

/-!
# Calendar dates

Days of the Gregorian calendar, extended in both directions, with years of up to six digits. A date
is written with four digits of the year, and with a sign where the year has more or is negative.

There are two ways to read a date. Both take digits without leading zeros and blanks before each
number; only the lenient one (`readLenient`) takes blanks behind them.
-/

namespace Repertory

def isLeapYear (year : Int) : Bool :=
  year % 4 = 0 && (year % 100 ≠ 0 || year % 400 = 0)

def daysInMonth (year : Int) (month : Nat) : Nat :=
  if month = 2 then if isLeapYear year then 29 else 28
  else if month = 4 ∨ month = 6 ∨ month = 9 ∨ month = 11 then 30
  else 31

/-- A year, month and day that exist in the calendar and lie in the supported range of years. -/
def IsDate (year : Int) (month day : Nat) : Prop :=
  -262143 ≤ year ∧ year ≤ 262142 ∧ 1 ≤ month ∧ month ≤ 12 ∧ 1 ≤ day ∧ day ≤ daysInMonth year month

instance (year : Int) (month day : Nat) : Decidable (IsDate year month day) := by
  unfold IsDate
  infer_instance

structure Date where
  year : Int
  month : Nat
  day : Nat
  exists_in_calendar : IsDate year month day
  deriving DecidableEq

namespace Date

open Number

def ofParts (year : Int) (month day : Nat) : Option Date :=
  if h : IsDate year month day then some ⟨year, month, day, h⟩ else none

instance : Ord Date where
  compare a b := (compare a.year b.year).then ((compare a.month b.month).then (compare a.day b.day))

instance : Std.TransOrd Date :=
  inferInstanceAs (Std.TransCmp (compareLex (compareOn Date.year)
    (compareLex (compareOn Date.month) (compareOn Date.day))))

/-- The text `2024-02-29`; the year has a sign unless it lies between 0 and 9999. -/
def text (d : Date) : String :=
  let year :=
    if 0 ≤ d.year ∧ d.year ≤ 9999 then padded 4 d.year.natAbs
    else (if d.year < 0 then '-' else '+') :: padded 4 d.year.natAbs
  String.ofList (year ++ '-' :: padded 2 d.month ++ '-' :: padded 2 d.day)

def readField (width : Nat) (s : List Char) : Option (Nat × List Char) :=
  let digits := (s.take width).takeWhile Char.isDigit
  if digits.isEmpty then none else some (Nat.ofDigitChars 10 digits 0, s.drop digits.length)

/-- Reads the year at the front: any number of digits behind a sign, at most four without. -/
def readYear (s : List Char) : Option (Int × List Char) :=
  match s with
  | '-' :: rest => (readField rest.length rest).map fun (n, r) => (-(n : Int), r)
  | '+' :: rest => (readField rest.length rest).map fun (n, r) => ((n : Int), r)
  | _ => (readField 4 s).map fun (n, r) => ((n : Int), r)

def afterHyphen (s : List Char) : Option (List Char) :=
  match s with
  | '-' :: rest => some rest
  | _ => none

/-- Reads year, month and day between hyphens; `skip` removes what may stand behind each of them. -/
def readParts (skip : List Char → List Char) (s : List Char) : Option Date := do
  let (year, s) ← readYear (Text.dropBlank s)
  let (month, s) ← readField 2 (Text.dropBlank (← afterHyphen (skip s)))
  let (day, s) ← readField 2 (Text.dropBlank (← afterHyphen (skip s)))
  if (skip s).isEmpty then ofParts year month day else none

def read (s : String) : Option Date :=
  readParts id s.toList

/-- Reads a date, ignoring blanks behind its numbers. -/
def readLenient (s : String) : Option Date :=
  readParts Text.dropBlank s.toList

end Date
end Repertory
