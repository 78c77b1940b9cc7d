import Repertory.Number.Binary64
import Repertory.Number.Integer
import Repertory.Text.Case

/-!
# Floating-point numbers in text

Reading takes the decimal number nearest to the text; writing gives the fewest digits that read
back as the same number, and among those the nearest. Of two that are equally near, the format that
is written decides. Written numbers are positional whatever their size: there is no exponent, and no
point where there is no fraction.
-/

namespace Repertory
namespace Binary64

open Number

/-! ## Reading -/

/-- An exponent `e12`, `E+12`, `e-12`; the empty text is the exponent zero. -/
def readExponent (s : List Char) : Option Int :=
  match s with
  | [] => some 0
  | c :: rest => if c = 'e' ∨ c = 'E' then readInt rest else none

/-- Digits, an optional point with more digits, and an optional exponent. There is a digit before
or behind the point. -/
def readUnsignedDecimal (negative : Bool) (s : List Char) : Option Binary64 :=
  let whole := s.takeWhile Char.isDigit
  let afterWhole := s.dropWhile Char.isDigit
  let fraction :=
    match afterWhole with
    | '.' :: rest => rest.takeWhile Char.isDigit
    | _ => []
  let afterFraction :=
    match afterWhole with
    | '.' :: rest => rest.dropWhile Char.isDigit
    | _ => afterWhole
  if whole.isEmpty && fraction.isEmpty then none
  else
    (readExponent afterFraction).map fun e =>
      ofDecimal negative (Nat.ofDigitChars 10 (whole ++ fraction) 0) (e - fraction.length)

def readMagnitude (negative : Bool) (s : List Char) : Option Binary64 :=
  let word := s.map Char.toLower
  if word = "inf".toList ∨ word = "infinity".toList then some (infinity negative)
  else if word = "nan".toList then some (nan negative)
  else readUnsignedDecimal negative s

def read (s : String) : Option Binary64 :=
  match s.toList with
  | '-' :: rest => readMagnitude true rest
  | '+' :: rest => readMagnitude false rest
  | cs => readMagnitude false cs

/-! ## Writing -/

structure Decimal where
  digits : Nat
  exponent : Int
  deriving DecidableEq

/-- The numbers that round to a finite number other than zero: from `low / den` to `high / den`
around `value / den`, ends included if `closed`. -/
structure RoundingInterval where
  low : Nat
  value : Nat
  high : Nat
  den : Nat
  closed : Bool

/-- Half a unit of the last place reaches in both directions, but only a quarter downwards from a
power of two. Ties round to even, so an even significand owns the ends. -/
def roundingInterval (x : Binary64) : RoundingInterval :=
  let (m, q) := x.significand
  let up := Nat.pow 2 (q - 2).toNat
  let down := if m = fractionSize ∧ -1074 < q then 1 else 2
  { low := (4 * m - down) * up
    value := 4 * m * up
    high := (4 * m + 2) * up
    den := Nat.pow 2 (2 - q).toNat
    closed := m % 2 = 0 }

def RoundingInterval.holds (i : RoundingInterval) (d : Decimal) : Bool :=
  let n := d.digits * Nat.pow 10 d.exponent.toNat * i.den
  let s := Nat.pow 10 (-d.exponent).toNat
  if i.closed then i.low * s ≤ n && n ≤ i.high * s else i.low * s < n && n < i.high * s

inductive Tie where
  | up
  | toEven
  deriving DecidableEq

/-- Whether the lower one of two decimal numbers is to be tried first, by the distances of both from
the value and the last digit of the lower one. -/
def Tie.prefersBelow (tie : Tie) (toBelow toAbove digits : Nat) : Bool :=
  toBelow < toAbove || (toBelow = toAbove && tie = .toEven && digits % 2 = 0)

/-- The decimal numbers with the given last place next to the value, where they lie in the
interval, the nearer one first. -/
def RoundingInterval.candidate (i : RoundingInterval) (tie : Tie) (place : Int) :
    Option Decimal :=
  let num := i.value * Nat.pow 10 (-place).toNat
  let den := i.den * Nat.pow 10 place.toNat
  let below : Decimal := ⟨num / den, place⟩
  let above : Decimal := ⟨num / den + 1, place⟩
  let r := num % den
  if tie.prefersBelow r (den - r) below.digits then
    if i.holds below then some below else if i.holds above then some above else none
  else if i.holds above then some above
  else if i.holds below then some below else none

def floorLog10 (num den : Nat) : Int :=
  let t : Int := ((Nat.toDigits 10 num).length : Int) - (Nat.toDigits 10 den).length
  if den * Nat.pow 10 t.toNat ≤ num * Nat.pow 10 (-t).toNat then t else t - 1

/-- The fewest digits that read back as the finite number `x`. Seventeen places always suffice. -/
def shortest (tie : Tie) (x : Binary64) : Decimal :=
  if x.magnitude = 0 then ⟨0, 0⟩
  else
    let i := x.roundingInterval
    let top := floorLog10 i.value i.den
    ((List.range 18).findSome? fun (n : Nat) => i.candidate tie (top - n)).getD ⟨0, 0⟩

def Decimal.normal (d : Decimal) : List Char × Int :=
  let digits := natText d.digits
  let kept := (digits.reverse.dropWhile (· == '0')).reverse
  (kept, d.exponent + (digits.length - kept.length : Nat))

def positional (digits : List Char) (point : Int) : List Char :=
  if point ≤ 0 then '0' :: '.' :: (List.replicate (-point).toNat '0' ++ digits)
  else if (digits.length : Int) ≤ point then
    digits ++ List.replicate (point.toNat - digits.length) '0'
  else digits.take point.toNat ++ '.' :: digits.drop point.toNat

/-- The written form. A NaN has no sign, a negative zero has; a tie goes up. -/
def text (x : Binary64) : String :=
  if x.isNaN then "NaN"
  else
    let sign := if x.negative then ['-'] else []
    let body :=
      if x.isInfinite then "inf".toList
      else if x.magnitude = 0 then ['0']
      else
        let (digits, exponent) := (x.shortest .up).normal
        positional digits (exponent + digits.length)
    String.ofList (sign ++ body)

end Binary64
end Repertory
