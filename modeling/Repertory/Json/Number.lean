import Repertory.Json.Basic

/-!
# Numbers in JSON

An integer that fits into 64 bits stays an integer. Any other number is floating-point: its digits,
as many as fit into 64 bits, are rounded to a number, which is then scaled by a power of ten, and
every step rounds. For few digits and small exponents the result is the nearest number.

The whole part and the fraction each end where a digit does not fit. A fraction may add a digit that
fits even where the whole part had one that did not.
-/

namespace Repertory
namespace Json

/-- Digits collected so far, the place of the last one, and whether a digit of the same part did not
fit. -/
structure Significand where
  value : Nat
  exponent : Int
  full : Bool

/-- Takes a digit of the whole part. Once a digit does not fit, this and all later ones only count
as places. -/
def Significand.whole (s : Significand) (c : Char) : Significand :=
  let next := 10 * s.value + (c.toNat - 48)
  if s.full || UInt64.size ≤ next then { s with exponent := s.exponent + 1, full := true }
  else { s with value := next }

/-- Takes a digit of the fraction. Once a digit does not fit, this and all later ones are
ignored. -/
def Significand.fraction (s : Significand) (c : Char) : Significand :=
  let next := 10 * s.value + (c.toNat - 48)
  if s.full || UInt64.size ≤ next then { s with full := true }
  else { s with value := next, exponent := s.exponent - 1 }

def powerOfTen (n : Nat) : Binary64 :=
  Binary64.ofDecimal false 1 n

/-- Divides by a power of ten of any size, in steps that are numbers. -/
def divideByPower (x : Binary64) (n : Nat) : Binary64 :=
  if x.magnitude = 0 then x
  else if n ≤ 308 then x.div (powerOfTen n)
  else divideByPower (x.div (powerOfTen 308)) (n - 308)
termination_by n

def scale (value : Nat) (exponent : Int) : Option Binary64 :=
  let x := Binary64.ofInt value
  if exponent < 0 then some (divideByPower x exponent.natAbs)
  else if exponent ≤ 308 then
    let y := x.mul (powerOfTen exponent.natAbs)
    if y.isInfinite then none else some y
  else if value = 0 then some x
  else none

def digitsOf (s : List Char) : List Char := s.takeWhile Char.isDigit

/-- A fraction at the front of a text, if there is one, and the rest. A point needs a digit. -/
def fractionOf (s : List Char) : Option (Option (List Char) × List Char) :=
  match s with
  | '.' :: rest =>
    let digits := digitsOf rest
    if digits.isEmpty then none else some (some digits, rest.drop digits.length)
  | _ => some (none, s)

def exponentOf (s : List Char) : Option (Option Int × List Char) :=
  let signed (negative : Bool) (rest : List Char) : Option (Option Int × List Char) :=
    let digits := digitsOf rest
    if digits.isEmpty then none
    else
      let n : Int := Nat.ofDigitChars 10 digits 0
      some (some (if negative then -n else n), rest.drop digits.length)
  match s with
  | c :: rest =>
    if c = 'e' ∨ c = 'E' then
      match rest with
      | '-' :: rest => signed true rest
      | '+' :: rest => signed false rest
      | _ => signed false rest
    else some (none, s)
  | [] => some (none, s)

def ofParts (negative : Bool) (whole : List Char) (fraction : Option (List Char))
    (exponent : Option Int) : Json :=
  let digits := whole.foldl Significand.whole ⟨0, 0, false⟩
  let signed (x : Binary64) : Json := float (if negative then x.neg else x)
  if fraction.isNone && exponent.isNone && !digits.full then
    let n : Int := digits.value
    if negative then
      if n = 0 ∨ 0x8000000000000000 < n then signed (Binary64.ofInt n) else int (-n)
    else int n
  else
    let digits := (fraction.getD []).foldl Significand.fraction { digits with full := false }
    ((scale digits.value (digits.exponent + exponent.getD 0)).map signed).getD unusable

/-- Reads a number at the front of a draft. No digit stands behind a leading zero. -/
def readNumber (s : List Char) : Option (Json × List Char) := do
  let (negative, s) : Bool × List Char :=
    match s with
    | '-' :: rest => (true, rest)
    | _ => (false, s)
  let digits := digitsOf s
  let whole := if digits.head? = some '0' then ['0'] else digits
  if whole.isEmpty || (digits.head? = some '0' && 1 < digits.length) then none
  let (fraction, s) ← fractionOf (s.drop whole.length)
  let (exponent, s) ← exponentOf s
  return (ofParts negative whole fraction exponent, s)

end Json
end Repertory
