/-!
# Binary floating point of 64 bits

A number is its bits: a sign, and a magnitude of 63 bits that holds the exponent field above the
fraction. The magnitude of a finite number grows with its absolute value, so the order of all bit
patterns (`key`) is the order of integers; it puts `-0` below `0` and a NaN outside the infinities,
on the side of its sign.

All arithmetic here is exact, on naturals: a quotient is rounded once, to the nearest number, and a
tie goes to the even one (`roundRatio`).
-/

namespace Repertory

structure Binary64 where
  negative : Bool
  magnitude : Nat
  magnitude_lt : magnitude < 0x8000000000000000
  deriving DecidableEq

namespace Binary64

def key (x : Binary64) : Int :=
  if x.negative then -(x.magnitude : Int) - 1 else x.magnitude

theorem key_inj {x y : Binary64} : x.key = y.key ↔ x = y := by
  constructor
  · intro h
    rcases x with ⟨sx, mx, hx⟩
    rcases y with ⟨sy, my, hy⟩
    cases sx <;> cases sy <;> simp [key] at h ⊢ <;> omega
  · rintro rfl
    rfl

instance : Ord Binary64 where
  compare x y := compare x.key y.key

instance : Std.TransOrd Binary64 where
  eq_swap {x y} := Std.OrientedOrd.eq_swap (a := x.key) (b := y.key)
  isLE_trans {x y z} := Std.TransOrd.isLE_trans (a := x.key) (b := y.key) (c := z.key)

/-- One more than the greatest fraction: the weight of the exponent field. -/
def fractionSize : Nat := 0x10000000000000

/-- The magnitude of infinity; a NaN lies above it. -/
def infinityMagnitude : Nat := 0x7FF0000000000000

def isNaN (x : Binary64) : Bool :=
  infinityMagnitude < x.magnitude

def isInfinite (x : Binary64) : Bool :=
  x.magnitude == infinityMagnitude

def isFinite (x : Binary64) : Bool :=
  x.magnitude < infinityMagnitude

/-- A number with the given sign and magnitude; a magnitude out of range becomes infinity. -/
def ofMagnitude (negative : Bool) (magnitude : Nat) : Binary64 :=
  if h : magnitude < 0x8000000000000000 then ⟨negative, magnitude, h⟩
  else ⟨negative, infinityMagnitude, by decide⟩

def zero : Binary64 := ⟨false, 0, by decide⟩

def infinity (negative : Bool) : Binary64 := ⟨negative, infinityMagnitude, by decide⟩

def nan (negative : Bool) : Binary64 := ⟨negative, 0x7FF8000000000000, by decide⟩

def neg (x : Binary64) : Binary64 := { x with negative := !x.negative }

/-- The number `m` and the exponent `q` with absolute value `m * 2 ^ q`, for a finite number. -/
def significand (x : Binary64) : Nat × Int :=
  let field := x.magnitude / fractionSize
  if field = 0 then (x.magnitude, -1074)
  else (x.magnitude % fractionSize + fractionSize, (field : Int) - 1075)

/-! ## Rounding -/

def divNearest (num den : Nat) : Nat :=
  let q := num / den
  let r := num % den
  if 2 * r < den then q
  else if den < 2 * r then q + 1
  else if q % 2 = 0 then q else q + 1

/-- The exponent `e` with `2 ^ e ≤ num / den < 2 ^ (e + 1)`, for positive `num` and `den`. -/
def floorLog2 (num den : Nat) : Int :=
  let e : Int := (Nat.log2 num : Int) - Nat.log2 den
  if den * Nat.pow 2 e.toNat ≤ num * Nat.pow 2 (-e).toNat then e else e - 1

/-- The magnitude of the number nearest to `num / den`, with ties to the even one; infinity where
the quotient is too large. -/
def roundRatio (num den : Nat) : Nat :=
  if num = 0 then 0
  else
    let q := max (floorLog2 num den - 52) (-1074)
    let m := divNearest (num * Nat.pow 2 (-q).toNat) (den * Nat.pow 2 q.toNat)
    min infinityMagnitude ((q + 1074).toNat * fractionSize + m)

def ofInt (n : Int) : Binary64 :=
  ofMagnitude (n < 0) (roundRatio n.natAbs 1)

/-- The number nearest to `digits * 10 ^ exponent`, with the given sign. An exponent far outside
the range of the format gives infinity or zero without computing the power. -/
def ofDecimal (negative : Bool) (digits : Nat) (exponent : Int) : Binary64 :=
  let size : Int := (Nat.toDigits 10 digits).length
  if digits = 0 then ofMagnitude negative 0
  else if 400 < exponent + size then infinity negative
  else if exponent + size < -400 then ofMagnitude negative 0
  else
    ofMagnitude negative
      (roundRatio (digits * Nat.pow 10 exponent.toNat) (Nat.pow 10 (-exponent).toNat))

def mul (x y : Binary64) : Binary64 :=
  let (m, p) := x.significand
  let (n, q) := y.significand
  ofMagnitude (x.negative != y.negative)
    (roundRatio (m * n * Nat.pow 2 (p + q).toNat) (Nat.pow 2 (-(p + q)).toNat))

def div (x y : Binary64) : Binary64 :=
  let (m, p) := x.significand
  let (n, q) := y.significand
  ofMagnitude (x.negative != y.negative)
    (roundRatio (m * Nat.pow 2 (p - q).toNat) (n * Nat.pow 2 (q - p).toNat))

end Binary64
end Repertory
