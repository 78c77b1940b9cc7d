/-!
# Universally unique identifiers

An identifier is a number of 128 bits. It is written as 32 hexadecimal digits in groups of 8, 4, 4,
4 and 12; it is read in that form, without hyphens, in braces or as a `urn:uuid:` name in any case
of letters.
-/

namespace Repertory

structure Uuid where
  bits : Fin 0x100000000000000000000000000000000
  deriving DecidableEq

namespace Uuid

/-- Identifiers are ordered as numbers, which is the order of their bytes. -/
instance : Ord Uuid where
  compare a b := compare a.bits.val b.bits.val

instance : Std.TransOrd Uuid where
  eq_swap {a b} := Std.OrientedOrd.eq_swap (a := a.bits.val) (b := b.bits.val)
  isLE_trans {a b c} :=
    Std.TransOrd.isLE_trans (a := a.bits.val) (b := b.bits.val) (c := c.bits.val)

instance : Std.LawfulEqOrd Uuid where
  compare_self {a} := Std.ReflOrd.compare_self (a := a.bits.val)
  eq_of_compare {a b} h := by
    have := Std.LawfulEqOrd.eq_of_compare (a := a.bits.val) (b := b.bits.val) h
    cases a; cases b; congr; exact Fin.ext this

def ofNat (n : Nat) : Uuid :=
  ⟨⟨n % 0x100000000000000000000000000000000, Nat.mod_lt _ (by decide)⟩⟩

def nil : Uuid := ofNat 0

/-! ## Text -/

def hexValue (c : Char) : Option Nat :=
  let n := c.toNat
  if 48 ≤ n ∧ n ≤ 57 then some (n - 48)
  else if 97 ≤ n ∧ n ≤ 102 then some (n - 87)
  else if 65 ≤ n ∧ n ≤ 70 then some (n - 55)
  else none

/-- The number written by hexadecimal digits, highest first, behind the digits already read. -/
def hexNumber : Nat → List Char → Option Nat
  | acc, [] => some acc
  | acc, c :: rest => (hexValue c).bind fun d => hexNumber (16 * acc + d) rest

def ofHex (digits : List Char) : Option Uuid :=
  if digits.length = 32 then (hexNumber 0 digits).map ofNat else none

def ofGroups (s : List Char) : Option Uuid :=
  let hyphens := [s[8]?, s[13]?, s[18]?, s[23]?]
  if s.length = 36 ∧ hyphens = List.replicate 4 (some '-') then
    ofHex (s.take 8 ++ (s.drop 9).take 4 ++ (s.drop 14).take 4 ++ (s.drop 19).take 4 ++ s.drop 24)
  else none

def read (s : String) : Option Uuid :=
  let cs := s.toList
  if cs.length = 32 then ofHex cs
  else if cs.length = 36 then ofGroups cs
  else if cs.length = 38 then
    if cs.head? = some '{' ∧ cs.getLast? = some '}' then ofGroups ((cs.drop 1).take 36) else none
  else if cs.length = 45 then
    if (cs.take 9).map Char.toLower = "urn:uuid:".toList then ofGroups (cs.drop 9) else none
  else none

def hexDigits : Nat → Nat → List Char
  | 0, _ => []
  | count + 1, n => hexDigits count (n / 16) ++ [Nat.digitChar (n % 16)]

def text (u : Uuid) : String :=
  let n := u.bits.val
  String.ofList <|
    hexDigits 8 (n >>> 96) ++ '-' :: hexDigits 4 (n >>> 80) ++ '-' :: hexDigits 4 (n >>> 64) ++
      '-' :: hexDigits 4 (n >>> 48) ++ '-' :: hexDigits 12 n

/-! ## Allocation -/

def atTime (stamp : Nat) : Uuid :=
  ofNat ((stamp <<< 80) + (7 <<< 76) + (1 <<< 63))

/-- An identifier of version 7 with the time stamp after that of `last`. Time stamps start over
after the last one. -/
def following (last : Option Uuid) : Uuid :=
  match last with
  | none => atTime 0
  | some u => atTime ((u.bits.val >>> 80) + 1)

end Uuid
end Repertory
