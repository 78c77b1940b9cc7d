/-!
# Integers of 64 bits in text

Reading is strict: an optional sign, then decimal digits and nothing else. A number that does not
fit into its 64 bits is no number.
-/

namespace Repertory
namespace Number

def readDigits (s : List Char) : Option Nat :=
  if s.isEmpty || !s.all Char.isDigit then none else some (Nat.ofDigitChars 10 s 0)

def readNat (s : List Char) : Option Nat :=
  match s with
  | '+' :: rest => readDigits rest
  | _ => readDigits s

def readInt (s : List Char) : Option Int :=
  match s with
  | '-' :: rest => (readDigits rest).map fun n => -(n : Int)
  | _ => (readNat s).map fun n => (n : Int)

def signed? (n : Int) : Option Int64 :=
  if -0x8000000000000000 ≤ n ∧ n < 0x8000000000000000 then some (Int64.ofInt n) else none

def unsigned? (n : Int) : Option UInt64 :=
  if 0 ≤ n ∧ n < 0x10000000000000000 then some (UInt64.ofNat n.toNat) else none

def readSigned (s : String) : Option Int64 :=
  (readInt s.toList).bind signed?

/-- Reads an unsigned number of 64 bits, which takes a plus sign but no minus sign. -/
def readUnsigned (s : String) : Option UInt64 :=
  (readNat s.toList).bind fun n => unsigned? (n : Int)

def natText (n : Nat) : List Char :=
  Nat.toDigits 10 n

def intText (n : Int) : List Char :=
  if n < 0 then '-' :: natText n.natAbs else natText n.natAbs

def signedText (n : Int64) : String :=
  String.ofList (intText n.toInt)

def unsignedText (n : UInt64) : String :=
  String.ofList (natText n.toNat)

def padded (width : Nat) (n : Nat) : List Char :=
  let digits := natText n
  List.replicate (width - digits.length) '0' ++ digits

end Number
end Repertory
