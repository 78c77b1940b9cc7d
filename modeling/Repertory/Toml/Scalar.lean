import Repertory.Date
import Repertory.Json.Basic
import Repertory.Number.FloatText
import Repertory.Toml.Text

/-!
# Numbers, truth values and times of TOML

Underscores may stand between the digits of a number. A date or a time has no counterpart among the
values of a configuration, so it becomes a table that holds its text.
-/

namespace Repertory
namespace Toml

def readMoreDigits (isDigit : Char → Bool) : Reader (List Char)
  | '_' :: c :: rest =>
    if isDigit c then (readMoreDigits isDigit rest).map fun (ds, rest) => (c :: ds, rest) else none
  | c :: rest =>
    if isDigit c then (readMoreDigits isDigit rest).map fun (ds, rest) => (c :: ds, rest)
    else some ([], c :: rest)
  | [] => some ([], [])

def readDigits (isDigit : Char → Bool) : Reader (List Char)
  | c :: rest =>
    if isDigit c then (readMoreDigits isDigit rest).map fun (ds, rest) => (c :: ds, rest) else none
  | [] => none

/-- Reads the digits of a decimal integer: none stands behind a leading zero. -/
def readWhole : Reader (List Char)
  | '0' :: rest => some (['0'], rest)
  | s => readDigits Char.isDigit s

def readExponent : Reader (List Char)
  | c :: rest =>
    if c = 'e' ∨ c = 'E' then
      let (sign, rest) : List Char × List Char :=
        match rest with
        | '-' :: rest => (['-'], rest)
        | '+' :: rest => ([], rest)
        | _ => ([], rest)
      (readDigits Char.isDigit rest).map fun (ds, rest) => ('e' :: (sign ++ ds), rest)
    else some ([], c :: rest)
  | [] => some ([], [])

def readFraction : Reader (List Char)
  | '.' :: rest => (readDigits Char.isDigit rest).map fun (ds, rest) => ('.' :: ds, rest)
  | s => some ([], s)

def ofInteger (n : Int) : Option Json := (Number.signed? n).map Json.ofSigned

/-- Reads a number in decimal, behind its sign. It is an integer if it has neither a fraction nor an
exponent. -/
def readDecimal (negative : Bool) : Reader Json := fun s => do
  let (whole, s) ← readWhole s
  let (fraction, s) ← readFraction s
  let (exponent, s) ← readExponent s
  let sign := if negative then ['-'] else []
  if fraction.isEmpty && exponent.isEmpty then
    let n : Int := Nat.ofDigitChars 10 whole 0
    let number ← ofInteger (if negative then -n else n)
    return (number, s)
  else
    let x ← Binary64.read (String.ofList (sign ++ whole ++ fraction ++ exponent))
    if x = Binary64.infinity false then none else some (.float x, s)

def readBased (base : Nat) : Reader Json := fun s => do
  let isDigit (c : Char) : Bool := (Uuid.hexValue c).any (· < base)
  let (digits, s) ← readDigits isDigit s
  let n := digits.foldl (fun n c => base * n + (Uuid.hexValue c).getD 0) 0
  let number ← ofInteger n
  return (number, s)

def readSigned (negative : Bool) : Reader Json
  | 'i' :: 'n' :: 'f' :: rest => some (.float (.infinity negative), rest)
  | 'n' :: 'a' :: 'n' :: rest => some (.float (.nan negative), rest)
  | s => readDecimal negative s

def readNumber : Reader Json
  | '+' :: rest => readSigned false rest
  | '-' :: rest => readSigned true rest
  | '0' :: 'x' :: rest => readBased 16 rest
  | '0' :: 'o' :: rest => readBased 8 rest
  | '0' :: 'b' :: rest => readBased 2 rest
  | s => readSigned false s

/-! ## Dates and times -/

def readFixed (count : Nat) : Reader Nat := fun s =>
  let digits := s.take count
  if digits.length = count ∧ digits.all Char.isDigit then
    some (Nat.ofDigitChars 10 digits 0, s.drop count)
  else none

def expect (c : Char) : List Char → Option (List Char)
  | d :: rest => if c = d then some rest else none
  | [] => none

def skipPart (greatest : Nat) (s : List Char) : Option (List Char) := do
  let (n, rest) ← readFixed 2 s
  if n ≤ greatest then some rest else none

def startsTime (s : List Char) : Bool :=
  (readFixed 2 s).any fun (_, rest) => rest.head? = some ':'

def skipTime (s : List Char) : Option (List Char) := do
  let s ← expect ':' (← skipPart 23 s)
  let s ← skipPart 60 (← expect ':' (← skipPart 59 s))
  match s with
  | '.' :: rest =>
    let digits := rest.takeWhile Char.isDigit
    if digits.isEmpty then none else some (rest.drop digits.length)
  | _ => some s

def skipOffset : List Char → Option (List Char)
  | c :: rest =>
    if c = 'Z' ∨ c = 'z' then some rest
    else if c = '+' ∨ c = '-' then do skipPart 59 (← expect ':' (← skipPart 23 rest))
    else some (c :: rest)
  | [] => some []

def skipTimeOfDate : List Char → Option (List Char)
  | c :: rest =>
    if (c = 'T' ∨ c = 't' ∨ c = ' ') ∧ startsTime rest then do skipOffset (← skipTime rest)
    else some (c :: rest)
  | [] => some []

def skipDate (s : List Char) : Option (List Char) := do
  let (year, s) ← readFixed 4 s
  let (month, s) ← readFixed 2 (← expect '-' s)
  let (day, s) ← readFixed 2 (← expect '-' s)
  let _ ← Date.ofParts year month day
  skipTimeOfDate s

def startsDate (s : List Char) : Bool :=
  (readFixed 4 s).any fun (_, rest) => rest.head? = some '-'

def ofTime (text : List Char) : Json := .object [("time", .text (String.ofList text))]

def readScalar : Reader Json
  | 't' :: 'r' :: 'u' :: 'e' :: rest => some (.bool true, rest)
  | 'f' :: 'a' :: 'l' :: 's' :: 'e' :: rest => some (.bool false, rest)
  | s =>
    let timed (rest : List Char) : Json × List Char :=
      (ofTime (s.take (s.length - rest.length)), rest)
    if startsDate s then (skipDate s).map timed
    else if startsTime s then (skipTime s).map timed
    else readNumber s

end Toml
end Repertory
