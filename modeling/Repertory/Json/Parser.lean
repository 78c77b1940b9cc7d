import Repertory.Json.Number
import Repertory.Uuid

/-!
# Reading JSON text

The reader follows the grammar of the format strictly. What it reads is a draft first: whether every
part is a value is another question, since nobody asks it of a part that is not wanted.
-/

namespace Repertory
namespace Json

def isSpace (c : Char) : Bool :=
  c = ' ' || c = '\n' || c = '\t' || c = '\r'

def skipSpace (s : List Char) : List Char := s.dropWhile isSpace

def readHex4 (s : List Char) : Option (Nat × List Char) :=
  let digits := s.take 4
  if digits.length = 4 then (Uuid.hexNumber 0 digits).map fun n => (n, s.drop 4) else none

def readLow (s : List Char) : Option (Nat × List Char) :=
  match s with
  | '\\' :: 'u' :: rest => (readHex4 rest).filter fun (low, _) => 0xDC00 ≤ low && low < 0xE000
  | _ => none

/-- The character behind `\u`, and the rest. A character beyond the first plane is written as two
surrogates; a surrogate in any other place is no character. -/
def readUnicode (s : List Char) : Option (Option Char × List Char) := do
  let (unit, s) ← readHex4 s
  if 0xD800 ≤ unit ∧ unit < 0xDC00 then
    match readLow s with
    | some (low, s) =>
      return (some (Char.ofNat (0x10000 + (unit - 0xD800) * 0x400 + (low - 0xDC00))), s)
    | none => return (none, s)
  else if 0xDC00 ≤ unit ∧ unit < 0xE000 then return (none, s)
  else return (some (Char.ofNat unit), s)

def readEscape (s : List Char) : Option (Option Char × List Char) :=
  match s with
  | 'u' :: rest => readUnicode rest
  | 'n' :: rest => some ('\n', rest)
  | 't' :: rest => some ('\t', rest)
  | 'r' :: rest => some ('\r', rest)
  | 'b' :: rest => some ('\x08', rest)
  | 'f' :: rest => some ('\x0c', rest)
  | c :: rest => if c = '"' ∨ c = '\\' ∨ c = '/' then some (c, rest) else none
  | [] => none

/-- Reads up to the closing quote; the characters read so far come last first. Between the quotes
may be something that is no text. The number bounds the characters. -/
def readString : Nat → Option (List Char) → List Char → Option (Option String × List Char)
  | 0, _, _ => none
  | _, _, [] => none
  | n + 1, acc, c :: rest =>
    if c = '"' then some (acc.map fun chars => String.ofList chars.reverse, rest)
    else if c = '\\' then
      match readEscape rest with
      | some (d, rest) => readString n (do return (← d) :: (← acc)) rest
      | none => none
    else if c.toNat < 0x20 then none
    else readString n (acc.map (c :: ·)) rest

mutual

/-- Reads a value. The number bounds the steps. -/
def readValue : Nat → List Char → Option (Json × List Char)
  | 0, _ => none
  | n + 1, s =>
    match skipSpace s with
    | '"' :: rest =>
      (readString n (some []) rest).map fun (t, rest) => ((t.map text).getD unusable, rest)
    | '[' :: rest =>
      match skipSpace rest with
      | ']' :: rest => some (array [], rest)
      | rest => (readItems n [] rest).map fun (items, rest) => (array items, rest)
    | '\x7b' :: rest =>
      match skipSpace rest with
      | '\x7d' :: rest => some (object [], rest)
      | rest =>
        (readEntries n (some []) rest).map fun (entries, rest) =>
          ((entries.map fun entries => object entries.reverse).getD unusable, rest)
    | 'n' :: 'u' :: 'l' :: 'l' :: rest => some (null, rest)
    | 't' :: 'r' :: 'u' :: 'e' :: rest => some (bool true, rest)
    | 'f' :: 'a' :: 'l' :: 's' :: 'e' :: rest => some (bool false, rest)
    | rest => readNumber rest

def readItems : Nat → List Json → List Char → Option (List Json × List Char)
  | 0, _, _ => none
  | n + 1, acc, s =>
    match readValue n s with
    | none => none
    | some (item, rest) =>
      match skipSpace rest with
      | ',' :: rest => readItems n (item :: acc) rest
      | ']' :: rest => some ((item :: acc).reverse, rest)
      | _ => none

/-- Reads the entries of an object up to the closing brace; those read so far come last first. A key
may be no text. -/
def readEntries : Nat → Option (List (String × Json)) → List Char →
    Option (Option (List (String × Json)) × List Char)
  | 0, _, _ => none
  | n + 1, acc, s =>
    match skipSpace s with
    | '"' :: rest =>
      match readString n (some []) rest with
      | none => none
      | some (key, rest) =>
        match skipSpace rest with
        | ':' :: rest =>
          match readValue n rest with
          | none => none
          | some (value, rest) =>
            let acc : Option (List (String × Json)) := do return (← key, value) :: (← acc)
            match skipSpace rest with
            | ',' :: rest => readEntries n acc rest
            | '\x7d' :: rest => some (acc, rest)
            | _ => none
        | _ => none
    | _ => none

end

def parseDraft (s : String) : Option Json :=
  let chars := s.toList
  match readValue (2 * chars.length + 2) chars with
  | some (value, rest) => if (skipSpace rest).isEmpty then some value else none
  | none => none

def parse (s : String) : Option Json := (parseDraft s).bind settled

end Json
end Repertory
