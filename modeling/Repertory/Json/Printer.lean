import Repertory.Json.Basic
import Repertory.Number.FloatText
import Repertory.Uuid

/-!
# Writing JSON text

Values are written without blanks (`compact`), or with each item on a line of its own (`pretty`).
A floating-point number always shows that it is one: by a point or by an exponent. What is no
number, or no value at all, is written as null.
-/

namespace Repertory
namespace Json

def escape (c : Char) : List Char :=
  if c = '"' then ['\\', '"']
  else if c = '\\' then ['\\', '\\']
  else if c = '\n' then ['\\', 'n']
  else if c = '\r' then ['\\', 'r']
  else if c = '\t' then ['\\', 't']
  else if c = '\x08' then ['\\', 'b']
  else if c = '\x0c' then ['\\', 'f']
  else if c.toNat < 0x20 then '\\' :: 'u' :: Uuid.hexDigits 4 c.toNat
  else [c]

def quote (s : String) : String :=
  "\"" ++ String.ofList (s.toList.flatMap escape) ++ "\""

/-- The fewest digits that read back, positional from `0.00001` up to sixteen digits before the
point and with an exponent otherwise. A tie goes to the even digit. -/
def floatText (x : Binary64) : String :=
  if !x.isFinite then "null"
  else
    let sign := if x.negative then ['-'] else []
    let (digits, exponent) := (x.shortest .toEven).normal
    let point := exponent + digits.length
    let body :=
      if x.magnitude = 0 then ['0', '.', '0']
      else if 0 ≤ exponent ∧ point ≤ 16 then Binary64.positional digits point ++ ['.', '0']
      else if -5 < point ∧ point ≤ 16 then Binary64.positional digits point
      else
        let fraction := if digits.length = 1 then [] else '.' :: digits.drop 1
        digits.take 1 ++ fraction ++ 'e' :: Number.intText (point - 1)
    String.ofList (sign ++ body)

mutual

def compact : Json → String
  | null | unusable => "null"
  | bool b => if b then "true" else "false"
  | int n => String.ofList (Number.intText n)
  | float x => floatText x
  | text s => quote s
  | array items => "[" ++ compactItems items ++ "]"
  | object entries => "\x7b" ++ compactEntries entries ++ "\x7d"

def compactItems : List Json → String
  | [] => ""
  | [item] => compact item
  | item :: rest => compact item ++ "," ++ compactItems rest

def compactEntries : List (String × Json) → String
  | [] => ""
  | [(key, value)] => quote key ++ ":" ++ compact value
  | (key, value) :: rest => quote key ++ ":" ++ compact value ++ "," ++ compactEntries rest

end

def newline (depth : Nat) : String :=
  "\n" ++ String.ofList (List.replicate (2 * depth) ' ')

mutual

def prettyAt (depth : Nat) : Json → String
  | array [] => "[]"
  | object [] => "\x7b\x7d"
  | array items => "[" ++ prettyItems (depth + 1) items ++ newline depth ++ "]"
  | object entries => "\x7b" ++ prettyEntries (depth + 1) entries ++ newline depth ++ "\x7d"
  | null | unusable => "null"
  | bool b => if b then "true" else "false"
  | int n => String.ofList (Number.intText n)
  | float x => floatText x
  | text s => quote s

def prettyItems (depth : Nat) : List Json → String
  | [] => ""
  | [item] => newline depth ++ prettyAt depth item
  | item :: rest => newline depth ++ prettyAt depth item ++ "," ++ prettyItems depth rest

def prettyEntries (depth : Nat) : List (String × Json) → String
  | [] => ""
  | [(key, value)] => newline depth ++ quote key ++ ": " ++ prettyAt depth value
  | (key, value) :: rest =>
    newline depth ++ quote key ++ ": " ++ prettyAt depth value ++ "," ++ prettyEntries depth rest

end

def pretty (j : Json) : String := prettyAt 0 j

end Json
end Repertory
