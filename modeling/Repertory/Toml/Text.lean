import Repertory.Uuid

/-!
# Characters, strings and keys of TOML

Strings come in four forms. Those in double quotes have escapes, those in single quotes do not;
those in three quotes may run over several lines, the others may not.
-/

namespace Repertory
namespace Toml

abbrev Reader (β : Type) := List Char → Option (β × List Char)

def isGap (c : Char) : Bool := c = ' ' || c = '\t'

def isPlain (c : Char) : Bool := c = '\t' || 0x20 ≤ c.toNat && c.toNat ≠ 0x7F

def skipGap (s : List Char) : List Char := s.dropWhile isGap

def readNewline : List Char → Option (List Char)
  | '\n' :: rest => some rest
  | '\r' :: '\n' :: rest => some rest
  | _ => none

def skipSpace : List Char → List Char
  | '\r' :: '\n' :: rest => skipSpace rest
  | c :: rest => if isGap c || c = '\n' then skipSpace rest else c :: rest
  | [] => []

/-- What follows blanks, ends of lines and comments, from inside a comment or not. -/
def skipLines (comment : Bool) : List Char → List Char
  | '\r' :: '\n' :: rest => skipLines false rest
  | c :: rest =>
    if c = '\n' then skipLines false rest
    else if comment then if isPlain c then skipLines true rest else c :: rest
    else if isGap c then skipLines false rest
    else if c = '#' then skipLines true rest
    else c :: rest
  | [] => []

/-- What follows a line whose last value has been read: only blanks and a comment may still
come. -/
def readLineEnd (s : List Char) : Option (List Char) :=
  let s :=
    match skipGap s with
    | '#' :: rest => rest.dropWhile isPlain
    | s => s
  if s.isEmpty then some [] else readNewline s

/-! ## Strings -/

def readCode (count : Nat) : Reader Char := fun s => do
  let digits := s.take count
  let n ← if digits.length = count then Uuid.hexNumber 0 digits else none
  if n.isValidChar then some (Char.ofNat n, s.drop count) else none

def readEscape : Reader Char
  | 'b' :: rest => some ('\x08', rest)
  | 't' :: rest => some ('\t', rest)
  | 'n' :: rest => some ('\n', rest)
  | 'f' :: rest => some ('\x0c', rest)
  | 'r' :: rest => some ('\r', rest)
  | 'u' :: rest => readCode 4 rest
  | 'U' :: rest => readCode 8 rest
  | c :: rest => if c = '"' ∨ c = '\\' then some (c, rest) else none
  | [] => none

structure Quoting where
  quote : Char
  escapes : Bool
  lines : Bool

def Quoting.basic : Quoting := ⟨'"', true, false⟩
def Quoting.basicLines : Quoting := ⟨'"', true, true⟩
def Quoting.literal : Quoting := ⟨'\x27', false, false⟩
def Quoting.literalLines : Quoting := ⟨'\x27', false, true⟩

/-- Reads up to the closing quotes; the characters read so far come last first. Before three closing
quotes there may be two more that belong to the string. The number bounds the steps. -/
def readQuoted (q : Quoting) : Nat → List Char → Reader String
  | 0, _, _ => none
  | _, _, [] => none
  | n + 1, acc, c :: rest =>
    if c = q.quote then
      if q.lines then
        let run := (c :: rest).takeWhile (· = q.quote)
        let after := rest.drop (run.length - 1)
        if run.length < 3 then readQuoted q n (run ++ acc) after
        else if run.length ≤ 5 then some (String.ofList (run.drop 3 ++ acc).reverse, after)
        else none
      else some (String.ofList acc.reverse, rest)
    else if q.escapes && c = '\\' then
      match if q.lines then readNewline (skipGap rest) else none with
      | some rest => readQuoted q n acc (skipSpace rest)
      | none =>
        match readEscape rest with
        | some (d, rest) => readQuoted q n (d :: acc) rest
        | none => none
    else
      match if q.lines then readNewline (c :: rest) else none with
      | some rest => readQuoted q n ('\n' :: acc) rest
      | none => if isPlain c then readQuoted q n (c :: acc) rest else none

def readBody (q : Quoting) : Reader String := fun s =>
  let s := if q.lines then (readNewline s).getD s else s
  readQuoted q (s.length + 1) [] s

def readString : Reader String
  | '"' :: '"' :: '"' :: rest => readBody .basicLines rest
  | '"' :: rest => readBody .basic rest
  | '\x27' :: '\x27' :: '\x27' :: rest => readBody .literalLines rest
  | '\x27' :: rest => readBody .literal rest
  | _ => none

/-! ## Keys -/

def isKeyChar (c : Char) : Bool := c.isAlphanum || c = '_' || c = '-'

def readKeyPart : Reader String
  | '"' :: rest => readBody .basic rest
  | '\x27' :: rest => readBody .literal rest
  | s =>
    let word := s.takeWhile isKeyChar
    if word.isEmpty then none else some (String.ofList word, s.drop word.length)

/-- Reads at most so many parts with points between them, and the blanks around them: the parts
before the last, and the last one. -/
def readParts : Nat → Reader (List String × String)
  | 0, _ => none
  | n + 1, s => do
    let (part, rest) ← readKeyPart (skipGap s)
    match skipGap rest with
    | '.' :: rest =>
      let ((path, key), rest) ← readParts n rest
      return ((part :: path, key), rest)
    | rest => return (([], part), rest)

/-- How many parts a key may have, and how deep collections may lie in each other. -/
def maxDepth : Nat := 79

def readKey : Reader (List String × String) := readParts maxDepth

end Toml
end Repertory
