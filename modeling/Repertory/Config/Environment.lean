import Repertory.Text.Blank
import Repertory.Text.Case
import Repertory.Text.Split
import Repertory.Toml.Scalar

/-!
# Settings from environment variables

The name of a variable gives the place of a setting: `RESQ_ENGINE__SEARCH_LIMIT` is the setting
`search_limit` in the section `engine`. The value is a number, a truth value, a string in quotes, a
word, or an array or table of such values. A value that is none of these is text as it stands.

A truth value is taken before anything else, wherever its letters begin a value; nothing but blanks
may then stand before what ends the value.
-/

namespace Repertory
namespace Environment

open Toml (Reader)

abbrev Variables := List (String × String)

def settingPrefix : String := "resq_"

/-! ## Values -/

def isSpace (c : Char) : Bool :=
  c = ' ' || c = '\t' || c = '\n' || c = '\r' || c = '\x0c'

def skipSpace (s : List Char) : List Char := s.dropWhile isSpace

def isDelimiter (c : Char) : Bool :=
  c = ',' || c = '[' || c = ']' || c = '\x7b' || c = '\x7d'

def ofWord (word : String) : Json :=
  let number := if word.toList.contains '.' then Binary64.read word else none
  match number, Number.readUnsigned word, Number.readSigned word with
  | some x, _, _ => .float x
  | none, some n, _ => .ofUnsigned n
  | none, none, some n => .ofSigned n
  | none, none, none => .text word

def takeBytes : Nat → List Char → List Char
  | _, [] => []
  | n, c :: rest => if c.utf8Size ≤ n then c :: takeBytes (n - c.utf8Size) rest else []

/-- Reads a string behind its opening quote. Of what stands before the first escape, only as many
bytes are kept as it has characters; a string without escapes is kept whole. -/
def readString : Reader String := fun s => do
  let (text, rest) ← Toml.readBody .basic s
  let plain := s.takeWhile fun c => c ≠ '"' && c ≠ '\\'
  let kept := if s[plain.length]? = some '\\' then takeBytes plain.length plain else plain
  return (String.ofList (kept ++ text.toList.drop plain.length), rest)

def readName : Reader String
  | '"' :: rest => readString rest
  | s =>
    let word := s.takeWhile Toml.isKeyChar
    if word.isEmpty then none else some (String.ofList word, s.drop word.length)

mutual

def readValue : Nat → Reader Json
  | 0, _ => none
  | n + 1, s =>
    let value : Option (Json × List Char) :=
      match skipSpace s with
      | 't' :: 'r' :: 'u' :: 'e' :: rest => some (.bool true, rest)
      | 'f' :: 'a' :: 'l' :: 's' :: 'e' :: rest => some (.bool false, rest)
      | '"' :: rest => (readString rest).map fun (t, rest) => (.text t, rest)
      | '[' :: rest => (readItems n [] rest).map fun (items, rest) => (.array items, rest)
      | '\x7b' :: rest => (readEntries n [] rest).map fun (entries, rest) => (.object entries, rest)
      | '\x27' :: c :: '\x27' :: rest => some (.text (String.ofList [c]), rest)
      | '\x27' :: _ => none
      | s =>
        let word := s.takeWhile fun c => !isDelimiter c
        some (ofWord (Text.trim (String.ofList word)), s.drop word.length)
    value.map fun (j, rest) => (j, skipSpace rest)

def readItems : Nat → List Json → Reader (List Json)
  | 0, _, _ => none
  | _, acc, ']' :: rest => some (acc.reverse, rest)
  | n + 1, acc, s =>
    match readValue n s with
    | some (item, ',' :: rest) => readItems n (item :: acc) rest
    | some (item, ']' :: rest) => some ((item :: acc).reverse, rest)
    | _ => none

def readEntries : Nat → List (String × Json) → Reader (List (String × Json))
  | 0, _, _ => none
  | _, acc, '\x7d' :: rest => some (acc, rest)
  | n + 1, acc, s =>
    match readName (skipSpace s) with
    | none => none
    | some (name, rest) =>
      match skipSpace rest with
      | '=' :: rest =>
        match readValue n rest with
        | some (value, ',' :: rest) => readEntries n (Json.setEntry name value acc) rest
        | some (value, '\x7d' :: rest) => some (Json.setEntry name value acc, rest)
        | _ => none
      | _ => none

end

def parseValue (text : String) : Json :=
  let s := text.toList
  match readValue (2 * s.length + 2) s with
  | some (j, []) => j
  | _ => .text text

/-! ## Names -/

def pointed : List Char → List Char
  | '_' :: '_' :: rest => '.' :: pointed rest
  | c :: rest => c :: pointed rest
  | [] => []

/-- The place of the setting that a variable gives: the sections from the outermost one, and the
name. Variables with other names give no setting, nor do those with an empty part. -/
def place (name : String) : Option (List String) :=
  let name := Text.asciiLower (Text.trim name)
  if settingPrefix.toList.isPrefixOf name.toList then
    let name := Text.trimBlank (pointed (name.toList.drop settingPrefix.length))
    let parts := (Text.splitAt '.' name).map String.ofList
    if parts.any String.isEmpty then none else some parts
  else none

def nested (parts : List String) (value : Json) : Json :=
  parts.foldr (fun part inner => .object [(part, inner)]) value

/-- The settings of variables; later ones are laid over earlier ones. -/
def settings (env : Variables) : Json :=
  env.foldl
    (fun below (name, text) =>
      match place name with
      | some parts => below.overlay (nested parts (parseValue text))
      | none => below)
    (.object [])

end Environment
end Repertory
