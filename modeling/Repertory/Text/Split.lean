import Repertory.Text.Blank

/-!
# Splitting text at a character
-/

namespace Repertory
namespace Text

/-- The parts of a text between the occurrences of `c`; a text without it is one part. -/
def splitAt (c : Char) : List Char → List (List Char)
  | [] => [[]]
  | d :: rest =>
    if d = c then [] :: splitAt c rest
    else
      match splitAt c rest with
      | [] => [[d]]
      | part :: parts => (d :: part) :: parts

/-- The parts around the first occurrence of `c`. -/
def splitFirst (c : Char) (s : List Char) : List Char × Option (List Char) :=
  match s.dropWhile (· != c) with
  | [] => (s, none)
  | _ :: rest => (s.takeWhile (· != c), some rest)

/-- The parts of a list in text, without the blanks around them. -/
def listParts (s : String) : List String :=
  (splitAt ',' s.toList).map fun part => String.ofList (trimBlank part)

end Text
end Repertory
