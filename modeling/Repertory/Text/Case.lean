import Repertory.Text.CaseTables

/-!
# Letter case

Keywords and names compare without regard to the case of ASCII letters (`sameName`). A free-text
search compares without regard to case in every script (`lowercase`), which may change the length
of a text and looks at the letters around a capital sigma.
-/

namespace Repertory
namespace Text

/-- The text with its ASCII capitals made small; every other character stays. -/
def asciiLower (s : String) : String :=
  String.ofList (s.toList.map Char.toLower)

def sameName (a b : String) : Bool :=
  asciiLower a == asciiLower b

def inRanges (ranges : List (Nat × Nat)) (c : Char) : Bool :=
  ranges.any fun r => r.1 ≤ c.toNat && c.toNat ≤ r.2

def isCased : Char → Bool := inRanges casedRanges

def isCaseIgnorable : Char → Bool := inRanges caseIgnorableRanges

def lowercaseLetter (c : Char) : Char :=
  if c.toNat < 0x80 then c.toLower
  else
    match lowercaseRuns.find? fun r =>
        r.1 ≤ c.toNat && c.toNat ≤ r.2.1 && (c.toNat - r.1) % r.2.2.1 == 0 with
    | some r => Char.ofNat (c.toNat + r.2.2.2).toNat
    | none => c

def startsCased (s : List Char) : Bool :=
  match s.dropWhile isCaseIgnorable with
  | c :: _ => isCased c
  | [] => false

/-- The lower-case form of one character, with the text before it (nearest character first) and
after it. A capital sigma at the end of a word takes its final form, and the dotted capital `I`
keeps its dot as a mark of its own. -/
def lowercaseAt (before : List Char) (c : Char) (after : List Char) : List Char :=
  if c = 'Σ' then
    if startsCased before && !startsCased after then ['ς'] else ['σ']
  else if c = 'İ' then ['i', '\u0307']
  else [lowercaseLetter c]

/-- Lower-cases a text, given what stands before it, nearest character first. -/
def lowercaseFrom : List Char → List Char → List Char
  | _, [] => []
  | before, c :: after => lowercaseAt before c after ++ lowercaseFrom (c :: before) after

def lowercase (s : String) : String :=
  String.ofList (lowercaseFrom [] s.toList)

def occursIn (needle : List Char) : List Char → Bool
  | [] => needle.isEmpty
  | c :: rest => needle.isPrefixOf (c :: rest) || occursIn needle rest

def contains (text needle : String) : Bool :=
  occursIn needle.toList text.toList

end Text
end Repertory
