/-!
# Blank characters and trimming

Query text is separated by the characters of the standard's `White_Space` property, which is wider
than the blanks of ASCII: a no-break space or an ideographic space separates two words as well as
a plain one does.
-/

namespace Repertory
namespace Text

def isBlank (c : Char) : Bool :=
  let n := c.toNat
  (9 ≤ n && n ≤ 13) || n == 0x20 || n == 0x85 || n == 0xA0 || n == 0x1680 ||
    (0x2000 ≤ n && n ≤ 0x200A) || n == 0x2028 || n == 0x2029 || n == 0x202F || n == 0x205F ||
    n == 0x3000

theorem isBlank_of_isWhitespace {c : Char} (h : c.isWhitespace = true) : isBlank c = true := by
  simp only [Char.isWhitespace, Bool.or_eq_true, decide_eq_true_eq] at h
  rcases h with ((rfl | rfl) | rfl) | rfl <;> decide

def dropBlank (s : List Char) : List Char :=
  s.dropWhile isBlank

def trimBlank (s : List Char) : List Char :=
  (dropBlank (dropBlank s).reverse).reverse

def trim (s : String) : String :=
  String.ofList (trimBlank s.toList)

def isBlankText (s : String) : Bool :=
  s.toList.all isBlank

end Text
end Repertory
