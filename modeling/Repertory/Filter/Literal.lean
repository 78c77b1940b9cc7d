import Repertory.Filter.Basic

/-!
# Literals

A literal in filter text has the type of the field that it is compared with.
-/

namespace Repertory
namespace FieldKind

/-- The value that a literal of this kind stands for. The words of a choice are taken in any case
of letters and become the declared ones. -/
def literal (kind : FieldKind) (raw : String) : Option Value :=
  match kind with
  | .int | .intList => (Number.readSigned raw).map .int
  | .float => (Binary64.read raw).map .float
  | .bool =>
    let word := Text.asciiLower raw
    if word = "true" then some (.bool true)
    else if word = "false" then some (.bool false)
    else none
  | .date => (Date.read raw).map .date
  | .uuid => (Uuid.read raw).map .uuid
  | .choice words => (words.find? fun w => Text.sameName w raw).map .text
  | .text | .textList => some (.text raw)

end FieldKind
end Repertory
