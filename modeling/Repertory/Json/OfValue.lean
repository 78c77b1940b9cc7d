import Repertory.Json.Basic
import Repertory.Value

/-!
# Field values as JSON

Dates and identifiers are written as text. JSON has no word for what is no number, so that is null.
-/

namespace Repertory
namespace Value

mutual

def encode : Value → Json
  | null => .null
  | bool b => .bool b
  | int n => .ofSigned n
  | float x => if x.isFinite then .float x else .null
  | text s => .text s
  | date d => .text d.text
  | uuid u => .text u.text
  | list items => .array (encodeList items)

def encodeList : List Value → List Json
  | [] => []
  | item :: rest => encode item :: encodeList rest

end

end Value
end Repertory
