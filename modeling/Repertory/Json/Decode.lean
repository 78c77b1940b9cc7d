import Repertory.Json.Basic
import Repertory.Uuid
import Repertory.Date

/-!
# Typed values out of JSON

A decoder is strict about types: an integer field takes no text, and null is only for what may be
missing. A record is written as an object, whose unknown keys are ignored, or as the array of its
fields in order, whose last ones may be left out. Decoders also take drafts; what is ignored need
not be a value then.
-/

namespace Repertory
namespace Json

abbrev Decoder (α : Type) := Json → Option α

def asBool : Decoder Bool
  | bool b => some b
  | _ => none

def asText : Decoder String
  | text s => some s
  | _ => none

def asSigned : Decoder Int64
  | int n => Number.signed? n
  | _ => none

def asUnsigned : Decoder UInt64
  | int n => Number.unsigned? n
  | _ => none

def asFloat : Decoder Binary64
  | int n => some (Binary64.ofInt n)
  | float x => some x
  | _ => none

def asDate : Decoder Date
  | text s => Date.readLenient s
  | _ => none

def asUuid : Decoder Uuid
  | text s => Uuid.read s
  | _ => none

def asList {α : Type} (item : Decoder α) : Decoder (List α)
  | array items => items.mapM item
  | _ => none

def asOption {α : Type} (value : Decoder α) : Decoder (Option α)
  | null => some none
  | j => (value j).map some

/-- One of the words of an enumeration, written as text, or as the key of an object that has
nothing but null under it. -/
def asWord {α : Type} (word : String → Option α) : Decoder α
  | text s => word s
  | object [(s, null)] => word s
  | _ => none

/-- The fields of a record by name; no field is given twice. An array holds all the leading ones; it
may end anywhere among the trailing ones. -/
def asRecord (leading trailing : List String) (j : Json) : Option (List (String × Json)) :=
  let names := leading ++ trailing
  match j with
  | object entries =>
    if names.all fun name => entries.countP (fun (key, _) => key = name) ≤ 1 then some entries
    else none
  | array items =>
    if leading.length ≤ items.length ∧ items.length ≤ names.length then some (names.zip items)
    else none
  | _ => none

def required {α : Type} (decoder : Decoder α) (name : String) (fields : List (String × Json)) :
    Option α :=
  (fields.lookup name).bind decoder

def optional {α : Type} (fallback : α) (decoder : Decoder α) (name : String)
    (fields : List (String × Json)) : Option α :=
  match fields.lookup name with
  | some j => decoder j
  | none => some fallback

def nullable {α : Type} (decoder : Decoder α) (name : String) (fields : List (String × Json)) :
    Option (Option α) :=
  optional none (asOption decoder) name fields

end Json
end Repertory
