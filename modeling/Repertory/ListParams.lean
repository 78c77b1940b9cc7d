import Repertory.Engine
import Repertory.Filter.Parser
import Repertory.Repository.Basic

/-!
# List requests in text

A list request comes with its filter, sorting, relations and cursor as text. All of it is read
before anything is done, and the first fault found, in that order, is the answer.
-/

namespace Repertory

structure ListParams where
  filter : Option String := none
  sort : Option String := none
  relations : Option String := none
  limit : Option Nat := none
  afterId : Option String := none
  backwards : Bool := false

namespace ListParams

variable {σ α ι : Type}

def readCursor [Identity ι] [Resource α ι] (text : Option String) :
    Except QueryError (Option ι) :=
  match text.map Text.trim with
  | none => .ok none
  | some trimmed =>
    if trimmed.isEmpty then .ok none
    else
      match Identity.read trimmed with
      | some id => .ok (some id)
      | none => .error (.invalidValue "afterId" trimmed (.idOf (Resource.kind α)))

/-- Reads a request for rows of `α`. The seeds are for the random terms of the sorting. -/
def resolve [Identity ι] [Resource α ι] (known : List (Relation σ α)) (engine : Engine)
    (seeds : Nat → UInt64) (params : ListParams) : Except QueryError (ListQuery σ α ι) := do
  let filter ← Filter.parse? params.filter
  let sorting ← Sorting.read seeds params.sort
  let relations ← Include.read known params.relations
  let afterId ← readCursor (α := α) params.afterId
  let limit := engine.clampLimit params.limit
  return {
    filter, sorting, relations
    pagination := { limit, afterId, backwards := params.backwards } }

def decode (j : Json) : Option ListParams := do
  let fields ← j.asRecord ["filter", "sort", "include", "limit", "afterId"] ["reverse"]
  return {
    filter := ← Json.nullable Json.asText "filter" fields
    sort := ← Json.nullable Json.asText "sort" fields
    relations := ← Json.nullable Json.asText "include" fields
    limit := (← Json.nullable Json.asUnsigned "limit" fields).map UInt64.toNat
    afterId := ← Json.nullable Json.asText "afterId" fields
    backwards := ← Json.optional false Json.asBool "reverse" fields }

def encode (p : ListParams) : Json :=
  .ofEntries [
    ("filter", p.filter.map .text), ("sort", p.sort.map .text),
    ("include", p.relations.map .text), ("limit", p.limit.map fun n => .int n),
    ("afterId", p.afterId.map .text), ("reverse", some (.bool p.backwards))]

end ListParams
end Repertory
