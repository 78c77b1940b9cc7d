import Repertory.Page

/-!
# Engine settings
-/

namespace Repertory

structure Engine where
  defaultPageSize : Nat := Repertory.defaultPageSize
  maxPageSize : Nat := 500
  searchLimit : Nat := 20
  deriving DecidableEq

namespace Engine

/-- The size of the page that a caller gets. Zero stays: it asks for an empty page. -/
def clampLimit (engine : Engine) (requested : Option Nat) : Nat :=
  min (requested.getD engine.defaultPageSize) engine.maxPageSize

def fieldNames : List String := ["default_page_size", "max_page_size", "search_limit"]

def decode (j : Json) : Option Engine := do
  let fields ← j.asRecord [] fieldNames
  let size (fallback : Nat) (name : String) : Option Nat :=
    Json.optional fallback (fun j => (Json.asUnsigned j).map UInt64.toNat) name fields
  return {
    defaultPageSize := ← size Repertory.defaultPageSize "default_page_size"
    maxPageSize := ← size 500 "max_page_size"
    searchLimit := ← size 20 "search_limit" }

def encode (engine : Engine) : Json :=
  .object [
    ("default_page_size", .int engine.defaultPageSize), ("max_page_size", .int engine.maxPageSize),
    ("search_limit", .int engine.searchLimit)]

end Engine
end Repertory
