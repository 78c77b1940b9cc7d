import Repertory.Filter.Basic
import Repertory.Json.Codec
import Repertory.Text.Blank

/-!
# Identifiers

A row is addressed by its id or by its slug. A text that reads as an id is an id; any other text
that is not blank is a slug, taken as it is. In JSON the form of the value decides: what is an id of
the type is an id, and any text that is not one is a slug.
-/

namespace Repertory

inductive Identifier (ι : Type) where
  | id (id : ι)
  | slug (slug : String)

namespace Identifier

variable {α ι : Type}

def bySlug (slug : String) : Except QueryError (Identifier ι) :=
  if Text.isBlankText slug then .error .emptySlug else .ok (.slug slug)

variable [Identity ι]

def read (text : String) : Except QueryError (Identifier ι) :=
  match Identity.read text with
  | some i => .ok (.id i)
  | none => bySlug text

def display : Identifier ι → String
  | id i => Identity.text i
  | slug s => s

/-- The rows whose fields for an id and a slug hold the identifier. They may be the fields of
another type's id, as in a row that points to its parent. -/
def matching (idField slugField : Field α) : Identifier ι → Filter α ι
  | id i => .cmp .eq idField (Identity.toValue i)
  | slug s => .cmp .eq slugField (.text s)

variable [Resource α ι]

def filter (x : Identifier ι) : Filter α ι :=
  x.matching (Resource.schema (α := α)).id (Resource.schema (α := α)).slug

def addresses (row : α) : Identifier ι → Bool
  | id i => Resource.id row = i
  | slug s => Resource.slug row == s

section

variable [JsonCodec ι]

def decode (j : Json) : Option (Identifier ι) :=
  match JsonCodec.decode j with
  | some i => some (.id i)
  | none => (Json.asText j).map .slug

def encode : Identifier ι → Json
  | id i => JsonCodec.encode i
  | slug s => .text s

end

end Identifier
end Repertory
