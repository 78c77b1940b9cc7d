import Repertory.Json.Codec
import Repertory.Resource

/-!
# Collections
-/

namespace Repertory
namespace Catalog

structure Collection where
  id : Int64
  slug : String
  name : String
  overview : Option String
  deriving DecidableEq

namespace Collection

def idField : Field Collection := ⟨"id", "id", .int, false, fun c => .int c.id⟩
def slugField : Field Collection := ⟨"slug", "slug", .text, false, fun c => .text c.slug⟩
def nameField : Field Collection := ⟨"name", "name", .text, false, fun c => .text c.name⟩

def overviewField : Field Collection :=
  ⟨"overview", "overview", .text, true, fun c => .ofOption .text c.overview⟩

def schema : Schema Collection where
  id := idField
  slug := slugField
  fields := [idField, slugField, nameField, overviewField]
  relations := []
  defaultSort := [(nameField, false)]
  search := [nameField]

instance : Resource Collection Int64 where
  kind := "Collection"
  id := Collection.id
  slug := Collection.slug
  setId i c := { c with id := i }
  schema := schema

def decode (j : Json) : Option Collection := do
  let fields ← j.asRecord ["id", "slug", "name"] ["overview"]
  return {
    id := ← Json.optional 0 Json.asSigned "id" fields
    slug := ← Json.required Json.asText "slug" fields
    name := ← Json.required Json.asText "name" fields
    overview := ← Json.nullable Json.asText "overview" fields }

def encode (c : Collection) : Json :=
  .ofEntries [
    ("id", some (.ofSigned c.id)), ("slug", some (.text c.slug)), ("name", some (.text c.name)),
    ("overview", c.overview.map .text)]

instance : JsonCodec Collection := ⟨decode, encode⟩

end Collection
end Catalog
end Repertory
