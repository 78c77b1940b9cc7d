import Repertory.Json.Codec
import Repertory.Resource

/-!
# Studios
-/

namespace Repertory
namespace Catalog

structure Studio where
  id : Int64
  slug : String
  name : String
  deriving DecidableEq

namespace Studio

def idField : Field Studio := ⟨"id", "id", .int, false, fun s => .int s.id⟩
def slugField : Field Studio := ⟨"slug", "slug", .text, false, fun s => .text s.slug⟩
def nameField : Field Studio := ⟨"name", "name", .text, false, fun s => .text s.name⟩

def schema : Schema Studio where
  id := idField
  slug := slugField
  fields := [idField, slugField, nameField]
  relations := []
  defaultSort := [(nameField, false)]
  search := [nameField]

instance : Resource Studio Int64 where
  kind := "Studio"
  id := Studio.id
  slug := Studio.slug
  setId i s := { s with id := i }
  schema := schema

def decode (j : Json) : Option Studio := do
  let fields ← j.asRecord ["id", "slug", "name"] []
  return {
    id := ← Json.optional 0 Json.asSigned "id" fields
    slug := ← Json.required Json.asText "slug" fields
    name := ← Json.required Json.asText "name" fields }

def encode (s : Studio) : Json :=
  .object [("id", .ofSigned s.id), ("slug", .text s.slug), ("name", .text s.name)]

instance : JsonCodec Studio := ⟨decode, encode⟩

end Studio
end Catalog
end Repertory
