import Repertory.Json.Decode

/-!
# Types with a JSON form
-/

namespace Repertory

class JsonCodec (α : Type) where
  decode : Json.Decoder α
  encode : α → Json

namespace JsonCodec

instance : JsonCodec Int64 where
  decode := Json.asSigned
  encode := Json.ofSigned

instance : JsonCodec Uuid where
  decode := Json.asUuid
  encode u := .text u.text

end JsonCodec
end Repertory
