import Repertory.Catalog.Collection
import Repertory.Catalog.Show

/-!
# Library items

The library lists shows and collections together. An item keeps the id of a show and the negated id
of a collection.
-/

namespace Repertory
namespace Catalog

inductive ItemKind where
  | ofShow | ofCollection
  deriving DecidableEq

namespace ItemKind

def word : ItemKind → String
  | ofShow => "show"
  | ofCollection => "collection"

def words : List String := [ofShow, ofCollection].map word

def ofWord (s : String) : Option ItemKind :=
  [ofShow, ofCollection].find? fun kind => kind.word == s

end ItemKind

structure LibraryItem where
  id : Int64
  slug : String
  name : String
  kind : ItemKind
  overview : Option String
  status : Option Status
  airDate : Option Date
  deriving DecidableEq

namespace LibraryItem

def ofShow (s : Show) : LibraryItem where
  id := s.id
  slug := s.slug
  name := s.name
  kind := .ofShow
  overview := s.overview
  status := some s.status
  airDate := s.airDate

def ofCollection (c : Collection) : LibraryItem where
  id := -c.id
  slug := c.slug
  name := c.name
  kind := .ofCollection
  overview := c.overview
  status := none
  airDate := none

def sourceId (i : LibraryItem) : Int64 :=
  if i.id < 0 then -i.id else i.id

def idField : Field LibraryItem := ⟨"id", "id", .int, false, fun i => .int i.id⟩
def slugField : Field LibraryItem := ⟨"slug", "slug", .text, false, fun i => .text i.slug⟩
def nameField : Field LibraryItem := ⟨"name", "name", .text, false, fun i => .text i.name⟩

def kindField : Field LibraryItem :=
  ⟨"kind", "kind", .choice ItemKind.words, false, fun i => .text i.kind.word⟩

def statusField : Field LibraryItem :=
  ⟨"status", "status", .choice Status.words, true,
    fun i => .ofOption (fun s => .text s.word) i.status⟩

def airDateField : Field LibraryItem :=
  ⟨"airDate", "air_date", .date, true, fun i => .ofOption .date i.airDate⟩

def schema : Schema LibraryItem where
  id := idField
  slug := slugField
  fields := [idField, slugField, nameField, kindField, statusField, airDateField]
  relations := []
  defaultSort := [(nameField, false)]
  search := [nameField, slugField]

instance : Resource LibraryItem Int64 where
  kind := "LibraryItem"
  id := LibraryItem.id
  slug := LibraryItem.slug
  setId i item := { item with id := i }
  schema := schema

def decode (j : Json) : Option LibraryItem := do
  let fields ← j.asRecord ["id", "slug", "name", "kind"] ["overview", "status", "airDate"]
  return {
    id := ← Json.required Json.asSigned "id" fields
    slug := ← Json.required Json.asText "slug" fields
    name := ← Json.required Json.asText "name" fields
    kind := ← Json.required (Json.asWord ItemKind.ofWord) "kind" fields
    overview := ← Json.nullable Json.asText "overview" fields
    status := ← Json.nullable (Json.asWord Status.ofWord) "status" fields
    airDate := ← Json.nullable Json.asDate "airDate" fields }

def encode (i : LibraryItem) : Json :=
  .ofEntries [
    ("id", some (.ofSigned i.id)), ("slug", some (.text i.slug)), ("name", some (.text i.name)),
    ("kind", some (.text i.kind.word)), ("overview", i.overview.map .text),
    ("status", i.status.map fun s => .text s.word),
    ("airDate", i.airDate.map fun d => .text d.text)]

instance : JsonCodec LibraryItem := ⟨decode, encode⟩

end LibraryItem
end Catalog
end Repertory
