import Repertory.Catalog.Studio

/-!
# Shows
-/

namespace Repertory
namespace Catalog

inductive Status where
  | unknown | finished | airing | planned
  deriving DecidableEq

namespace Status

def word : Status → String
  | unknown => "unknown"
  | finished => "finished"
  | airing => "airing"
  | planned => "planned"

def words : List String := [unknown, finished, airing, planned].map word

def ofWord (s : String) : Option Status :=
  [unknown, finished, airing, planned].find? fun status => status.word == s

end Status

structure Show where
  id : Int64
  slug : String
  name : String
  overview : Option String
  status : Status
  genres : List String
  airDate : Option Date
  rating : Option Binary64
  studioId : Option Int64
  /-- The collections that contain the show; none if nothing was said about them. -/
  collections : Option (List Int64)
  studioRow : Option Studio
  deriving DecidableEq

namespace Show

def isInCollection (s : Show) (id : Int64) : Bool :=
  s.collections.any fun ids => ids.contains id

def isCollected (s : Show) : Bool :=
  s.collections.any fun ids => !ids.isEmpty

def idField : Field Show := ⟨"id", "id", .int, false, fun s => .int s.id⟩
def slugField : Field Show := ⟨"slug", "slug", .text, false, fun s => .text s.slug⟩
def nameField : Field Show := ⟨"name", "name", .text, false, fun s => .text s.name⟩

def statusField : Field Show :=
  ⟨"status", "status", .choice Status.words, false, fun s => .text s.status.word⟩

def genresField : Field Show :=
  ⟨"genres", "genres", .textList, false, fun s => .list (s.genres.map .text)⟩

def airDateField : Field Show :=
  ⟨"airDate", "air_date", .date, true, fun s => .ofOption .date s.airDate⟩

def ratingField : Field Show :=
  ⟨"rating", "rating", .float, true, fun s => .ofOption .float s.rating⟩

def studioIdField : Field Show :=
  ⟨"studioId", "studio_id", .int, true, fun s => .ofOption .int s.studioId⟩

def studioSlot : RelationSlot Show where
  name := "studio"
  isSet s := s.studioId.isSome
  carry s t := { t with studioId := s.studioId, studioRow := s.studioRow }

def collectionsSlot : RelationSlot Show where
  name := "collections"
  isSet s := s.collections.isSome
  carry s t := { t with collections := s.collections }

def schema : Schema Show where
  id := idField
  slug := slugField
  fields := [idField, slugField, nameField, statusField, genresField, airDateField, ratingField,
    studioIdField]
  relations := [studioSlot, collectionsSlot]
  defaultSort := [(nameField, false)]
  search := [nameField, slugField]

instance : Resource Show Int64 where
  kind := "Show"
  id := Show.id
  slug := Show.slug
  setId i s := { s with id := i }
  schema := schema

def decode (j : Json) : Option Show := do
  let fields ← j.asRecord ["id", "slug", "name"] ["overview", "status", "genres", "airDate",
    "rating", "studioId", "collections", "studio"]
  return {
    id := ← Json.optional 0 Json.asSigned "id" fields
    slug := ← Json.required Json.asText "slug" fields
    name := ← Json.required Json.asText "name" fields
    overview := ← Json.nullable Json.asText "overview" fields
    status := ← Json.optional .unknown (Json.asWord Status.ofWord) "status" fields
    genres := ← Json.optional [] (Json.asList Json.asText) "genres" fields
    airDate := ← Json.nullable Json.asDate "airDate" fields
    rating := ← Json.nullable Json.asFloat "rating" fields
    studioId := ← Json.nullable Json.asSigned "studioId" fields
    collections := ← Json.nullable (Json.asList Json.asSigned) "collections" fields
    studioRow := ← Json.nullable Studio.decode "studio" fields }

def encode (s : Show) : Json :=
  .ofEntries [
    ("id", some (.ofSigned s.id)), ("slug", some (.text s.slug)), ("name", some (.text s.name)),
    ("overview", s.overview.map .text), ("status", some (.text s.status.word)),
    ("genres", some (.array (s.genres.map .text))),
    ("airDate", some (.ofOption (fun d => .text d.text) s.airDate)),
    ("rating", some (.ofOption .float s.rating)),
    ("studioId", some (.ofOption .ofSigned s.studioId)),
    ("collections", s.collections.map fun ids => .array (ids.map .ofSigned)),
    ("studio", s.studioRow.map Studio.encode)]

instance : JsonCodec Show := ⟨decode, encode⟩

end Show
end Catalog
end Repertory
