import Repertory.Catalog.Show

/-!
# Seasons
-/

namespace Repertory
namespace Catalog

structure Season where
  id : Int64
  /-- Empty until validation derives it from the show and the number. -/
  slug : String
  /-- The show; zero if it is missing. -/
  showId : Int64
  seasonNumber : Int64
  name : Option String
  startDate : Option Date
  showRow : Option Show
  deriving DecidableEq

namespace Season

def defaultSlug (showSlug : String) (number : Int64) : String :=
  showSlug ++ "-s" ++ Number.signedText number

def idField : Field Season := ⟨"id", "id", .int, false, fun s => .int s.id⟩
def slugField : Field Season := ⟨"slug", "slug", .text, false, fun s => .text s.slug⟩
def showIdField : Field Season := ⟨"showId", "show_id", .int, false, fun s => .int s.showId⟩

def seasonNumberField : Field Season :=
  ⟨"seasonNumber", "season_number", .int, false, fun s => .int s.seasonNumber⟩

def nameField : Field Season := ⟨"name", "name", .text, true, fun s => .ofOption .text s.name⟩

def startDateField : Field Season :=
  ⟨"startDate", "start_date", .date, true, fun s => .ofOption .date s.startDate⟩

def schema : Schema Season where
  id := idField
  slug := slugField
  fields := [idField, slugField, showIdField, seasonNumberField, nameField, startDateField]
  relations := []
  defaultSort := [(seasonNumberField, false)]
  search := [nameField, slugField]

instance : Resource Season Int64 where
  kind := "Season"
  id := Season.id
  slug := Season.slug
  setId i s := { s with id := i }
  schema := schema

def decode (j : Json) : Option Season := do
  let fields ← j.asRecord ["id", "slug", "showId", "seasonNumber"] ["name", "startDate", "show"]
  return {
    id := ← Json.optional 0 Json.asSigned "id" fields
    slug := ← Json.optional "" Json.asText "slug" fields
    showId := ← Json.optional 0 Json.asSigned "showId" fields
    seasonNumber := ← Json.required Json.asSigned "seasonNumber" fields
    name := ← Json.nullable Json.asText "name" fields
    startDate := ← Json.nullable Json.asDate "startDate" fields
    showRow := ← Json.nullable Show.decode "show" fields }

def encode (s : Season) : Json :=
  .ofEntries [
    ("id", some (.ofSigned s.id)), ("slug", some (.text s.slug)),
    ("showId", some (.ofSigned s.showId)), ("seasonNumber", some (.ofSigned s.seasonNumber)),
    ("name", s.name.map .text),
    ("startDate", some (.ofOption (fun d => .text d.text) s.startDate)),
    ("show", s.showRow.map Show.encode)]

instance : JsonCodec Season := ⟨decode, encode⟩

end Season
end Catalog
end Repertory
