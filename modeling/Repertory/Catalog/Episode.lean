import Repertory.Catalog.Season

/-!
# Episodes
-/

namespace Repertory
namespace Catalog

/-- An episode of a show, or the single video of a film. -/
structure Episode where
  id : Int64
  /-- Empty until validation derives it from the show and the numbers. -/
  slug : String
  /-- The show; zero if it is missing. -/
  showId : Int64
  /-- The slug of the show, which validation fills in. -/
  showSlug : String
  /-- The season; validation looks it up by its number if it is missing. -/
  seasonId : Option Int64
  seasonNumber : Option Int64
  episodeNumber : Option Int64
  absoluteNumber : Option Int64
  name : Option String
  releaseDate : Option Date
  showRow : Option Show
  seasonRow : Option Season
  deriving DecidableEq

namespace Episode

/-- The slug that belongs to the numbers under the slug of a show: by season and episode, else by
the absolute number. -/
def defaultSlug (e : Episode) (showSlug : String) : Option String :=
  match e.seasonNumber, e.episodeNumber, e.absoluteNumber with
  | some season, some episode, _ =>
    some (showSlug ++ "-s" ++ Number.signedText season ++ "e" ++ Number.signedText episode)
  | _, _, some absolute => some (showSlug ++ "-" ++ Number.signedText absolute)
  | _, _, none => none

def idField : Field Episode := ⟨"id", "id", .int, false, fun e => .int e.id⟩
def slugField : Field Episode := ⟨"slug", "slug", .text, false, fun e => .text e.slug⟩
def showIdField : Field Episode := ⟨"showId", "show_id", .int, false, fun e => .int e.showId⟩

def showSlugField : Field Episode :=
  ⟨"showSlug", "show_slug", .text, false, fun e => .text e.showSlug⟩

def seasonIdField : Field Episode :=
  ⟨"seasonId", "season_id", .int, true, fun e => .ofOption .int e.seasonId⟩

def seasonNumberField : Field Episode :=
  ⟨"seasonNumber", "season_number", .int, true, fun e => .ofOption .int e.seasonNumber⟩

def episodeNumberField : Field Episode :=
  ⟨"episodeNumber", "episode_number", .int, true, fun e => .ofOption .int e.episodeNumber⟩

def absoluteNumberField : Field Episode :=
  ⟨"absoluteNumber", "absolute_number", .int, true, fun e => .ofOption .int e.absoluteNumber⟩

def nameField : Field Episode := ⟨"name", "name", .text, true, fun e => .ofOption .text e.name⟩

def releaseDateField : Field Episode :=
  ⟨"releaseDate", "release_date", .date, true, fun e => .ofOption .date e.releaseDate⟩

def seasonSlot : RelationSlot Episode where
  name := "season"
  isSet e := e.seasonId.isSome
  carry e f := { f with seasonId := e.seasonId, seasonRow := e.seasonRow }

def schema : Schema Episode where
  id := idField
  slug := slugField
  fields := [idField, slugField, showIdField, showSlugField, seasonIdField, seasonNumberField,
    episodeNumberField, absoluteNumberField, nameField, releaseDateField]
  relations := [seasonSlot]
  defaultSort := [(seasonNumberField, false), (episodeNumberField, false),
    (absoluteNumberField, false)]
  search := [nameField, slugField]

instance : Resource Episode Int64 where
  kind := "Episode"
  id := Episode.id
  slug := Episode.slug
  setId i e := { e with id := i }
  schema := schema

def decode (j : Json) : Option Episode := do
  let fields ← j.asRecord [] ["id", "slug", "showId", "showSlug", "seasonId", "seasonNumber",
    "episodeNumber", "absoluteNumber", "name", "releaseDate", "show", "season"]
  return {
    id := ← Json.optional 0 Json.asSigned "id" fields
    slug := ← Json.optional "" Json.asText "slug" fields
    showId := ← Json.optional 0 Json.asSigned "showId" fields
    showSlug := ← Json.optional "" Json.asText "showSlug" fields
    seasonId := ← Json.nullable Json.asSigned "seasonId" fields
    seasonNumber := ← Json.nullable Json.asSigned "seasonNumber" fields
    episodeNumber := ← Json.nullable Json.asSigned "episodeNumber" fields
    absoluteNumber := ← Json.nullable Json.asSigned "absoluteNumber" fields
    name := ← Json.nullable Json.asText "name" fields
    releaseDate := ← Json.nullable Json.asDate "releaseDate" fields
    showRow := ← Json.nullable Show.decode "show" fields
    seasonRow := ← Json.nullable Season.decode "season" fields }

def encode (e : Episode) : Json :=
  .ofEntries [
    ("id", some (.ofSigned e.id)), ("slug", some (.text e.slug)),
    ("showId", some (.ofSigned e.showId)), ("showSlug", some (.text e.showSlug)),
    ("seasonId", some (.ofOption .ofSigned e.seasonId)),
    ("seasonNumber", some (.ofOption .ofSigned e.seasonNumber)),
    ("episodeNumber", some (.ofOption .ofSigned e.episodeNumber)),
    ("absoluteNumber", some (.ofOption .ofSigned e.absoluteNumber)),
    ("name", e.name.map .text),
    ("releaseDate", some (.ofOption (fun d => .text d.text) e.releaseDate)),
    ("show", e.showRow.map Show.encode), ("season", e.seasonRow.map Season.encode)]

instance : JsonCodec Episode := ⟨decode, encode⟩

end Episode
end Catalog
end Repertory
