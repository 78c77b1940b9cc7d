import Repertory.Catalog.LibraryItem
import Repertory.Catalog.Rules
import Repertory.ListParams
import Repertory.Repository.Union

/-!
# A catalog of shows

Studios, shows, seasons, episodes and collections, each behind a repository, and the library, which
lists collections and the shows outside of collections together.
-/

namespace Repertory
namespace Catalog

structure Settings where
  engine : Engine := {}
  seed : UInt64 := 0

namespace Settings

def studios (s : Settings) : Repository State Studio Int64 :=
  .ofStore studioStore Hooks.plain s.engine.searchLimit s.seed

def shows (s : Settings) : Repository State Show Int64 :=
  .ofStore showStore showHooks s.engine.searchLimit s.seed

def seasons (s : Settings) : Repository State Season Int64 :=
  .ofStore seasonStore seasonHooks s.engine.searchLimit s.seed

def episodes (s : Settings) : Repository State Episode Int64 :=
  .ofStore episodeStore episodeHooks s.engine.searchLimit s.seed

def collections (s : Settings) : Repository State Collection Int64 :=
  .ofStore collectionStore collectionHooks s.engine.searchLimit s.seed

end Settings

/-- The parts of the library: shows outside of collections, and collections. -/
def librarySources : List (Source State LibraryItem) :=
  [ .ofStore "shows" showStore (some (.satisfies fun row => !row.isCollected)) LibraryItem.ofShow,
    .ofStore "collections" collectionStore none LibraryItem.ofCollection ]

def Settings.library (s : Settings) : Repository State LibraryItem Int64 :=
  .union librarySources s.engine.searchLimit s.seed

/-! ## Relations -/

class Related (α : Type) where
  relations : List (Relation State α)

instance : Related Studio := ⟨[.many "shows" "Show" "studioId"]⟩

instance : Related Show :=
  ⟨[ .one "studio" "studioId" studioStore Show.studioId fun row s => { s with studioRow := row },
     .many "seasons" "Season" "showId",
     .many "episodes" "Episode" "showId",
     .many "collections" "Collection" "collections" ]⟩

instance : Related Season :=
  ⟨[ .one "show" "showId" showStore (fun s => some s.showId) fun row s => { s with showRow := row },
     .many "episodes" "Episode" "seasonId" ]⟩

instance : Related Episode :=
  ⟨[ .one "show" "showId" showStore (fun e => some e.showId) fun row e => { e with showRow := row },
     .one "season" "seasonId" seasonStore Episode.seasonId
       fun row e => { e with seasonRow := row } ]⟩

instance : Related Collection := ⟨[]⟩
instance : Related LibraryItem := ⟨[]⟩

def Settings.listQuery {α ι : Type} [Identity ι] [Resource α ι] [Related α] (s : Settings)
    (seeds : Nat → UInt64) (params : ListParams) : Except QueryError (ListQuery State α ι) :=
  params.resolve Related.relations s.engine seeds

/-- The episodes of one show, which is addressed by its id or its slug. -/
def Settings.episodesOf (s : Settings) (id : Identifier Int64)
    (q : ListQuery State Episode Int64) : CatalogAction (Page Episode Int64) :=
  s.episodes.list (q.constrained (id.matching Episode.showIdField Episode.showSlugField))

/-! ## Seeds -/

structure Seed where
  studios : List Studio
  collections : List Collection
  shows : List Show
  seasons : List Season
  episodes : List Episode

namespace Seed

def decode (j : Json) : Option Seed := do
  let fields ← j.asRecord [] ["studios", "collections", "shows", "seasons", "episodes"]
  return {
    studios := ← Json.optional [] (Json.asList Studio.decode) "studios" fields
    collections := ← Json.optional [] (Json.asList Collection.decode) "collections" fields
    shows := ← Json.optional [] (Json.asList Show.decode) "shows" fields
    seasons := ← Json.optional [] (Json.asList Season.decode) "seasons" fields
    episodes := ← Json.optional [] (Json.asList Episode.decode) "episodes" fields }

def encode (s : Seed) : Json :=
  .object [
    ("studios", .array (s.studios.map Studio.encode)),
    ("collections", .array (s.collections.map Collection.encode)),
    ("shows", .array (s.shows.map Show.encode)),
    ("seasons", .array (s.seasons.map Season.encode)),
    ("episodes", .array (s.episodes.map Episode.encode))]

def counts (s : Seed) : Json :=
  .object [
    ("studios", .int s.studios.length), ("collections", .int s.collections.length),
    ("shows", .int s.shows.length), ("seasons", .int s.seasons.length),
    ("episodes", .int s.episodes.length)]

end Seed

def createAll {α : Type} [Resource α Int64] (repo : Repository State α Int64) :
    List α → CatalogAction Unit
  | [] => return ()
  | item :: rest => do
    let _ ← repo.create item
    createAll repo rest

/-- Creates every row of a seed. Rows come after the rows that they may point to. -/
def Settings.load (s : Settings) (seed : Seed) : CatalogAction Unit := do
  createAll s.studios seed.studios
  createAll s.collections seed.collections
  createAll s.shows seed.shows
  createAll s.seasons seed.seasons
  createAll s.episodes seed.episodes

end Catalog
end Repertory
