import Repertory.Catalog.State
import Repertory.Repository.Basic

/-!
# Rules between the tables of a catalog

A season and an episode need a show. Removing a show takes its seasons and episodes along, removing
a season its episodes, and removing the last episode of a show the show itself; removing a
collection takes it out of the shows that name it. A new slug of a show goes on to the slugs that
begin with the old one.
-/

namespace Repertory
namespace Catalog

abbrev CatalogAction := Action State RepositoryError

/-- Removes the rows with the given ids; a row that is already gone is passed over. -/
def purgeRows {α : Type} [Resource α Int64] (store : Store State α Int64) :
    List α → CatalogAction Unit
  | [] => return ()
  | row :: rest => do
    match ← (store.delete (Resource.id row)).outcome with
    | .ok () => purgeRows store rest
    | .error (.notFound _) => purgeRows store rest
    | .error e => throw (.ofStore .delete e)

/-- Removes the rows that a filter is true of, without the rules for their removal. -/
def purge {α : Type} [Resource α Int64] (store : Store State α Int64) (filter : Filter α Int64) :
    CatalogAction Unit := do
  let rows ← Repository.ask .delete (store.execute { filter := some filter })
  purgeRows store rows

def ofShowId (showId : Int64) : Filter Episode Int64 := .cmp .eq Episode.showIdField (.int showId)

def seasonsOfShowId (showId : Int64) : Filter Season Int64 :=
  .cmp .eq Season.showIdField (.int showId)

/-! ## Shows -/

/-- A slug that continues the old slug of a show with a hyphen, continued from the new one. -/
def rebaseSlug (old new slug : String) : Option String :=
  if old.toList.isPrefixOf slug.toList then
    let rest := slug.toList.drop old.toList.length
    if rest.head? = some '-' then some (String.ofList (new.toList ++ rest)) else none
  else none

def renameEpisodes (old new : String) : List Episode → CatalogAction Unit
  | [] => return ()
  | episode :: rest => do
    let slug := (rebaseSlug old new episode.slug).getD episode.slug
    let _ ← Repository.ask .edit (episodeStore.update { episode with showSlug := new, slug })
    renameEpisodes old new rest

def renameSeasons (old new : String) : List Season → CatalogAction Unit
  | [] => return ()
  | season :: rest => do
    match rebaseSlug old new season.slug with
    | none => pure ()
    | some slug =>
      let _ ← Repository.ask .edit (seasonStore.update { season with slug })
      pure ()
    renameSeasons old new rest

def showHooks : Hooks State Show where
  validate := Hooks.plain.validate
  onDelete item := do
    purge episodeStore (ofShowId item.id)
    purge seasonStore (seasonsOfShowId item.id)
  onEdited old new := do
    if old.slug = new.slug then
      return ()
    let episodes ←
      Repository.ask .edit (episodeStore.execute { filter := some (ofShowId new.id) })
    renameEpisodes old.slug new.slug episodes
    let seasons ←
      Repository.ask .edit (seasonStore.execute { filter := some (seasonsOfShowId new.id) })
    renameSeasons old.slug new.slug seasons

/-! ## Seasons -/

def parentShow (kind slug : String) (showId : Int64) : CatalogAction Show := do
  if showId = 0 then
    throw ((RepositoryError.validationFailed "Missing show id").withEntity kind slug)
  match ← Repository.ask .create (showStore.execute (Query.byId showId)) with
  | row :: _ => return row
  | [] =>
    throw ((RepositoryError.validationFailed
      ("No show with id " ++ Number.signedText showId)).withEntity kind slug)

def seasonHooks : Hooks State Season where
  validate item := do
    let parent ← parentShow "Season" item.slug item.showId
    let item :=
      if item.slug.isEmpty then
        { item with slug := Season.defaultSlug parent.slug item.seasonNumber }
      else item
    Action.ofExcept (validateSlug item)
    return item
  onDelete item := purge episodeStore (.cmp .eq Episode.seasonIdField (.int item.id))
  onEdited _ _ := return ()

/-! ## Episodes -/

def seasonOfNumber (showId number : Int64) : CatalogAction (Option Int64) := do
  let filter : Filter Season Int64 :=
    .and (seasonsOfShowId showId) (.cmp .eq Season.seasonNumberField (.int number))
  let rows ←
    Repository.ask .create (seasonStore.execute { filter := some filter, limit := some 1 })
  return rows.head?.map Season.id

/-- The season of an episode: the one it names, or else the one with its season number. -/
def resolveSeason (item : Episode) : CatalogAction (Option Int64) :=
  match item.seasonNumber, item.seasonId with
  | some number, none => seasonOfNumber item.showId number
  | _, seasonId => return seasonId

def completeSlug (item : Episode) : Except RepositoryError String :=
  if item.slug.isEmpty then
    match item.defaultSlug item.showSlug with
    | some slug => .ok slug
    | none =>
      .error ((RepositoryError.validationFailed
        "Episode needs a season and episode number or an absolute number").withEntity "Episode"
          item.showSlug)
  else .ok item.slug

def episodeHooks : Hooks State Episode where
  validate item := do
    let parent ← parentShow "Episode" item.slug item.showId
    let item := { item with showSlug := parent.slug }
    let item := { item with seasonId := ← resolveSeason item }
    let item := { item with slug := ← Action.ofExcept (completeSlug item) }
    Action.ofExcept (validateSlug item)
    return item
  onDelete item := do
    let remaining ← Repository.ask .delete (episodeStore.count (some (ofShowId item.showId)))
    if 0 < remaining then
      return ()
    purge seasonStore (seasonsOfShowId item.showId)
    match ← (showStore.delete item.showId).outcome with
    | .ok () => return ()
    | .error (.notFound _) => return ()
    | .error e => throw (.ofStore .delete e)
  onEdited _ _ := return ()

/-! ## Collections -/

def dropMemberships (collectionId : Int64) : List Show → CatalogAction Unit
  | [] => return ()
  | row :: rest => do
    let collections := row.collections.map fun ids => ids.filter fun id => id ≠ collectionId
    let _ ← Repository.ask .delete (showStore.update { row with collections })
    dropMemberships collectionId rest

def collectionHooks : Hooks State Collection where
  validate := Hooks.plain.validate
  onDelete item := do
    let members : Filter Show Int64 := .satisfies fun row => row.isInCollection item.id
    let rows ← Repository.ask .delete (showStore.execute { filter := some members })
    dropMemberships item.id rows
  onEdited _ _ := return ()

end Catalog
end Repertory
