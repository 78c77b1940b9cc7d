import Repertory.Catalog.Collection
import Repertory.Catalog.Episode
import Repertory.Store.Table

/-!
# The tables of a catalog

The rows of a catalog lie in five tables. Each table is a part of the state, so an action on one
table leaves the others alone.
-/

namespace Repertory
namespace Catalog

structure State where
  studios : Table Studio Int64
  collections : Table Collection Int64
  shows : Table Show Int64
  seasons : Table Season Int64
  episodes : Table Episode Int64

namespace State

def empty : State := ⟨.empty, .empty, .empty, .empty, .empty⟩

def studiosLens : Lens State (Table Studio Int64) where
  get := studios
  set t s := { s with studios := t }

def collectionsLens : Lens State (Table Collection Int64) where
  get := collections
  set t s := { s with collections := t }

def showsLens : Lens State (Table Show Int64) where
  get := shows
  set t s := { s with shows := t }

def seasonsLens : Lens State (Table Season Int64) where
  get := seasons
  set t s := { s with seasons := t }

def episodesLens : Lens State (Table Episode Int64) where
  get := episodes
  set t s := { s with episodes := t }

end State

def studioStore : Store State Studio Int64 := Table.store State.studiosLens
def collectionStore : Store State Collection Int64 := Table.store State.collectionsLens
def showStore : Store State Show Int64 := Table.store State.showsLens
def seasonStore : Store State Season Int64 := Table.store State.seasonsLens
def episodeStore : Store State Episode Int64 := Table.store State.episodesLens

end Catalog
end Repertory
