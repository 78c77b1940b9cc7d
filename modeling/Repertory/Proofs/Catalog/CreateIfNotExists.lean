import Repertory.Proofs.Catalog.FailedWrites
import Repertory.Proofs.Catalog.Slugs

/-!
# Creating a row of a catalog that may exist

Whoever asks twice for a row under its slug gets the same row. A season or an episode that leaves
its slug to the checks is only made once: the second time its completed slug is taken, and the row
that has it is not found under the empty slug of the item (`createIfNotExists_again`).
-/

namespace Repertory
namespace Catalog

inductive Settings.Writable (settings : Settings) :
    {α : Type} → [Resource α Int64] → Repository State α Int64 → Prop where
  | studios : Writable settings settings.studios
  | shows : Writable settings settings.shows
  | seasons : Writable settings settings.seasons
  | episodes : Writable settings settings.episodes
  | collections : Writable settings settings.collections

/-- If a row was given for an item, then the same request gives the row again and changes nothing,
provided that the item has a slug. Without a slug the request fails the second time. -/
theorem createIfNotExists_again (history : List (Settings × Request)) (settings : Settings)
    {α : Type} [Resource α Int64] {repo : Repository State α Int64} (hrepo : settings.Writable repo)
    {item row : α} {u : State}
    (h : (repo.createIfNotExists item).exec (after history) = (.ok row, u)) :
    (Resource.slug item ≠ "" → (repo.createIfNotExists item).exec u = (.ok row, u)) ∧
    (Resource.slug item = "" → ∃ e, (repo.createIfNotExists item).exec u = (.error e, u) ∧
      (e = (RepositoryError.notFound (Resource.kind α) "").withOperation .createIfNotExists ∨
        e.kind = .storageError)) := by
  have hordered := after_ordered history
  have hslugs := after_addressable history
  cases hrepo with
  | studios =>
    exact Repository.createIfNotExists_twice (plain_checks State.studiosLens) hordered.studios
      hslugs.studios h
  | shows =>
    have hchecks : Repository.Checks State.showsLens showHooks.validate := plain_checks _
    exact Repository.createIfNotExists_twice hchecks hordered.shows hslugs.shows h
  | seasons =>
    exact Repository.createIfNotExists_twice seasonHooks_checks hordered.seasons hslugs.seasons h
  | episodes =>
    exact Repository.createIfNotExists_twice episodeHooks_checks hordered.episodes
      hslugs.episodes h
  | collections =>
    have hchecks : Repository.Checks State.collectionsLens collectionHooks.validate :=
      plain_checks _
    exact Repository.createIfNotExists_twice hchecks hordered.collections hslugs.collections h

/-! ## A season without a slug -/

def oneShow : List (Settings × Request) := [({}, .shows (.write (.create (.bare "a"))))]

def firstSeason : Season := ⟨0, "", 1, 1, none, none, none⟩

/-- The first season of a show, created and then asked for in the same way again. -/
theorem createIfNotExists_again_firstSeason :
    Settings.Writable {} (Settings.seasons {}) ∧
      ((Settings.seasons {}).createIfNotExists firstSeason).exec (after oneShow) =
        (.ok { firstSeason with id := 1, slug := "a-s1" },
          (((Settings.seasons {}).createIfNotExists firstSeason).exec (after oneShow)).2) ∧
      Resource.slug firstSeason = "" ∧
      ∃ e, ((Settings.seasons {}).createIfNotExists firstSeason).exec
          (((Settings.seasons {}).createIfNotExists firstSeason).exec (after oneShow)).2 =
            (.error e, (((Settings.seasons {}).createIfNotExists firstSeason).exec
              (after oneShow)).2) ∧
        (e = (RepositoryError.notFound "Season" "").withOperation .createIfNotExists ∨
          e.kind = .storageError) :=
  ⟨.seasons, rfl, rfl, (createIfNotExists_again oneShow {} .seasons rfl).2 rfl⟩

end Catalog
end Repertory
