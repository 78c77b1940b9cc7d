import Repertory.Proofs.Catalog.Memberships
import Repertory.Proofs.Repository.DeleteAll

/-!
# Deleting rows of a catalog together

What belongs to a row of a catalog is never in the way of its deletion, and no other row of the same
table belongs to it. So all rows that a filter is true of go as they would one by one, whatever
goes with them (`after_deleteAll`).
-/

namespace Repertory
namespace Catalog

open Table

namespace Keyed

theorem removesOne {α : Type} [Resource α Int64] {lens : Lens State (Table α Int64)}
    {hooks : Hooks State α} (hget : ∀ {s}, Keyed s → Sound (lens.get s))
    (hstable : Stable lens Keyed) (hkept : Kept lens hooks Keyed)
    (hdelete : ∀ {s} row, Keyed s →
      ∃ u, (hooks.onDelete row).exec s = (.ok (), u) ∧ lens.get u = lens.get s) :
    Repository.RemovesOne lens hooks Keyed where
  sound := hget
  onDelete {s row} hs hrow := by
    have hdeleted := delete_of_mem hrow
    obtain ⟨u, hexec, hsame⟩ := hdelete row (hstable.delete hs hdeleted)
    have hu := hkept.delete hs hdeleted
    rw [hexec] at hu
    exact ⟨u, hexec, hsame.trans (lens.get_set _ _), hu⟩

theorem studios_removesOne : Repository.RemovesOne State.studiosLens Hooks.plain Keyed :=
  removesOne Keyed.studios studios_stable invariant.studios fun _ _ => ⟨_, rfl, rfl⟩

theorem collections_removesOne :
    Repository.RemovesOne State.collectionsLens collectionHooks Keyed :=
  removesOne Keyed.collections collections_stable invariant.collections fun row hs =>
    have ⟨_, hexec⟩ := collectionHooks_onDelete_exec row hs.shows
    ⟨_, hexec, rfl⟩

theorem shows_removesOne : Repository.RemovesOne State.showsLens showHooks Keyed :=
  removesOne Keyed.shows shows_stable invariant.shows fun row hs =>
    ⟨_, showHooks_onDelete_eq row _ hs.episodes.ascending hs.seasons.ascending, rfl⟩

theorem seasons_removesOne : Repository.RemovesOne State.seasonsLens seasonHooks Keyed :=
  removesOne Keyed.seasons seasons_stable invariant.seasons fun row hs =>
    ⟨_, seasonHooks_onDelete_eq row _ hs.episodes.ascending, rfl⟩

/-- The seasons and the show that go with an episode are in other tables. -/
theorem episodes_removesOne : Repository.RemovesOne State.episodesLens episodeHooks Keyed :=
  removesOne Keyed.episodes episodes_stable invariant.episodes fun {s} row hs => by
    refine ⟨_, episodeHooks_onDelete_eq row s hs.seasons.ascending, ?_⟩
    split <;> rfl

end Keyed

/-- All rows that a filter is true of are deleted, as many as there were before, and what is left in
all tables is the same as after deletions of these rows under their ids, from the lowest on. -/
theorem after_deleteAll (history : List (Settings × Request)) (settings : Settings) :
    let s := after history
    (∀ filter, ∃ ids u, settings.studios.DeletesAll State.studiosLens filter s ids u) ∧
    (∀ filter, ∃ ids u, settings.collections.DeletesAll State.collectionsLens filter s ids u) ∧
    (∀ filter, ∃ ids u, settings.shows.DeletesAll State.showsLens filter s ids u) ∧
    (∀ filter, ∃ ids u, settings.seasons.DeletesAll State.seasonsLens filter s ids u) ∧
    ∀ filter, ∃ ids u, settings.episodes.DeletesAll State.episodesLens filter s ids u := by
  intro s
  have hs : Keyed s := after_keyed history
  exact ⟨Keyed.studios_removesOne.deletesAll hs, Keyed.collections_removesOne.deletesAll hs,
    Keyed.shows_removesOne.deletesAll hs, Keyed.seasons_removesOne.deletesAll hs,
    Keyed.episodes_removesOne.deletesAll hs⟩

end Catalog
end Repertory
