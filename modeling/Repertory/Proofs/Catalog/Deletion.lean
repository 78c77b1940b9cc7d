import Repertory.Proofs.Catalog.FailedWrites
import Repertory.Proofs.Catalog.Keys
import Repertory.Proofs.Catalog.Slugs
import Repertory.Proofs.Repository.Deletion

/-!
# What a deletion takes along

The rows that belong to a deleted row are found by the id that they name. As ids are keys, they and
no other rows go (`after_delete`): with a show its seasons and episodes, with a season its episodes,
and with an episode that is the last of its show the show and its seasons.
-/

namespace Repertory
namespace Catalog

/-- Under its id or its slug a stored row is deleted. The other tables lose what belongs to the row,
and the rows that are left are as they were. -/
theorem after_delete (history : List (Settings × Request)) (settings : Settings) :
    let s := after history
    (∀ row ∈ s.shows.rows, ∀ x : Identifier Int64, x.addresses row = true →
      (settings.shows.delete x).exec s = (.ok (), { s with
        shows := s.shows.keep fun other => other.id ≠ row.id
        seasons := s.seasons.keep fun season => season.showId ≠ row.id
        episodes := s.episodes.keep fun episode => episode.showId ≠ row.id })) ∧
    (∀ row ∈ s.seasons.rows, ∀ x : Identifier Int64, x.addresses row = true →
      (settings.seasons.delete x).exec s = (.ok (), { s with
        seasons := s.seasons.keep fun other => other.id ≠ row.id
        episodes := s.episodes.keep fun episode => episode.seasonId ≠ some row.id })) ∧
    ∀ row ∈ s.episodes.rows, ∀ x : Identifier Int64, x.addresses row = true →
      (settings.episodes.delete x).exec s = (.ok (),
        if ∃ other ∈ s.episodes.rows, other.id ≠ row.id ∧ other.showId = row.showId then
          { s with episodes := s.episodes.keep fun other => other.id ≠ row.id }
        else { s with
          shows := s.shows.keep fun parent => parent.id ≠ row.showId
          seasons := s.seasons.keep fun season => season.showId ≠ row.showId
          episodes := s.episodes.keep fun other => other.id ≠ row.id }) := by
  intro s
  have hkeyed : Keyed s := after_keyed history
  have haddressable : Addressable s := after_addressable history
  refine ⟨fun row hrow x hx => ?_, fun row hrow x hx => ?_, fun row hrow x hx => ?_⟩
  · refine (Repository.delete_addressed hkeyed.shows haddressable.shows hrow hx).trans ?_
    exact showHooks_onDelete_eq row _ hkeyed.episodes.ascending hkeyed.seasons.ascending
  · refine (Repository.delete_addressed hkeyed.seasons haddressable.seasons hrow hx).trans ?_
    exact seasonHooks_onDelete_eq row _ hkeyed.episodes.ascending
  · refine (Repository.delete_addressed hkeyed.episodes haddressable.episodes hrow hx).trans ?_
    have hleft : (∃ e ∈ (s.episodes.keep fun other => other.id ≠ row.id).rows,
          e.showId = row.showId) ↔
        ∃ other ∈ s.episodes.rows, other.id ≠ row.id ∧ other.showId = row.showId := by
      refine exists_congr fun e => ?_
      rw [Table.mem_keep, decide_eq_true_iff, and_assoc]
    have hhooks := episodeHooks_onDelete_eq row { s with
      episodes := s.episodes.keep fun other => other.id ≠ row.id } hkeyed.seasons.ascending
    refine hhooks.trans ?_
    exact congrArg (Prod.mk (Except.ok ())) (if_congr hleft rfl rfl)

/-- With its only episode a show goes together with its season, and the other show and its season
stay. -/
theorem after_delete_lastEpisode :
    let history : List (Settings × Request) :=
      [ ({}, .shows (.write (.create (.bare "a")))),
        ({}, .shows (.write (.create (.bare "b")))),
        ({}, .seasons (.write (.create ⟨0, "s", 1, 1, none, none, none⟩))),
        ({}, .seasons (.write (.create ⟨0, "t", 2, 1, none, none, none⟩))),
        ({}, .episodes (.write (.create (.bare "x" 1)))) ]
    let settings : Settings := {}
    ∃ u, (settings.episodes.delete (.id 1)).exec (after history) = (.ok (), u) ∧
      u.shows.rows.map Show.id = [2] ∧ u.seasons.rows.map Season.id = [2] ∧
      u.episodes.rows = [] := by
  intro history settings
  have hrow : { Episode.bare "x" 1 with id := 1, showSlug := "a" } ∈
      (after history).episodes.rows := by decide +kernel
  have hdelete := (after_delete history settings).2.2 _ hrow (.id 1) rfl
  exact ⟨_, hdelete, by decide +kernel, by decide +kernel, by decide +kernel⟩

end Catalog
end Repertory
