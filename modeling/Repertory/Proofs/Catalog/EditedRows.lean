import Repertory.Proofs.Catalog.Checks
import Repertory.Proofs.Catalog.FailedWrites
import Repertory.Proofs.Catalog.Keys

/-!
# Rows after an edit

An edit that succeeds puts the given row in the place of the old one, under the old id. The old row
gives the relations that the given one leaves open, unless the caller wants them reset, and the
checks complete an episode. Nothing else is taken over, and no other row of the table is touched
(`after_edit`).
-/

namespace Repertory
namespace Catalog

open Table

variable {s u : State} {resetOld : Bool} {searchLimit : Nat} {seed : UInt64}

/-- A show that is replaced comes from the write as it is, under the old id, and its episodes and
seasons follow. -/
theorem show_replaced {w : Write Show Int64} {old row : Show} (hs : Keyed s)
    (hold : old ∈ s.shows.rows) (hw : w.Replaces old.id)
    (h : (w.perform (.ofStore showStore showHooks searchLimit seed)).exec s = (.ok row, u)) :
    ∃ changes t, w.Makes old changes ∧ row = { changes with id := old.id } ∧
      Replaced old row s.shows t ∧ Followed old row { s with shows := t } (.ok ()) u := by
  obtain ⟨changes, t, hmade, hvalidate, hupdate, hedited⟩ :=
    Write.perform_replaces Keyed.invariant.shows.validate hs.shows.ascending hold hw h
  obtain rfl := plain_validate_ok hvalidate
  exact ⟨changes, t, hmade, rfl, update_replaced hs.shows.ascending hold rfl hupdate,
    showHooks_onEdited old _ hs.episodes.ascending hs.seasons.ascending hedited⟩

theorem Show.edit_ok {old changes row : Show} (hs : Keyed s) (hold : old ∈ s.shows.rows)
    (h : ((Write.edit old.id changes resetOld).perform
      (.ofStore showStore showHooks searchLimit seed)).exec s = (.ok row, u)) :
    row = edited resetOld old changes ∧ Replaced old row s.shows u.shows := by
  have hw : (Write.edit old.id changes resetOld).Replaces old.id := rfl
  obtain ⟨made, t, hmade, rfl, hreplaced, hfollowed⟩ := show_replaced hs hold hw h
  have hmade : made = keepRelations old resetOld changes := hmade
  obtain ⟨episodes, seasons, rfl⟩ := hfollowed.exists_touch
  refine ⟨?_, hreplaced⟩
  rw [hmade, keepRelations_eq]
  rfl

theorem Episode.edit_ok {old changes row : Episode} (hs : Keyed s) (hold : old ∈ s.episodes.rows)
    (h : ((Write.edit old.id changes resetOld).perform
      (.ofStore episodeStore episodeHooks searchLimit seed)).exec s = (.ok row, u)) :
    Checked s (edited resetOld old changes) row ∧ Replaced old row s.episodes u.episodes := by
  have hw : (Write.edit old.id changes resetOld).Replaces old.id := rfl
  obtain ⟨made, t, hmade, hvalidate, hupdate, hedited⟩ :=
    Write.perform_replaces Keyed.invariant.episodes.validate hs.episodes.ascending hold hw h
  have hmade : made = keepRelations old resetOld changes := hmade
  have hchecked := episodeHooks_validate_checked hvalidate
  rw [hmade, keepRelations_eq] at hchecked
  -- Nothing follows from the change of an episode.
  cases hedited
  exact ⟨hchecked, update_replaced hs.episodes.ascending hold hchecked.id hupdate⟩

/-- An edited row has the old id, and otherwise what was given, but for its relations: those that
were not given are the old ones unless `resetOld`. An episode is completed by the checks then. The
other rows of the table stay. -/
theorem after_edit (history : List (Settings × Request)) (settings : Settings) (resetOld : Bool) :
    let s := after history
    (∀ old ∈ s.shows.rows, ∀ changes row u,
      (settings.shows.edit old.id changes resetOld).exec s = (.ok row, u) →
        row = Show.edited resetOld old changes ∧ Replaced old row s.shows u.shows) ∧
    ∀ old ∈ s.episodes.rows, ∀ changes row u,
      (settings.episodes.edit old.id changes resetOld).exec s = (.ok row, u) →
        Episode.Checked s (.edited resetOld old changes) row ∧
          Replaced old row s.episodes u.episodes := by
  intro s
  have hs : Keyed s := after_keyed history
  exact ⟨fun _ hold _ _ _ h => Show.edit_ok hs hold h,
    fun _ hold _ _ _ h => Episode.edit_ok hs hold h⟩

/-- A show in a studio and a collection, with two seasons and an episode of the first one. The show
holds its studio and the episode its season. -/
def smallShow : List (Settings × Request) :=
  [ ({}, .shows (.write (.create { Show.bare "a" with
      studioId := some 7, studioRow := some ⟨7, "w", "w"⟩, collections := some [1] }))),
    ({}, .seasons (.write (.create ⟨0, "s", 1, 1, none, none, none⟩))),
    ({}, .seasons (.write (.create ⟨0, "t", 1, 2, none, none, none⟩))),
    ({}, .episodes (.write (.create { Episode.bare "x" 1 with
      seasonId := some 1, seasonRow := some ⟨1, "s", 1, 1, none, none, none⟩ }))) ]

/-- The show stays in its studio and gets another collection. The episode stays in its season
although it is given the number of the other one. Once its season is reset, that number counts. -/
theorem after_edit_smallShow :
    let s := after smallShow
    let settings : Settings := {}
    let old : Show := { Show.bare "a" with
      id := 1, studioId := some 7, studioRow := some ⟨7, "w", "w"⟩, collections := some [1] }
    let changes : Show := { Show.bare "b" with collections := some [2] }
    let oldEpisode : Episode := { Episode.bare "x" 1 with
      id := 1, showSlug := "a", seasonId := some 1,
      seasonRow := some ⟨1, "s", 1, 1, none, none, none⟩ }
    let numbers : Episode :=
      { Episode.bare "" 1 with seasonNumber := some 2, episodeNumber := some 3 }
    (∃ row u, (settings.shows.edit old.id changes false).exec s = (.ok row, u) ∧
      row = { old with slug := "b", name := "b", collections := some [2] } ∧
      Replaced old row s.shows u.shows) ∧
    (∃ row u, (settings.episodes.edit oldEpisode.id numbers false).exec s = (.ok row, u) ∧
      row.seasonId = oldEpisode.seasonId ∧ row.seasonRow = oldEpisode.seasonRow ∧
      row.seasonNumber = some 2 ∧ row.slug = "a-s2e3" ∧
      Replaced oldEpisode row s.episodes u.episodes) ∧
    ∃ row u, (settings.episodes.edit oldEpisode.id numbers true).exec s = (.ok row, u) ∧
      row.seasonId = some 2 ∧ row.seasonRow = none ∧ row.slug = "a-s2e3" ∧
      Replaced oldEpisode row s.episodes u.episodes := by
  intro s settings old changes oldEpisode numbers
  have hold : old ∈ s.shows.rows := by decide +kernel
  have holdEpisode : oldEpisode ∈ s.episodes.rows := by decide +kernel
  obtain ⟨u, hedit⟩ : ∃ u, (settings.shows.edit old.id changes false).exec s =
      (.ok { old with slug := "b", name := "b", collections := some [2] }, u) :=
    ⟨_, Action.exec_of_fst (by decide +kernel)⟩
  obtain ⟨v, hkept⟩ : ∃ v, (settings.episodes.edit oldEpisode.id numbers false).exec s =
      (.ok { oldEpisode with slug := "a-s2e3", seasonNumber := some 2, episodeNumber := some 3 },
        v) :=
    ⟨_, Action.exec_of_fst (by decide +kernel)⟩
  obtain ⟨w, hreset⟩ : ∃ w, (settings.episodes.edit oldEpisode.id numbers true).exec s =
      (.ok { numbers with id := 1, showSlug := "a", seasonId := some 2, slug := "a-s2e3" }, w) :=
    ⟨_, Action.exec_of_fst (by decide +kernel)⟩
  obtain ⟨hrow, hreplaced⟩ := (after_edit smallShow settings false).1 old hold changes _ u hedit
  obtain ⟨hchecked, hreplaced'⟩ :=
    (after_edit smallShow settings false).2 oldEpisode holdEpisode numbers _ v hkept
  obtain ⟨hchecked', hreplaced''⟩ :=
    (after_edit smallShow settings true).2 oldEpisode holdEpisode numbers _ w hreset
  have hheld := congrArg Episode.seasonRow hchecked.rest
  have hseason : s.seasonOf (.edited true oldEpisode numbers) = some 2 := by decide +kernel
  exact ⟨⟨_, u, hedit, hrow, hreplaced⟩,
    ⟨_, v, hkept, hchecked.seasonId, hheld, rfl, rfl, hreplaced'⟩,
    _, w, hreset, hchecked'.seasonId.trans hseason, rfl, rfl, hreplaced''⟩

end Catalog
end Repertory
