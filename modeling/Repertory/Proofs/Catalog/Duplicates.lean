import Repertory.Proofs.Catalog.CreateIfNotExists
import Repertory.Proofs.Repository.Duplicate

/-!
# Duplicates in a catalog

The checks refuse a row for other reasons than a duplicate. So a creation that reports one has met
a row of its own table, one with the slug, which the report names, or one with the id
(`after_create_duplicate`).
-/

namespace Repertory

theorem validateSlug_error {α ι : Type} [Identity ι] [Resource α ι] {item : α}
    {e : RepositoryError} (h : validateSlug item = .error e) : e.kind = .validationFailed := by
  rw [validateSlug] at h
  dsimp only at h
  split at h
  · cases h
    rfl
  · split at h
    · cases h
      rfl
    · split at h
      · cases h
        rfl
      · cases h

namespace Catalog

variable {s : State} {e : RepositoryError}

theorem plain_validate_error {α : Type} [Resource α Int64] (item : α) (e : RepositoryError)
    (h : (((Hooks.plain : Hooks State α).validate item).exec s).1 = .error e) :
    e.kind = .validationFailed := by
  rw [plain_validate_fst] at h
  exact of_bind_error (fun _ => validateSlug_error) (fun _ _ hpure => by cases hpure) h

theorem parentShow_error {kind slug : String} {showId : Int64}
    (h : ((parentShow kind slug showId).exec s).1 = .error e) : e.kind = .validationFailed := by
  rw [parentShow] at h
  split at h
  · cases h
    rfl
  · have hask : (Repository.ask .create (showStore.execute (Query.byId showId))).exec s =
        (.ok ((Query.byId showId).run s.shows.rows), s) := rfl
    dsimp only at h
    rw [Action.exec_bind, hask] at h
    dsimp only at h
    split at h
    · cases h
    · cases h
      rfl

theorem seasonHooks_validate_error (item : Season) (e : RepositoryError)
    (h : ((seasonHooks.validate item).exec s).1 = .error e) : e.kind = .validationFailed := by
  rw [seasonHooks_validate_fst] at h
  refine of_bind_error (fun _ => parentShow_error) (fun parent _ h => ?_) h
  exact of_bind_error (fun _ => validateSlug_error) (fun _ _ hpure => by cases hpure) h

theorem completeSlug_error {item : Episode} (h : completeSlug item = .error e) :
    e.kind = .validationFailed := by
  rw [completeSlug] at h
  split at h
  · split at h
    · cases h
    · cases h
      rfl
  · cases h

theorem episodeHooks_validate_error (item : Episode) (e : RepositoryError)
    (h : ((episodeHooks.validate item).exec s).1 = .error e) : e.kind = .validationFailed := by
  rw [episodeHooks_validate_fst] at h
  refine of_bind_error (fun _ => parentShow_error) (fun parent _ h => ?_) h
  rw [resolveSeason_fst] at h
  refine of_bind_error (fun _ => completeSlug_error) (fun slug _ h => ?_) h
  exact of_bind_error (fun _ => validateSlug_error) (fun _ _ hpure => by cases hpure) h

open Repository

/-- In every table, a creation only reports a duplicate if the checked row has the slug of a stored
row or comes with its id. The report names the row with the slug, if there is one. -/
theorem after_create_duplicate (history : List (Settings × Request)) (settings : Settings) :
    let s := after history
    ReportsDuplicates settings.studios Hooks.plain State.studiosLens s ∧
    ReportsDuplicates settings.collections collectionHooks State.collectionsLens s ∧
    ReportsDuplicates settings.shows showHooks State.showsLens s ∧
    ReportsDuplicates settings.seasons seasonHooks State.seasonsLens s ∧
    ReportsDuplicates settings.episodes episodeHooks State.episodesLens s := by
  intro s
  have hs : Keyed s := after_keyed history
  exact ⟨reportsDuplicates hs.studios plain_readOnly plain_validate_error,
    reportsDuplicates hs.collections plain_readOnly plain_validate_error,
    reportsDuplicates hs.shows plain_readOnly plain_validate_error,
    reportsDuplicates hs.seasons seasonHooks_readOnly seasonHooks_validate_error,
    reportsDuplicates hs.episodes episodeHooks_readOnly episodeHooks_validate_error⟩

/-- The first season of a show twice, with its slug left to the checks. -/
def sameSeason : List (Settings × Request) :=
  [ ({}, .shows (.write (.create (.bare "a")))),
    ({}, .seasons (.write (.create firstSeason))) ]

theorem after_create_duplicate_sameSeason :
    let s := after sameSeason
    ∃ e u row, ((Settings.seasons {}).create firstSeason).exec s = (.error e, u) ∧
      e.kind = .duplicateResource ∧ (seasonHooks.validate firstSeason).exec s = (.ok row, s) ∧
      Meets s.seasons row e ∧ e.existing = some ⟨"1", "a-s1"⟩ := by
  intro s
  have hfailed : (((Settings.seasons {}).create firstSeason).exec s).1 =
      .error (((RepositoryError.duplicate "Season" "a-s1").withOperation .create).withExisting
        "1" "a-s1") := by
    decide +kernel
  have hexec := Action.exec_of_fst hfailed
  obtain ⟨row, hvalidate, hmeets⟩ :=
    (after_create_duplicate sameSeason {}).2.2.2.1 firstSeason _ _ hexec rfl
  exact ⟨_, _, row, hexec, rfl, hvalidate, hmeets, rfl⟩

/-- A show that comes with the id of a stored one is a duplicate as well, and its slug may be new. -/
theorem after_create_duplicate_takenId :
    ¬ ∀ (history : List (Settings × Request)) (settings : Settings) (item row : Show)
      (e : RepositoryError) (u : State),
      (settings.shows.create item).exec (after history) = (.error e, u) →
      e.kind = .duplicateResource →
      (showHooks.validate item).exec (after history) = (.ok row, after history) →
      ∃ holder ∈ (after history).shows.rows, holder.slug = row.slug ∧
        e.existing = some ⟨Identity.text holder.id, holder.slug⟩ := by
  intro hheld
  have hfailed : (((Settings.shows {}).create { Show.bare "b" with id := 1 }).exec
      (after oneShow)).1 = .error ((RepositoryError.duplicate "Show" "b").withOperation .create) := by
    decide +kernel
  have hchecked : ((showHooks.validate { Show.bare "b" with id := 1 }).exec (after oneShow)).1 =
      .ok { Show.bare "b" with id := 1 } := by
    decide +kernel
  have hvalidate := (Action.exec_of_fst hchecked).trans
    (congrArg (Prod.mk _) (plain_readOnly _ (after oneShow)))
  obtain ⟨holder, hholder, hslug, -⟩ :=
    hheld oneShow {} _ _ _ _ (Action.exec_of_fst hfailed) rfl hvalidate
  have hslugs : (after oneShow).shows.rows.map Show.slug = ["a"] := by decide +kernel
  have hmem : holder.slug ∈ (after oneShow).shows.rows.map Show.slug := List.mem_map_of_mem hholder
  rw [hslugs, hslug] at hmem
  simp [Show.bare] at hmem

end Catalog
end Repertory
