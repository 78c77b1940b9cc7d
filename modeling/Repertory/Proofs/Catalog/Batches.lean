import Repertory.Proofs.Catalog.Library
import Repertory.Proofs.Repository.Batch

/-!
# Rows of a catalog by several ids

The ids of a table are distinct in every state of a catalog, so each repository gives the same rows
for a list of ids as for the ids one by one. The library does so as long as no two of its items
share an id (`after_getMany`).
-/

namespace Repertory
namespace Catalog

open Repository

/-- Each repository gives for a list of ids what the ids give one by one: for each in turn the row
that has it, if one is stored. So does the library where the ids of its items are distinct. -/
theorem after_getMany (history : List (Settings × Request)) (settings : Settings) :
    let s := after history
    settings.studios.GetsBy s (fun id => s.studios.find? id) ∧
      settings.collections.GetsBy s (fun id => s.collections.find? id) ∧
      settings.shows.GetsBy s (fun id => s.shows.find? id) ∧
      settings.seasons.GetsBy s (fun id => s.seasons.find? id) ∧
      settings.episodes.GetsBy s (fun id => s.episodes.find? id) ∧
      ((s.libraryItems.map LibraryItem.id).Nodup →
        settings.library.GetsBy s fun id => s.libraryItems.find? fun item => item.id = id) := by
  intro s
  have hordered : Ordered s := after_ordered history
  refine ⟨?_, ?_, ?_, ?_, ?_, fun hids => ?_⟩
  · exact (ofStore_answers State.studiosLens _ _ _ s).getsBy hordered.studios.nodup
  · exact (ofStore_answers State.collectionsLens _ _ _ s).getsBy hordered.collections.nodup
  · exact (ofStore_answers State.showsLens _ _ _ s).getsBy hordered.shows.nodup
  · exact (ofStore_answers State.seasonsLens _ _ _ s).getsBy hordered.seasons.nodup
  · exact (ofStore_answers State.episodesLens _ _ _ s).getsBy hordered.episodes.nodup
  · have hviews : settings.library.Views s s.libraryItems := settings.library_rows s
    exact hviews.answers.getsBy hids

/-- The show in the collection is no item of its own, so its id leads nowhere. -/
theorem after_getMany_library :
    let history : List (Settings × Request) :=
      [ ({}, .collections (.write (.create ⟨0, "a", "A", none⟩))),
        ({}, .shows (.write (.create { Show.bare "b" with collections := some [1] }))),
        ({}, .shows (.write (.create (.bare "c")))) ]
    let s := after history
    (s.libraryItems.map LibraryItem.id).Nodup ∧
      ∃ rows, (({} : Settings).library.getMany [-1, 1, 2, -1]).exec s = (.ok rows, s) ∧
        (({} : Settings).library.getEach [-1, 1, 2, -1]).exec s = (.ok rows, s) ∧
        rows.map LibraryItem.slug = ["a", "c", "a"] := by
  intro history s
  have hids : (s.libraryItems.map LibraryItem.id).Nodup := by decide +kernel
  obtain ⟨hmany, heach⟩ := (after_getMany history {}).2.2.2.2.2 hids [-1, 1, 2, -1]
  exact ⟨hids, _, hmany, heach, by decide +kernel⟩

end Catalog
end Repertory
