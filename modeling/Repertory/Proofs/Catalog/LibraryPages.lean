import Repertory.Proofs.Catalog.Library
import Repertory.Proofs.Order.Compiled

/-!
# Pages of the library

Where no two items of the library share an id, the library pages like a table of its items: a walk
gives every collection and every show outside of collections once (`library_pages`). Slugs that
shows and collections share make no difference, and neither does which of the two are read first.
-/

namespace Repertory
namespace Catalog

open Repository

theorem LibraryItem.schema_closed : (Resource.schema (α := LibraryItem)).Closed where
  id := List.mem_cons_self
  defaultSort term hterm := by
    obtain rfl := List.mem_singleton.mp hterm
    exact List.mem_cons_of_mem _ (List.mem_cons_of_mem _ List.mem_cons_self)

theorem State.loneShows_eq (s : State) :
    s.loneShows =
      s.shows.rows.filter fun row => row.collections = none ∨ row.collections = some [] := by
  refine List.filter_congr fun row _ => ?_
  rw [Show.isCollected]
  rcases row.collections with _ | _ | ⟨id, rest⟩ <;> simp

/-- If ids are distinct, then from the first page on a walk through the library comes to an end. Its
pages hold one item for each stored collection and for each stored show that is in none, as far as
the filter is true of them, in the order asked for. They are counted right and are found by their
ids, and all that stays the same if the sources come in another order. -/
theorem library_pages (history : List (Settings × Request)) (settings : Settings)
    (filter : Option (Filter LibraryItem Int64)) {sorting : Sorting LibraryItem}
    (hsorting : sorting.Declared) {limit : Nat} (hlimit : 0 < limit) (backwards : Bool)
    (hids : ((after history).libraryItems.map LibraryItem.id).Nodup) :
    let s := after history
    let q : ListQuery State LibraryItem Int64 :=
      { filter, sorting, pagination := { limit, backwards } }
    let order := Page.direction sorting q.pagination
    let lone := s.shows.rows.filter fun row => row.collections = none ∨ row.collections = some []
    let items := lone.map LibraryItem.ofShow ++ s.collections.rows.map LibraryItem.ofCollection
    let matching := items.filter (Query.selects filter)
    ∃ pages, Page.Tiles limit backwards pages (order.sort matching) ∧
      (order.sort matching).Perm matching ∧ order.Rising (order.sort matching) ∧
      ∀ sources, sources.Perm librarySources →
        let library : Repository State LibraryItem Int64 :=
          .union sources settings.engine.searchLimit settings.seed
        library.Walk s q pages ∧
          (library.count filter).exec s = (.ok (pages.flatMap Page.items).length, s) ∧
          ∀ page ∈ pages, ∀ item ∈ page.items,
            (library.get (.id item.id)).exec s = (.ok item, s) := by
  intro s q order lone items matching
  have hitems : s.libraryItems = items := by
    rw [State.libraryItems, State.loneShows_eq]
  have hids : (items.map Resource.id).Nodup := hitems ▸ hids
  have hrows : ∀ item ∈ items, sorting.compile.ConformsAt item := fun item _ =>
    (OrderBy.Compiled.compile hsorting).conformsAt LibraryItem.schema_closed item.conforms
  have hsub : matching.Sublist items := List.filter_sublist
  have hrising : order.Rising (order.sort matching) :=
    OrderBy.sort_rising (Page.direction_breaksTies sorting q.pagination)
      (fun item hitem => Page.direction_conformsAt (hrows item (hsub.subset hitem)) q.pagination)
      ((hsub.map Resource.id).nodup hids)
  have hperm : (order.sort matching).Perm matching := OrderBy.sort_perm order matching
  obtain ⟨pages, htiles, hwalk⟩ :=
    exists_walk_of_views s filter backwards hlimit hids hrows
  refine ⟨pages, htiles, hperm, hrising, fun sources hsources => ?_⟩
  intro library
  have hviews : library.Views s (sources.flatMap fun source => source.part s) :=
    union_views (fun source hsource => librarySources_read s source (hsources.mem_iff.mp hsource))
      _ _
  have hparts : (sources.flatMap fun source => source.part s).Perm items := by
    rw [← hitems, ← flatMap_librarySources]
    exact hsources.flatMap_right _
  refine ⟨hwalk hviews hparts, ?_, fun page hpage item hitem => ?_⟩
  · rw [hviews.count hparts, htiles.length_items, hperm.length_eq]
  · have hmatching : item ∈ matching := hperm.mem_iff.mp (htiles.mem_rows hpage hitem)
    exact hviews.get hparts hids (hsub.subset hmatching)

/-- A collection and a show with one slug, a show in the collection, and a show that was taken out
of all collections. -/
def sharedSlug : List (Settings × Request) :=
  [ ({}, .collections (.write (.create ⟨0, "a", "A", none⟩))),
    ({}, .shows (.write (.create (.bare "a")))),
    ({}, .shows (.write (.create { Show.bare "b" with collections := some [1] }))),
    ({}, .shows (.write (.create { Show.bare "c" with collections := some [] }))) ]

/-- Two to a page and backwards, with the collections read before the shows. -/
theorem library_pages_sharedSlug :
    let sorting : Sorting LibraryItem := [.by LibraryItem.kindField true]
    let library : Repository State LibraryItem Int64 := .union librarySources.reverse 20 0
    sorting.Declared ∧ 0 < 2 ∧ ((after sharedSlug).libraryItems.map LibraryItem.id).Nodup ∧
      ∃ pages,
        library.Walk (after sharedSlug) { sorting, pagination := { limit := 2, backwards := true } }
          pages ∧
        (pages.flatMap (Page.filled true)).map LibraryItem.id = [-1, 1, 3] := by
  intro sorting library
  have hsorting : sorting.Declared := by
    intro field descending hterm
    cases List.mem_singleton.mp hterm
    simp [Resource.schema, LibraryItem.schema]
  have hids : ((after sharedSlug).libraryItems.map LibraryItem.id).Nodup := by decide +kernel
  obtain ⟨pages, htiles, -, -, hviews⟩ :=
    library_pages sharedSlug {} none hsorting (show 0 < 2 by decide) true hids
  refine ⟨hsorting, by decide, hids, pages, ?_, ?_⟩
  · exact (hviews librarySources.reverse (List.reverse_perm _)).1
  · rw [htiles.flatMap_filled]
    decide +kernel

end Catalog
end Repertory
