import Repertory.Proofs.Catalog.Checks
import Repertory.Proofs.Catalog.Keys
import Repertory.Proofs.Catalog.Rename
import Repertory.Proofs.Repository.Lookup

/-!
# Slugs of a catalog

A row is stored with an admissible slug, and the slugs that follow a show stay admissible although
nothing checks them again: a hyphen behind an admissible beginning cannot be undone by what comes
behind it. So every stored row has an admissible slug (`after_addressable`), and is found under it
as well as under its id (`after_addresses`).
-/

namespace Repertory
namespace Catalog

open Table

/-- Every row can be addressed by its slug. -/
structure Addressable (s : State) : Prop where
  studios : AdmissibleSlugs s.studios.rows
  collections : AdmissibleSlugs s.collections.rows
  shows : AdmissibleSlugs s.shows.rows
  seasons : AdmissibleSlugs s.seasons.rows
  episodes : AdmissibleSlugs s.episodes.rows

/-! ## Slugs that follow a show -/

theorem rebaseSlug_admissible {old new slug : String} (hnew : AdmissibleSlug Int64 new)
    (hslug : AdmissibleSlug Int64 slug) :
    AdmissibleSlug Int64 ((rebaseSlug old new slug).getD slug) := by
  rw [rebaseSlug]
  split
  · dsimp only
    split
    · rename_i hhead
      obtain ⟨rest, hrest⟩ := List.head?_eq_some_iff.mp hhead
      rw [hrest]
      exact hnew.continued rest
    · exact hslug
  · exact hslug

theorem Followed.addressable {old new : Show} {s u : State} {r : Except RepositoryError Unit}
    (h : Followed old new s r u) (hnew : AdmissibleSlug Int64 new.slug) (hs : Addressable s) :
    Addressable u := by
  have hepisodes : ∀ ids,
      AdmissibleSlugs (s.episodes.touch (Episode.follow old.slug new.slug) ids).rows :=
    hs.episodes.touch fun row => rebaseSlug_admissible hnew
  have hseasons : ∀ ids,
      AdmissibleSlugs (s.seasons.touch (Season.follow old.slug new.slug) ids).rows :=
    hs.seasons.touch fun row => rebaseSlug_admissible hnew
  cases h with
  | nothing => exact hs
  | done => exact { hs with episodes := hepisodes _, seasons := hseasons _ }
  | atEpisode _ hstop =>
    obtain ⟨front, rest, -, rfl, -⟩ := hstop
    exact { hs with episodes := hepisodes _ }
  | atSeason _ hstop =>
    obtain ⟨front, rest, -, rfl, -⟩ := hstop
    exact { hs with episodes := hepisodes _, seasons := hseasons _ }

/-! ## Histories -/

section

variable {α : Type} [Resource α Int64] {lens : Lens State (Table α Int64)} {hooks : Hooks State α}
  (hset : ∀ {s t}, Addressable s → AdmissibleSlugs t.rows → Addressable (lens.set t s))
  (hget : ∀ {s}, Addressable s → AdmissibleSlugs (lens.get s).rows)

variable (lens) in
include hset hget in
theorem delete_keeps_addressable (id : Int64) :
    ((Table.store lens).delete id).Keeps Addressable := by
  intro s hs
  obtain ⟨r, hexec, -⟩ := delete_exec lens id s
  rw [hexec]
  exact hset hs ((hget hs).without [id])

variable (lens) in
include hset hget in
theorem update_keeps_addressable {item : α} (hitem : AdmissibleSlug Int64 (Resource.slug item)) :
    ((Table.store lens).update item).Keeps Addressable := by
  intro s hs
  rw [store_update]
  cases hupdate : (lens.get s).update item with
  | error e => exact hs
  | ok result => exact hset hs ((hget hs).update hitem hupdate)

include hset hget in
theorem addressable_kept (hkept : Kept lens hooks Ordered) (hstable : Stable lens Ordered)
    (hchecks : Repository.Checks lens hooks.validate)
    (hedited : ∀ {s old new}, Ordered s → Addressable s →
      AdmissibleSlug Int64 (Resource.slug new) →
      Addressable ((hooks.onEdited old new).exec s).2)
    (hdelete : ∀ row, (hooks.onDelete row).Keeps Addressable) :
    Kept lens hooks fun s => Ordered s ∧ Addressable s := by
  refine hkept.and ?_ ?_ ?_
  · intro s item row stored t _ h hvalidate hinsert
    have hrow := hchecks.admissible (congrArg Prod.fst hvalidate)
    exact hset h ((hget h).insert hrow hinsert)
  · intro s item row current t hordered h hvalidate hupdate
    have hrow := hchecks.admissible (congrArg Prod.fst hvalidate)
    exact hedited (hstable.update hordered hupdate) (hset h ((hget h).update hrow hupdate)) hrow
  · intro s row t _ h hdeleted
    have hrows : AdmissibleSlugs t.rows := fun other hother =>
      hget h other (List.mem_filter.mp (delete_ok hdeleted ▸ hother)).1
    exact hdelete row _ (hset h hrows)

end

theorem addressable_invariant : Invariant fun s => Ordered s ∧ Addressable s := by
  have hshows := delete_keeps_addressable State.showsLens
    (fun hs ht => { hs with shows := ht }) Addressable.shows
  have hseasons := delete_keeps_addressable State.seasonsLens
    (fun hs ht => { hs with seasons := ht }) Addressable.seasons
  have hepisodes := delete_keeps_addressable State.episodesLens
    (fun hs ht => { hs with episodes := ht }) Addressable.episodes
  constructor
  case empty =>
    exact ⟨Ordered.invariant.empty, ⟨List.forall_mem_nil _, List.forall_mem_nil _,
      List.forall_mem_nil _, List.forall_mem_nil _, List.forall_mem_nil _⟩⟩
  case studios =>
    exact addressable_kept (fun hs ht => { hs with studios := ht }) Addressable.studios
      Ordered.invariant.studios Ordered.studios_stable (plain_checks _) (fun _ hs _ => hs)
      fun _ _ hs => hs
  case collections =>
    refine addressable_kept (fun hs ht => { hs with collections := ht }) Addressable.collections
      Ordered.invariant.collections Ordered.collections_stable (plain_checks _) (fun _ hs _ => hs)
      (collectionHooks_onDelete_keeps_of_mem fun hs row hrow _ => ?_)
    exact update_keeps_addressable State.showsLens
      (fun hs ht => { hs with shows := ht }) Addressable.shows (hs.shows row hrow)
  case shows =>
    refine addressable_kept (fun hs ht => { hs with shows := ht }) Addressable.shows
      Ordered.invariant.shows Ordered.shows_stable (plain_checks _) (fun hordered hs hnew => ?_)
      (showHooks_onDelete_keeps hseasons hepisodes)
    exact (showHooks_onEdited _ _ hordered.episodes hordered.seasons rfl).addressable hnew hs
  case seasons =>
    exact addressable_kept (fun hs ht => { hs with seasons := ht }) Addressable.seasons
      Ordered.invariant.seasons Ordered.seasons_stable seasonHooks_checks (fun _ hs _ => hs)
      (seasonHooks_onDelete_keeps hepisodes)
  case episodes =>
    exact addressable_kept (fun hs ht => { hs with episodes := ht }) Addressable.episodes
      Ordered.invariant.episodes Ordered.episodes_stable episodeHooks_checks (fun _ hs _ => hs)
      (episodeHooks_onDelete_keeps hshows hseasons)

/-- Every stored row has an admissible slug, whatever was done to the catalog. -/
theorem after_addressable (history : List (Settings × Request)) : Addressable (after history) :=
  (addressable_invariant.after history).2

/-- Every stored row is found under its id and under its slug, whatever was done to the catalog. -/
theorem after_addresses (history : List (Settings × Request)) (settings : Settings) :
    let s := after history
    (∀ row ∈ s.studios.rows, settings.studios.Addresses s.studios s row) ∧
      (∀ row ∈ s.shows.rows, settings.shows.Addresses s.shows s row) ∧
      (∀ row ∈ s.seasons.rows, settings.seasons.Addresses s.seasons s row) ∧
      (∀ row ∈ s.episodes.rows, settings.episodes.Addresses s.episodes s row) ∧
      ∀ row ∈ s.collections.rows, settings.collections.Addresses s.collections s row := by
  intro s
  have hkeyed : Keyed s := after_keyed history
  have hslugs : Addressable s := after_addressable history
  refine ⟨fun row hrow => ?_, fun row hrow => ?_, fun row hrow => ?_, fun row hrow => ?_,
    fun row hrow => ?_⟩
  · exact Repository.addresses_of_mem State.studiosLens hkeyed.studios hslugs.studios hrow
  · exact Repository.addresses_of_mem State.showsLens hkeyed.shows hslugs.shows hrow
  · exact Repository.addresses_of_mem State.seasonsLens hkeyed.seasons hslugs.seasons hrow
  · exact Repository.addresses_of_mem State.episodesLens hkeyed.episodes hslugs.episodes hrow
  · exact Repository.addresses_of_mem State.collectionsLens hkeyed.collections hslugs.collections
      hrow

end Catalog
end Repertory
