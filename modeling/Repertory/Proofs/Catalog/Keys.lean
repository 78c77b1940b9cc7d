import Repertory.Proofs.Catalog.History
import Repertory.Proofs.Store.Calls

/-!
# Keys of a catalog

Rows are changed through their tables only, also where they follow the change of another row. So
what a table looks after itself holds in every catalog (`after_keyed`): the ids and the slugs of its
rows differ, and none of its ids was given out before.
-/

namespace Repertory
namespace Catalog

open Table

/-- The ids and the slugs of every table are keys of its rows. -/
structure Keyed (s : State) : Prop where
  studios : Sound s.studios
  collections : Sound s.collections
  shows : Sound s.shows
  seasons : Sound s.seasons
  episodes : Sound s.episodes

/-- If `I` is about the keys of a table and other tables, all changes keep it. -/
theorem stable_of_sound {α : Type} [Resource α Int64] {lens : Lens State (Table α Int64)}
    {I : State → Prop} (hset : ∀ {s t}, I s → Sound t → I (lens.set t s))
    (hget : ∀ {s}, I s → Sound (lens.get s)) : Stable lens I where
  insert {s item row t} hs hinsert := by
    have hsound : Sound (lens.get s) := hget hs
    have hchanges : (Call.insert item).Changes (lens.get s) t := hsound.insert_changes hinsert
    exact hset hs (hchanges.sound hsound)
  update {s item row t} hs hupdate := by
    have hsound : Sound (lens.get s) := hget hs
    have hchanges : (Call.update item).Changes (lens.get s) t :=
      update_changes hsound.ascending hupdate
    exact hset hs (hchanges.sound hsound)
  delete {s id t} hs hdelete := by
    have hsound : Sound (lens.get s) := hget hs
    have hchanges : (Call.delete id).Changes (lens.get s) t :=
      delete_changes hsound.ascending hdelete
    exact hset hs (hchanges.sound hsound)

namespace Keyed

theorem empty : Keyed .empty := ⟨Sound.empty, Sound.empty, Sound.empty, Sound.empty, Sound.empty⟩

theorem studios_stable : Stable State.studiosLens Keyed :=
  stable_of_sound (fun hs ht => { hs with studios := ht }) Keyed.studios

theorem collections_stable : Stable State.collectionsLens Keyed :=
  stable_of_sound (fun hs ht => { hs with collections := ht }) Keyed.collections

theorem shows_stable : Stable State.showsLens Keyed :=
  stable_of_sound (fun hs ht => { hs with shows := ht }) Keyed.shows

theorem seasons_stable : Stable State.seasonsLens Keyed :=
  stable_of_sound (fun hs ht => { hs with seasons := ht }) Keyed.seasons

theorem episodes_stable : Stable State.episodesLens Keyed :=
  stable_of_sound (fun hs ht => { hs with episodes := ht }) Keyed.episodes

theorem invariant : Invariant Keyed :=
  invariant_of_stable empty studios_stable collections_stable shows_stable seasons_stable
    episodes_stable

end Keyed

theorem after_keyed (history : List (Settings × Request)) : Keyed (after history) :=
  Keyed.invariant.after history

end Catalog
end Repertory
