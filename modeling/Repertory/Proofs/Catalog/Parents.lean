import Repertory.Proofs.Catalog.Checks
import Repertory.Proofs.Catalog.History
import Repertory.Proofs.Catalog.Rename

/-!
# Seasons and episodes have a show

A season or an episode is only stored with a show that is found, and a show is only removed
together with its seasons and episodes. So the show of every season and of every episode is stored,
whatever the history of the catalog is (`after_parented`).
-/

namespace Repertory
namespace Catalog

open Table

def State.HasShow (s : State) (id : Int64) : Prop := ∃ row ∈ s.shows.rows, row.id = id

/-- The show of every season and of every episode is stored. -/
structure Parented (s : State) : Prop where
  seasons : ∀ row ∈ s.seasons.rows, s.HasShow row.showId
  episodes : ∀ row ∈ s.episodes.rows, s.HasShow row.showId

variable {s u : State}

theorem Parented.mono (h : Parented s) (hshows : ∀ id, s.HasShow id → u.HasShow id)
    (hseasons : ∀ row ∈ u.seasons.rows,
      u.HasShow row.showId ∨ ∃ old ∈ s.seasons.rows, old.showId = row.showId)
    (hepisodes : ∀ row ∈ u.episodes.rows,
      u.HasShow row.showId ∨ ∃ old ∈ s.episodes.rows, old.showId = row.showId) : Parented u where
  seasons row hrow := by
    rcases hseasons row hrow with hstored | ⟨old, hold, hsame⟩
    · exact hstored
    · exact hsame ▸ hshows _ (h.seasons old hold)
  episodes row hrow := by
    rcases hepisodes row hrow with hstored | ⟨old, hold, hsame⟩
    · exact hstored
    · exact hsame ▸ hshows _ (h.episodes old hold)

/-- A show can go if its seasons and episodes go too. -/
theorem Parented.withoutShow (h : Parented s) (id : Int64)
    (hshows : ∀ row ∈ s.shows.rows, row.id ≠ id → row ∈ u.shows.rows)
    (hseasons : ∀ row ∈ u.seasons.rows, row ∈ s.seasons.rows ∧ row.showId ≠ id)
    (hepisodes : ∀ row ∈ u.episodes.rows, row ∈ s.episodes.rows ∧ row.showId ≠ id) :
    Parented u := by
  have hstored : ∀ showId, showId ≠ id → s.HasShow showId → u.HasShow showId := by
    rintro _ hne ⟨row, hrow, rfl⟩
    exact ⟨row, hshows row hrow hne, rfl⟩
  constructor
  · intro row hrow
    obtain ⟨hmem, hne⟩ := hseasons row hrow
    exact hstored _ hne (h.seasons row hmem)
  · intro row hrow
    obtain ⟨hmem, hne⟩ := hepisodes row hrow
    exact hstored _ hne (h.episodes row hmem)

/-! ## Shows -/

theorem Parented.place_show {t : Table Show Int64} {row : Show} (h : Parented s)
    (hordered : Ordered s) (ht : t.rows = place row s.shows.rows) :
    Parented { s with shows := t } := by
  refine h.mono (fun id hid => ?_) (fun other hother => Or.inr ⟨other, hother, rfl⟩)
    fun other hother => Or.inr ⟨other, hother, rfl⟩
  rw [State.HasShow, ht]
  exact exists_id_place row hordered.shows hid

theorem exists_of_mem_touch {α : Type} [Resource α Int64] {f : α → α} {ids : List Int64}
    {table : Table α Int64} {row : α} (hrow : row ∈ (table.touch f ids).rows) {β : Type} {g : α → β}
    (hf : ∀ row, g (f row) = g row) : ∃ old ∈ table.rows, g old = g row := by
  obtain ⟨old, hold, rfl⟩ := List.mem_map.mp hrow
  refine ⟨old, hold, ?_⟩
  split
  · exact (hf old).symm
  · rfl

theorem Parented.touch (h : Parented s) (old new : String) (episodes seasons : List Int64) :
    Parented { s with
      episodes := s.episodes.touch (Episode.follow old new) episodes
      seasons := s.seasons.touch (Season.follow old new) seasons } :=
  h.mono (fun _ hid => hid) (fun _ hrow => Or.inr (exists_of_mem_touch hrow fun _ => rfl))
    fun _ hrow => Or.inr (exists_of_mem_touch hrow fun _ => rfl)

theorem Followed.parented {old new : Show} {r : Except RepositoryError Unit}
    (h : Followed old new s r u) (hs : Parented s) : Parented u := by
  obtain ⟨episodes, seasons, rfl⟩ := h.exists_touch
  exact hs.touch old.slug new.slug episodes seasons

theorem showHooks_onDelete {row : Show} {t : Table Show Int64} (h : Parented s)
    (hordered : Ordered s) (hdelete : s.shows.delete row.id = .ok ((), t)) :
    Parented ((showHooks.onDelete row).exec { s with shows := t }).2 := by
  obtain ⟨episodes, seasons, hexec, hepisodes, hseasons⟩ :=
    showHooks_onDelete_exec row { s with shows := t } hordered.episodes hordered.seasons
  rw [hexec]
  refine h.withoutShow row.id (fun other hother hne => ?_) (fun other => (hseasons other).mp)
    fun other => (hepisodes other).mp
  rw [delete_ok hdelete]
  exact List.mem_filter.mpr ⟨hother, decide_eq_true hne⟩

theorem shows_kept : Kept State.showsLens showHooks fun s => Ordered s ∧ Parented s := by
  refine Ordered.invariant.shows.and ?_ ?_ ?_
  · intro s item row stored t hordered h _ hinsert
    exact h.place_show hordered (congrArg Table.rows (insert_ok hinsert).2.2)
  · intro s item row current t hordered h _ hupdate
    have hrows : t.rows = place row s.shows.rows := congrArg Table.rows (update_ok hupdate).2.2.2
    have hfollowed := showHooks_onEdited (s := { s with shows := t }) current row
      hordered.episodes hordered.seasons rfl
    exact hfollowed.parented (h.place_show hordered hrows)
  · intro s row t hordered h hdelete
    exact showHooks_onDelete h hordered hdelete

/-! ## Seasons -/

theorem seasonHooks_validate {item row : Season}
    (h : (seasonHooks.validate item).exec s = (.ok row, s)) : s.HasShow row.showId := by
  have hfst := congrArg Prod.fst h
  rw [seasonHooks_validate_fst] at hfst
  obtain ⟨parent, hparent, hrow⟩ := exists_of_bind_ok hfst
  obtain ⟨rfl, -⟩ := validateSlug_bind_ok hrow
  obtain ⟨hmem, hid⟩ := (parentShow_cases rfl).2 parent hparent
  refine ⟨parent, hmem, hid.trans ?_⟩
  rw [Season.completed]
  split <;> rfl

theorem Parented.place_season {t : Table Season Int64} {row : Season} (h : Parented s)
    (hordered : Ordered s) (hrow : s.HasShow row.showId) (ht : t.rows = place row s.seasons.rows) :
    Parented { s with seasons := t } := by
  refine h.mono (fun _ hid => hid) (fun other hother => ?_)
    fun other hother => Or.inr ⟨other, hother, rfl⟩
  rw [ht] at hother
  rcases (mem_place hordered.seasons).mp hother with rfl | ⟨hother, -⟩
  · exact Or.inl hrow
  · exact Or.inr ⟨other, hother, rfl⟩

theorem Parented.subset (h : Parented s) {seasons : Table Season Int64}
    {episodes : Table Episode Int64} (hseasons : ∀ row ∈ seasons.rows, row ∈ s.seasons.rows)
    (hepisodes : ∀ row ∈ episodes.rows, row ∈ s.episodes.rows) :
    Parented { s with seasons, episodes } :=
  h.mono (fun _ hid => hid) (fun row hrow => Or.inr ⟨row, hseasons row hrow, rfl⟩)
    fun row hrow => Or.inr ⟨row, hepisodes row hrow, rfl⟩

theorem mem_of_delete {α : Type} [Resource α Int64] {table t : Table α Int64} {id : Int64}
    {row : α} (h : table.delete id = .ok ((), t)) (hrow : row ∈ t.rows) : row ∈ table.rows :=
  (List.mem_filter.mp (delete_ok h ▸ hrow)).1

theorem seasonHooks_onDelete {row : Season} {t : Table Season Int64} (h : Parented s)
    (hordered : Ordered s) (hdelete : s.seasons.delete row.id = .ok ((), t)) :
    Parented ((seasonHooks.onDelete row).exec { s with seasons := t }).2 := by
  obtain ⟨episodes, hexec, hepisodes⟩ :=
    seasonHooks_onDelete_exec row { s with seasons := t } hordered.episodes
  rw [hexec]
  exact h.subset (fun _ hother => mem_of_delete hdelete hother)
    fun other hother => ((hepisodes other).mp hother).1

theorem seasons_kept : Kept State.seasonsLens seasonHooks fun s => Ordered s ∧ Parented s := by
  refine Ordered.invariant.seasons.and ?_ ?_ ?_
  · intro s item row stored t hordered h hvalidate hinsert
    obtain ⟨hassign, -, rfl⟩ := insert_ok hinsert
    have hrow := seasonHooks_validate hvalidate
    have hstored : s.HasShow stored.showId := by
      rcases assign_ok hassign with rfl | ⟨id, rfl⟩ <;> exact hrow
    exact h.place_season hordered hstored rfl
  · intro s item row current t hordered h hvalidate hupdate
    exact h.place_season hordered (seasonHooks_validate hvalidate)
      (congrArg Table.rows (update_ok hupdate).2.2.2)
  · intro s row t hordered h hdelete
    exact seasonHooks_onDelete h hordered hdelete

/-! ## Episodes -/

theorem episodeHooks_validate {item row : Episode}
    (h : (episodeHooks.validate item).exec s = (.ok row, s)) : s.HasShow row.showId := by
  have hchecked := episodeHooks_validate_checked h
  obtain ⟨parent, hmem, hid, -⟩ := hchecked.showSlug
  exact ⟨parent, hmem, hid.trans hchecked.showId.symm⟩

theorem Parented.place_episode {t : Table Episode Int64} {row : Episode} (h : Parented s)
    (hordered : Ordered s) (hrow : s.HasShow row.showId)
    (ht : t.rows = place row s.episodes.rows) : Parented { s with episodes := t } := by
  refine h.mono (fun _ hid => hid) (fun other hother => Or.inr ⟨other, hother, rfl⟩)
    fun other hother => ?_
  rw [ht] at hother
  rcases (mem_place hordered.episodes).mp hother with rfl | ⟨hother, -⟩
  · exact Or.inl hrow
  · exact Or.inr ⟨other, hother, rfl⟩

theorem episodeHooks_onDelete {row : Episode} {t : Table Episode Int64} (h : Parented s)
    (hordered : Ordered s) (hdelete : s.episodes.delete row.id = .ok ((), t)) :
    Parented ((episodeHooks.onDelete row).exec { s with episodes := t }).2 := by
  have hcases := episodeHooks_onDelete_exec row { s with episodes := t } hordered.seasons
  rcases hcases with hsame | ⟨hgone, seasons, hexec, hseasons⟩
  · rw [hsame]
    exact h.subset (fun _ hother => hother) fun _ hother => mem_of_delete hdelete hother
  · rw [hexec]
    refine h.withoutShow row.showId (fun other hother hne => ?_) (fun other => (hseasons other).mp)
      fun other hother => ⟨mem_of_delete hdelete hother, hgone other hother⟩
    exact mem_without.mpr ⟨hother, fun hid => hne (List.mem_singleton.mp hid)⟩

theorem episodes_kept : Kept State.episodesLens episodeHooks fun s => Ordered s ∧ Parented s := by
  refine Ordered.invariant.episodes.and ?_ ?_ ?_
  · intro s item row stored t hordered h hvalidate hinsert
    obtain ⟨hassign, -, rfl⟩ := insert_ok hinsert
    have hrow := episodeHooks_validate hvalidate
    have hstored : s.HasShow stored.showId := by
      rcases assign_ok hassign with rfl | ⟨id, rfl⟩ <;> exact hrow
    exact h.place_episode hordered hstored rfl
  · intro s item row current t hordered h hvalidate hupdate
    exact h.place_episode hordered (episodeHooks_validate hvalidate)
      (congrArg Table.rows (update_ok hupdate).2.2.2)
  · intro s row t hordered h hdelete
    exact episodeHooks_onDelete h hordered hdelete

/-! ## The whole catalog -/

theorem studios_kept :
    Kept State.studiosLens Hooks.plain fun s => Ordered s ∧ Parented s :=
  Ordered.invariant.studios.and (fun _ h _ _ => ⟨h.seasons, h.episodes⟩)
    (fun _ h _ _ => ⟨h.seasons, h.episodes⟩) fun _ h _ => ⟨h.seasons, h.episodes⟩

theorem show_update_keeps (item : Show) :
    (showStore.update item).Keeps fun s => Ordered s ∧ Parented s := by
  intro s hs
  rw [showStore, store_update]
  cases hupdate : (State.showsLens.get s).update item with
  | error e => exact hs
  | ok result =>
    exact ⟨Ordered.shows_stable.update hs.1 hupdate,
      hs.2.place_show hs.1 (congrArg Table.rows (update_ok hupdate).2.2.2)⟩

theorem collections_kept :
    Kept State.collectionsLens collectionHooks fun s => Ordered s ∧ Parented s := by
  refine Ordered.invariant.collections.and ?_ ?_ ?_
  · exact fun _ h _ _ => ⟨h.seasons, h.episodes⟩
  · exact fun _ h _ _ => ⟨h.seasons, h.episodes⟩
  · intro s row t hordered h hdelete
    have hkept := collectionHooks_onDelete_keeps show_update_keeps row { s with collections := t }
    exact (hkept ⟨Ordered.collections_stable.delete hordered hdelete, ⟨h.seasons, h.episodes⟩⟩).2

theorem parented_invariant : Invariant fun s => Ordered s ∧ Parented s where
  empty := ⟨Ordered.invariant.empty, ⟨List.forall_mem_nil _, List.forall_mem_nil _⟩⟩
  studios := studios_kept
  collections := collections_kept
  shows := shows_kept
  seasons := seasons_kept
  episodes := episodes_kept

/-- Every season and every episode belongs to a stored show, whatever was done to the catalog. -/
theorem after_parented (history : List (Settings × Request)) : Parented (after history) :=
  (parented_invariant.after history).2

end Catalog
end Repertory
