import Repertory.Proofs.Catalog.Checks
import Repertory.Proofs.Catalog.Edits
import Repertory.Proofs.Catalog.FailedWrites
import Repertory.Proofs.Catalog.Keys
import Repertory.Proofs.Catalog.Parents
import Repertory.Proofs.Repository.Listing

/-!
# The slug that episodes copy from their show

An episode holds a copy of its show's slug, which validation fills in and the renaming of the show
renews, row by row. It can only go wrong where that comes to a stop, and then the request to change
the show fails. So after requests of which none that changed a show failed, the copies are right,
and the episodes of a show are the same whether its id or its slug is asked for
(`after_episodesOf`).
-/

namespace Repertory
namespace Catalog

open Table

/-! ## Copies of slugs -/

/-- Every episode has the slug of its show. -/
def Slugged (s : State) : Prop :=
  ∀ episode ∈ s.episodes.rows, ∀ parent ∈ s.shows.rows,
    parent.id = episode.showId → parent.slug = episode.showSlug

/-- Shows and episodes may be gone, and shows may have changed in all but their ids and slugs. -/
structure Narrows (s u : State) : Prop where
  shows : ∀ row ∈ u.shows.rows, ∃ old ∈ s.shows.rows, old.id = row.id ∧ old.slug = row.slug
  episodes : ∀ row ∈ u.episodes.rows, row ∈ s.episodes.rows

variable {s u : State}

theorem Narrows.slugged (h : Narrows s u) (hs : Slugged s) : Slugged u := by
  intro episode hepisode parent hparent hid
  obtain ⟨old, hold, holdId, holdSlug⟩ := h.shows parent hparent
  have hcopy := hs episode (h.episodes episode hepisode) old hold (holdId.trans hid)
  exact holdSlug.symm.trans hcopy

theorem Narrows.of_subset (hshows : ∀ row ∈ u.shows.rows, row ∈ s.shows.rows)
    (hepisodes : ∀ row ∈ u.episodes.rows, row ∈ s.episodes.rows) : Narrows s u where
  shows row hrow := ⟨row, hshows row hrow, rfl, rfl⟩
  episodes := hepisodes

theorem Narrows.refl (s : State) : Narrows s s :=
  .of_subset (fun _ hrow => hrow) fun _ hrow => hrow

theorem Narrows.trans {v : State} (h : Narrows s u) (h' : Narrows u v) : Narrows s v where
  shows row hrow := by
    obtain ⟨middle, hmiddle, hid, hslug⟩ := h'.shows row hrow
    obtain ⟨old, hold, hid', hslug'⟩ := h.shows middle hmiddle
    exact ⟨old, hold, hid'.trans hid, hslug'.trans hslug⟩
  episodes row hrow := h.episodes row (h'.episodes row hrow)

/-! ## Removals -/

theorem delete_keeps_narrows {α : Type} [Resource α Int64] {lens : Lens State (Table α Int64)}
    (h : ∀ u id, Narrows u (lens.set ((lens.get u).without [id]) u)) (s : State) (id : Int64) :
    ((Table.store lens).delete id).Keeps (Narrows s) := by
  intro u hu
  obtain ⟨r, hexec, -⟩ := delete_exec lens id u
  rw [hexec]
  exact hu.trans (h u id)

theorem shows_delete_narrows (s : State) (id : Int64) :
    (showStore.delete id).Keeps (Narrows s) :=
  delete_keeps_narrows
    (fun _ _ => .of_subset (fun _ hrow => (mem_without.mp hrow).1) fun _ hrow => hrow) s id

theorem seasons_delete_narrows (s : State) (id : Int64) :
    (seasonStore.delete id).Keeps (Narrows s) :=
  delete_keeps_narrows (fun _ _ => .of_subset (fun _ hrow => hrow) fun _ hrow => hrow) s id

theorem episodes_delete_narrows (s : State) (id : Int64) :
    (episodeStore.delete id).Keeps (Narrows s) :=
  delete_keeps_narrows
    (fun _ _ => .of_subset (fun _ hrow => hrow) fun _ hrow => (mem_without.mp hrow).1) s id

/-- A show that leaves a collection keeps its id and slug. -/
theorem leaveCollection_narrows {row : Show} (hrow : ∃ old ∈ s.shows.rows,
    old.id = row.id ∧ old.slug = row.slug) (collections : Option (List Int64)) :
    (showStore.update { row with collections }).Keeps (Narrows s) := by
  intro u hu
  rw [showStore, store_update]
  cases hupdate : (State.showsLens.get u).update { row with collections } with
  | error e => exact hu
  | ok result =>
    obtain ⟨updated, t⟩ := result
    obtain ⟨rfl, -, -, rfl⟩ := update_ok hupdate
    refine ⟨fun other hother => ?_, hu.episodes⟩
    rcases mem_or_mem_of_place hother with rfl | hother
    · exact hrow
    · exact hu.shows other hother

/-! ## Changes of other rows -/

/-- What the copies rest on: ids and slugs are keys, and the show of each episode is stored. -/
def Grounded (s : State) : Prop := Keyed s ∧ Ordered s ∧ Parented s

theorem grounded : Invariant Grounded := Keyed.invariant.both parented_invariant

theorem Slugged.place_episode {t : Table Episode Int64} {row : Episode} (h : Slugged s)
    (hcopy : ∀ parent ∈ s.shows.rows, parent.id = row.showId → parent.slug = row.showSlug)
    (ht : t.rows = place row s.episodes.rows) : Slugged { s with episodes := t } := by
  intro episode hepisode
  rcases mem_or_mem_of_place (show episode ∈ place row s.episodes.rows from ht ▸ hepisode) with
    rfl | hold
  · exact hcopy
  · exact h episode hold

/-- Validation copies the slug of the one show with the episode's show id. -/
theorem episodeHooks_validate_slug (hids : Ascending s.shows.rows) {item row : Episode}
    (h : (episodeHooks.validate item).exec s = (.ok row, s)) :
    ∀ parent ∈ s.shows.rows, parent.id = row.showId → parent.slug = row.showSlug := by
  have hchecked := episodeHooks_validate_checked h
  obtain ⟨found, hmem, hid, hslug⟩ := hchecked.showSlug
  intro parent hstored hsame
  rw [hids.eq_of_id_eq hstored hmem (hsame.trans (hchecked.showId.trans hid.symm)), hslug]

theorem episodes_kept_slugged :
    Kept State.episodesLens episodeHooks fun s => Grounded s ∧ Slugged s := by
  refine grounded.episodes.and ?_ ?_ ?_
  · intro s item row stored t hs h hvalidate hinsert
    obtain ⟨hassign, -, rfl⟩ := insert_ok hinsert
    have hcopy := episodeHooks_validate_slug hs.2.1.shows hvalidate
    refine h.place_episode ?_ rfl
    rcases assign_ok hassign with rfl | ⟨id, rfl⟩ <;> exact hcopy
  · intro s item row current t hs h hvalidate hupdate
    exact h.place_episode (episodeHooks_validate_slug hs.2.1.shows hvalidate)
      (congrArg Table.rows (update_ok hupdate).2.2.2)
  · intro s row t _ h hdelete
    have hnarrows : Narrows s (State.episodesLens.set t s) :=
      .of_subset (fun _ hrow => hrow) fun _ hrow => mem_of_delete hdelete hrow
    exact (episodeHooks_onDelete_keeps (shows_delete_narrows s) (seasons_delete_narrows s) row _
      hnarrows).slugged h

theorem seasons_kept_slugged :
    Kept State.seasonsLens seasonHooks fun s => Grounded s ∧ Slugged s := by
  refine grounded.seasons.and (fun _ h _ _ => h) (fun _ h _ _ => h) ?_
  intro s row t _ h _
  have hnarrows := seasonHooks_onDelete_keeps
    (episodes_delete_narrows (State.seasonsLens.set t s)) row _ (Narrows.refl _)
  exact hnarrows.slugged h

theorem studios_kept_slugged :
    Kept State.studiosLens Hooks.plain fun s => Grounded s ∧ Slugged s :=
  grounded.studios.and (fun _ h _ _ => h) (fun _ h _ _ => h) fun _ h _ => h

theorem collections_kept_slugged :
    Kept State.collectionsLens collectionHooks fun s => Grounded s ∧ Slugged s := by
  refine grounded.collections.and (fun _ h _ _ => h) (fun _ h _ _ => h) ?_
  intro s row t _ h _
  have hkeeps : (collectionHooks.onDelete row).Keeps (Narrows (State.collectionsLens.set t s)) :=
    collectionHooks_onDelete_keeps_of_mem
      (fun hu member hmember => leaveCollection_narrows (hu.shows member hmember)) row
  exact (hkeeps _ (Narrows.refl _)).slugged h

/-! ## Changes of shows -/

/-- The episodes of a changed show have its new slug, and all others are as they were. -/
theorem mem_followEpisodes {old new : Show} (hids : Ascending s.episodes.rows) {episode : Episode}
    (h : episode ∈ (s.followEpisodes old new).episodes.rows) :
    episode.showId = new.id ∧ episode.showSlug = new.slug ∨
      episode ∈ s.episodes.rows ∧ episode.showId ≠ new.id := by
  rw [State.followEpisodes, State.episodesOf, touch_filter _ hids] at h
  obtain ⟨before, hbefore, rfl⟩ := List.mem_map.mp h
  by_cases hshow : before.showId = new.id
  · rw [if_pos (decide_eq_true hshow)]
    exact Or.inl ⟨hshow, rfl⟩
  · rw [if_neg (by simpa using hshow)]
    exact Or.inr ⟨hbefore, hshow⟩

/-- Once all episodes of a changed show have followed, they have its slug. -/
theorem Followed.slugged {old new : Show} {t : Table Show Int64}
    (h : Followed old new { s with shows := t } (.ok ()) u) (hs : Slugged s) (hordered : Ordered s)
    (hold : old ∈ s.shows.rows) (hid : new.id = old.id)
    (ht : t.rows = place new s.shows.rows) : Slugged u := by
  have hstored : ∀ parent ∈ t.rows, parent = new ∨ parent ∈ s.shows.rows ∧ parent.id ≠ new.id := by
    intro parent hparent
    rw [ht] at hparent
    exact (mem_place hordered.shows).mp hparent
  cases h with
  | nothing hslug =>
    intro episode hepisode parent hparent hsame
    rcases hstored parent hparent with rfl | ⟨hother, -⟩
    · exact hslug.symm.trans (hs episode hepisode old hold (hid.symm.trans hsame))
    · exact hs episode hepisode parent hother hsame
  | done =>
    intro episode hepisode parent hparent hsame
    have hfollow := mem_followEpisodes (s := { s with shows := t }) hordered.episodes hepisode
    rcases hfollow with ⟨hshow, hslug⟩ | ⟨hepisode, hshow⟩
    · rcases hstored parent hparent with rfl | ⟨-, hne⟩
      · exact hslug.symm
      · exact absurd (hsame.trans hshow) hne
    · rcases hstored parent hparent with rfl | ⟨hother, -⟩
      · exact absurd hsame.symm hshow
      · exact hs episode hepisode parent hother hsame

theorem shows_keptIfDone_slugged :
    KeptIfDone State.showsLens showHooks fun s => Grounded s ∧ Slugged s where
  validate := plain_readOnly
  insert {s item row stored t} hs hvalidate hinsert := by
    refine ⟨grounded.shows.insert hs.1 hvalidate hinsert, ?_⟩
    obtain ⟨⟨hkeyed, -, hparented⟩, h⟩ := hs
    obtain ⟨hassign, -, rfl⟩ := insert_ok hinsert
    have hfree := hkeyed.shows.id_free hassign
    -- No episode waits for the new show, since the show of each episode is stored already.
    intro episode hepisode parent hparent hid
    rcases mem_or_mem_of_place hparent with rfl | hold
    · obtain ⟨old, hold, hid'⟩ := hparented.episodes episode hepisode
      exact absurd (hid'.trans hid.symm) (hfree old hold)
    · exact h episode hepisode parent hold hid
  update {s changes row current t u} hs hcurrent hvalidate hupdate hedited := by
    have hgrounded : Grounded ((showHooks.onEdited current row).exec (State.showsLens.set t s)).2 :=
      grounded.shows.update hs.1 hvalidate hupdate
    rw [hedited] at hgrounded
    refine ⟨hgrounded, ?_⟩
    obtain ⟨⟨-, hordered, -⟩, h⟩ := hs
    have hfollowed := showHooks_onEdited (s := { s with shows := t }) current row
      hordered.episodes hordered.seasons hedited
    have hid : row.id = current.id := by
      rw [plain_validate_ok hvalidate]
      rfl
    exact hfollowed.slugged h hordered hcurrent hid (congrArg Table.rows (update_ok hupdate).2.2.2)
  delete {s row t} hs hdelete := by
    refine ⟨grounded.shows.delete hs.1 hdelete, ?_⟩
    have hnarrows : Narrows s (State.showsLens.set t s) :=
      .of_subset (fun _ hrow => mem_of_delete hdelete hrow) fun _ hrow => hrow
    have hkeeps := showHooks_onDelete_keeps (seasons_delete_narrows s) (episodes_delete_narrows s)
      row
    exact (hkeeps _ hnarrows).slugged hs.2

theorem slugged_invariant :
    InvariantIfDone fun s => Grounded s ∧ Slugged s where
  empty := ⟨grounded.empty, List.forall_mem_nil _⟩
  studios := studios_kept_slugged
  collections := collections_kept_slugged
  shows := shows_keptIfDone_slugged
  seasons := seasons_kept_slugged
  episodes := episodes_kept_slugged

/-! ## The episodes of a show -/

/-- An episode has the slug of a stored show exactly if it has its id. -/
theorem showSlug_eq_iff (hkeyed : Keyed s) (hparented : Parented s) (h : Slugged s)
    {episode : Episode} (hepisode : episode ∈ s.episodes.rows) {parent : Show}
    (hparent : parent ∈ s.shows.rows) :
    episode.showSlug = parent.slug ↔ episode.showId = parent.id := by
  constructor
  · intro hslug
    obtain ⟨other, hother, hid⟩ := hparented.episodes episode hepisode
    have hcopy := h episode hepisode other hother hid
    have hsame : other = parent := hkeyed.shows.eq_of_slug_eq hother hparent (hcopy.trans hslug)
    rw [← hsame, hid]
  · intro hid
    exact (h episode hepisode parent hparent hid.symm).symm

/-- Where the copies are right, the episodes of a show are the same under its id and its slug. -/
theorem episodesOf_slug (settings : Settings) (q : ListQuery State Episode Int64) {parent : Show}
    (hsame : ∀ episode ∈ s.episodes.rows,
      (episode.showSlug = parent.slug ↔ episode.showId = parent.id)) :
    (settings.episodesOf (.id parent.id) q).exec s =
      (settings.episodesOf (.slug parent.slug) q).exec s := by
  refine Repository.list_congr fun episode hepisode => ?_
  have hid : (Filter.cmp .eq Episode.showIdField (.int parent.id) : Filter Episode Int64).isMatch
      episode = decide (episode.showId = parent.id) := by
    rw [Bool.eq_iff_iff, decide_eq_true_iff]
    exact Eq.to_iff (Filter.isMatch_eq_toValue rfl parent.id)
  have hslug : (Filter.cmp .eq Episode.showSlugField (.text parent.slug) :
      Filter Episode Int64).isMatch episode = decide (episode.showSlug = parent.slug) :=
    Filter.isMatch_eq_text rfl parent.slug
  have hmatch : decide (episode.showSlug = parent.slug) = decide (episode.showId = parent.id) :=
    decide_eq_decide.mpr (hsame episode hepisode)
  show Query.selects (Filter.all
      [some (.cmp .eq Episode.showIdField (.int parent.id)), q.filter]) episode =
    Query.selects (Filter.all
      [some (.cmp .eq Episode.showSlugField (.text parent.slug)), q.filter]) episode
  rw [Filter.selects_all, Filter.selects_all]
  simp only [List.all_cons, Query.selects_some, hid, hslug, hmatch]

theorem episode_relations_load (s : State) {r : Relation State Episode}
    (hr : r ∈ Related.relations) : r.Loads s := by
  have hcases : r ∈ [_, _] := hr
  simp only [List.mem_cons, List.not_mem_nil, or_false] at hcases
  rcases hcases with rfl | rfl
  · exact Relation.one_loads "show" "showId" State.showsLens _ _ s
  · exact Relation.one_loads "season" "seasonId" State.seasonsLens _ _ s

/-- After requests of which none that changed a show failed, every episode has the slug of the one
show with its show id. So a list of the episodes of a stored show gives the same under the show's id
and under its slug, and if it only includes what episodes have, it gives a page. -/
theorem after_episodesOf (history : List (Settings × Request))
    (hdone : ShowEditsSucceed .empty history) :
    let s := after history
    (∀ episode ∈ s.episodes.rows, ∃ parent ∈ s.shows.rows,
      parent.id = episode.showId ∧ parent.slug = episode.showSlug ∧
        ∀ other ∈ s.shows.rows, other.id = episode.showId → other = parent) ∧
    ∀ (settings : Settings) (q : ListQuery State Episode Int64), ∀ parent ∈ s.shows.rows,
      (settings.episodesOf (.id parent.id) q).exec s =
          (settings.episodesOf (.slug parent.slug) q).exec s ∧
        ((∀ r ∈ q.relations, r ∈ Related.relations) →
          ∃ page, (settings.episodesOf (.id parent.id) q).exec s = (.ok page, s)) := by
  intro s
  obtain ⟨⟨hkeyed, hordered, hparented⟩, hslugged⟩ := slugged_invariant.after hdone
  refine ⟨fun episode hepisode => ?_, fun settings q parent hparent => ⟨?_, fun hrelations => ?_⟩⟩
  · obtain ⟨parent, hparent, hid⟩ := hparented.episodes episode hepisode
    refine ⟨parent, hparent, hid, hslugged episode hepisode parent hparent hid, ?_⟩
    intro other hother hsame
    exact hordered.shows.eq_of_id_eq hother hparent (hsame.trans hid.symm)
  · refine episodesOf_slug settings q fun episode hepisode => ?_
    exact showSlug_eq_iff hkeyed hparented hslugged hepisode hparent
  · exact Repository.exists_list_exec fun r hr => episode_relations_load s (hrelations r hr)

/-- A show is renamed, its episode follows it, and another show takes the old slug. -/
theorem after_episodesOf_renamed :
    let history : List (Settings × Request) :=
      [ ({}, .shows (.write (.create (.bare "a")))),
        ({}, .episodes (.write (.create (.bare "a-x" 1)))),
        ({}, .shows (.write (.patch 1 fun row => { row with slug := "b" }))),
        ({}, .shows (.write (.create (.bare "a")))) ]
    let s := after history
    ShowEditsSucceed .empty history ∧
      s.episodes.rows = [{ Episode.bare "b-x" 1 with id := 1, showSlug := "b" }] ∧
      s.shows.rows = [{ Show.bare "b" with id := 1, name := "a" }, { Show.bare "a" with id := 2 }] ∧
      ∃ page, (({} : Settings).episodesOf (.id 1) {}).exec s = (.ok page, s) ∧
        (({} : Settings).episodesOf (.slug "b") {}).exec s = (.ok page, s) := by
  intro history s
  have hdone : ShowEditsSucceed .empty history :=
    ⟨fun ⟨_, h⟩ => h.elim, False.elim, fun _ => rfl, fun ⟨_, h⟩ => h.elim, trivial⟩
  have hshows : s.shows.rows =
      [{ Show.bare "b" with id := 1, name := "a" }, { Show.bare "a" with id := 2 }] := rfl
  obtain ⟨hsame, hpage⟩ := (after_episodesOf history hdone).2 {} {}
    { Show.bare "b" with id := 1, name := "a" } (hshows ▸ List.mem_cons_self)
  obtain ⟨page, hexec⟩ := hpage (List.forall_mem_nil _)
  exact ⟨hdone, rfl, hshows, page, hexec, hsame ▸ hexec⟩

end Catalog
end Repertory
