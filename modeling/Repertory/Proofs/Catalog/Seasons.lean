import Repertory.Proofs.Catalog.Checks
import Repertory.Proofs.Catalog.FailedWrites
import Repertory.Proofs.Catalog.Keys
import Repertory.Proofs.Catalog.Parents

/-!
# The seasons of episodes

Where callers leave the season of an episode open, validation looks it up by its number among the
seasons of the episode's show. A change that does not mention the season keeps it as it was found
for the show that the episode had then. So every episode with a season has one of its own show
exactly until an edit or a patch gives an episode with a season to another show
(`after_settled_iff`).
-/

namespace Repertory
namespace Catalog

open Table

/-! ## Seasons of the own show -/

/-- The season of the episode, if it has one, is a stored season of its show. -/
def Episode.Settled (s : State) (e : Episode) : Prop :=
  ∀ id, e.seasonId = some id → ∃ season ∈ s.seasons.rows, season.id = id ∧ season.showId = e.showId

def Settled (s : State) : Prop := ∀ e ∈ s.episodes.rows, e.Settled s

variable {s u : State}

/-- Episodes may go, and seasons may go that no episode needs. -/
theorem Settled.mono (h : Settled s)
    (hepisodes : ∀ e ∈ u.episodes.rows, ∃ old ∈ s.episodes.rows,
      old.seasonId = e.seasonId ∧ old.showId = e.showId)
    (hseasons : ∀ e ∈ u.episodes.rows, ∀ season ∈ s.seasons.rows,
      e.seasonId = some season.id → season.showId = e.showId →
        ∃ kept ∈ u.seasons.rows, kept.id = season.id ∧ kept.showId = season.showId) :
    Settled u := by
  intro e he id hid
  obtain ⟨old, hold, hseason, hshow⟩ := hepisodes e he
  obtain ⟨season, hstored, rfl, hsame⟩ := h old hold id (hseason.trans hid)
  have hown := hsame.trans hshow
  obtain ⟨kept, hkept, hkeptId, hkeptShow⟩ := hseasons e he season hstored hid hown
  exact ⟨kept, hkept, hkeptId, hkeptShow.trans hown⟩

/-- A show can go if its episodes go too. -/
theorem Settled.withoutShow (h : Settled s) (id : Int64)
    (hepisodes : ∀ e ∈ u.episodes.rows, e ∈ s.episodes.rows ∧ e.showId ≠ id)
    (hseasons : ∀ season ∈ s.seasons.rows, season.showId ≠ id → season ∈ u.seasons.rows) :
    Settled u :=
  h.mono (fun e he => ⟨e, (hepisodes e he).1, rfl, rfl⟩) fun e he season hseason _ hshow =>
    ⟨season, hseasons season hseason fun hid => (hepisodes e he).2 (hshow.symm.trans hid), rfl, rfl⟩

/-! ## Shows and collections -/

theorem exists_mem_touch {α : Type} [Resource α Int64] {f : α → α} (ids : List Int64)
    {table : Table α Int64} {row : α} (hrow : row ∈ table.rows) :
    ∃ new ∈ (table.touch f ids).rows, new = row ∨ new = f row := by
  refine ⟨_, List.mem_map_of_mem hrow, ?_⟩
  split
  · exact Or.inr rfl
  · exact Or.inl rfl

theorem Settled.touch (h : Settled s) (old new : String) (episodes seasons : List Int64) :
    Settled { s with
      episodes := s.episodes.touch (Episode.follow old new) episodes
      seasons := s.seasons.touch (Season.follow old new) seasons } := by
  refine h.mono (fun e he => ?_) fun _ _ season hseason _ _ => ?_
  · obtain ⟨before, hbefore, hsame⟩ := exists_of_mem_touch
      (g := fun e : Episode => (e.seasonId, e.showId)) he fun _ => rfl
    exact ⟨before, hbefore, congrArg Prod.fst hsame, congrArg Prod.snd hsame⟩
  · obtain ⟨kept, hkept, rfl | rfl⟩ := exists_mem_touch (f := Season.follow old new) seasons hseason
    · exact ⟨_, hkept, rfl, rfl⟩
    · exact ⟨_, hkept, rfl, rfl⟩

theorem Followed.settled {old new : Show} {r : Except RepositoryError Unit}
    (h : Followed old new s r u) (hs : Settled s) : Settled u := by
  obtain ⟨episodes, seasons, rfl⟩ := h.exists_touch
  exact hs.touch old.slug new.slug episodes seasons

/-! ## Changes -/

def Indexed (s : State) : Prop := Keyed s ∧ Ordered s

theorem indexed : Invariant Indexed := Keyed.invariant.both Ordered.invariant

theorem shows_kept_settled : Kept State.showsLens showHooks fun s => Indexed s ∧ Settled s := by
  refine indexed.shows.and (fun _ h _ _ => h) ?_ ?_
  · intro s item row current t hs h _ _
    have hfollowed := showHooks_onEdited (s := { s with shows := t }) current row
      hs.2.episodes hs.2.seasons rfl
    exact hfollowed.settled h
  · intro s row t hs h hdelete
    obtain ⟨episodes, seasons, hexec, hepisodes, hseasons⟩ :=
      showHooks_onDelete_exec row { s with shows := t } hs.2.episodes hs.2.seasons
    rw [show State.showsLens.set t s = { s with shows := t } from rfl, hexec]
    exact h.withoutShow row.id (fun e => (hepisodes e).mp)
      fun season hseason hne => (hseasons season).mpr ⟨hseason, hne⟩

theorem studios_kept_settled : Kept State.studiosLens Hooks.plain fun s => Indexed s ∧ Settled s :=
  indexed.studios.and (fun _ h _ _ => h) (fun _ h _ _ => h) fun _ h _ => h

theorem collections_kept_settled :
    Kept State.collectionsLens collectionHooks fun s => Indexed s ∧ Settled s := by
  refine indexed.collections.and (fun _ h _ _ => h) (fun _ h _ _ => h) ?_
  intro s row t _ h _
  have hupdate : ∀ item, (showStore.update item).Keeps Settled := by
    intro item s hs
    rw [showStore, store_update]
    cases (State.showsLens.get s).update item with
    | error e => exact hs
    | ok result => exact hs
  exact collectionHooks_onDelete_keeps hupdate row _ h

/-! ## Changes of seasons -/

/-- Seasons that are there before and after belong to the same shows. -/
def SeasonsStay (s u : State) : Prop :=
  ∀ before ∈ s.seasons.rows, ∀ behind ∈ u.seasons.rows,
    behind.id = before.id → behind.showId = before.showId

/-- Where seasons stay with their shows, a write of one takes none away from an episode. -/
theorem Settled.place_season {t : Table Season Int64} {row : Season} (h : Settled s)
    (hordered : Ordered s) (ht : t.rows = place row s.seasons.rows)
    (hstay : SeasonsStay s { s with seasons := t }) : Settled { s with seasons := t } := by
  refine h.mono (fun e he => ⟨e, he, rfl, rfl⟩) fun e _ season hseason _ _ => ?_
  have hstored : ∃ kept ∈ t.rows, kept.id = season.id := by
    rw [ht]
    exact exists_id_place row hordered.seasons ⟨season, hseason, rfl⟩
  obtain ⟨kept, hkept, hid⟩ := hstored
  exact ⟨kept, hkept, hid, hstay season hseason kept hkept hid⟩

theorem Settled.insert_season {t : Table Season Int64} {item row : Season} (h : Settled s)
    (hs : Indexed s) (hinsert : s.seasons.insert item = .ok (row, t)) :
    Settled { s with seasons := t } := by
  obtain ⟨hassign, -, rfl⟩ := insert_ok hinsert
  have hfree := hs.1.seasons.id_free hassign
  refine h.place_season hs.2 rfl fun before hbefore behind hbehind hid => ?_
  rcases (mem_place hs.2.seasons).mp hbehind with rfl | ⟨hbehind, -⟩
  · exact absurd hid.symm (hfree before hbefore)
  · rw [hs.2.seasons.eq_of_id_eq hbehind hbefore hid]

theorem season_create_keeps (item : Season) {searchLimit : Nat} {seed : UInt64} :
    ((Write.create item).perform (.ofStore seasonStore seasonHooks searchLimit seed)).Keeps
      fun s => Indexed s ∧ Settled s := by
  intro s hs
  refine Write.perform_of_wrote (P := fun s => Indexed s ∧ Settled s) seasonHooks_readOnly hs ?_
    fun hmade => False.elim hmade
  intro item row stored t _ hvalidate hinsert
  exact ⟨indexed.seasons.insert hs.1 hvalidate hinsert, hs.2.insert_season hs.1 hinsert⟩

theorem season_write_settled (w : Write Season Int64) {searchLimit : Nat} {seed : UInt64}
    (hs : Indexed s) (h : Settled s)
    (hstay : SeasonsStay s
      ((w.perform (.ofStore seasonStore seasonHooks searchLimit seed)).exec s).2) :
    Settled ((w.perform (.ofStore seasonStore seasonHooks searchLimit seed)).exec s).2 := by
  refine Write.perform_of_wrote (P := fun u => SeasonsStay s u → Settled u) seasonHooks_readOnly
    (fun _ => h) ?_ ?_ hstay
  · intro item row stored t _ _ hinsert _
    exact h.insert_season hs hinsert
  · intro changes row current t _ _ _ hupdate hstay
    exact h.place_season hs.2 (congrArg Table.rows (update_ok hupdate).2.2.2) hstay

/-- With a season, its episodes go. -/
theorem season_removal_keeps (r : Removal Season Int64) {searchLimit : Nat} {seed : UInt64} :
    (r.perform (.ofStore seasonStore seasonHooks searchLimit seed)).Keeps
      fun s => Indexed s ∧ Settled s := by
  refine Removal.perform_keeps ?_ r
  intro s row t hs hdelete
  refine ⟨indexed.seasons.delete hs.1 hdelete, ?_⟩
  obtain ⟨episodes, hexec, hepisodes⟩ :=
    seasonHooks_onDelete_exec row { s with seasons := t } hs.1.2.episodes
  rw [show State.seasonsLens.set t s = { s with seasons := t } from rfl, hexec]
  refine hs.2.mono (fun e he => ⟨e, ((hepisodes e).mp he).1, rfl, rfl⟩)
    fun e he season hseason hid _ => ⟨season, ?_, rfl, rfl⟩
  have hne : season.id ≠ row.id := fun hsame => ((hepisodes e).mp he).2 (hsame ▸ hid)
  show season ∈ t.rows
  rw [delete_ok hdelete]
  exact List.mem_filter.mpr ⟨hseason, decide_eq_true hne⟩

/-! ## Changes of episodes -/

theorem Settled.place_episode {t : Table Episode Int64} {row : Episode} (h : Settled s)
    (hrow : row.Settled s) (ht : t.rows = place row s.episodes.rows) :
    Settled { s with episodes := t } := by
  intro e he
  rcases mem_or_mem_of_place (show e ∈ place row s.episodes.rows from ht ▸ he) with rfl | hold
  · exact hrow
  · exact h e hold

theorem State.seasonOf_some {item : Episode} {id : Int64} (h : item.seasonId = some id) :
    s.seasonOf item = some id := by
  rw [seasonOf, h]

/-- A season that is looked up is a stored one of the show. -/
theorem State.seasonOf_none {item : Episode} (h : item.seasonId = none) {found : Int64}
    (hfound : s.seasonOf item = some found) :
    ∃ season ∈ s.seasons.rows, season.id = found ∧ season.showId = item.showId := by
  rw [seasonOf, h] at hfound
  cases hnumber : item.seasonNumber with
  | none =>
    rw [hnumber] at hfound
    cases hfound
  | some number =>
    rw [hnumber] at hfound
    obtain ⟨season, hseason, rfl⟩ := Option.map_eq_some_iff.mp hfound
    have hown := List.find?_some hseason
    rw [decide_eq_true_iff] at hown
    exact ⟨season, List.mem_of_find?_eq_some hseason, rfl, hown.1⟩

/-- Validation leaves the season that an episode names, and if it names none, looks it up. -/
theorem episodeHooks_validate_season {item row : Episode}
    (h : (episodeHooks.validate item).exec s = (.ok row, s)) :
    row.id = item.id ∧ row.showId = item.showId ∧
      ((item.seasonId ≠ none ∧ row.seasonId = item.seasonId) ∨
        item.seasonId = none ∧ row.Settled s) := by
  have hchecked := episodeHooks_validate_checked h
  have hshow := hchecked.showId
  refine ⟨hchecked.id, hshow, ?_⟩
  cases hitem : item.seasonId with
  | some id =>
    exact Or.inl ⟨Option.some_ne_none id, hchecked.seasonId.trans (State.seasonOf_some hitem)⟩
  | none =>
    refine Or.inr ⟨rfl, fun id hid => ?_⟩
    obtain ⟨season, hmem, hfound, hown⟩ :=
      State.seasonOf_none hitem (hchecked.seasonId.symm.trans hid)
    exact ⟨season, hmem, hfound, hown.trans hshow.symm⟩

/-- An episode with a season is another show's afterwards. -/
def Moved (s u : State) : Prop :=
  ∃ e ∈ s.episodes.rows, ∃ moved ∈ u.episodes.rows,
    moved.id = e.id ∧ e.seasonId ≠ none ∧ moved.showId ≠ e.showId

theorem not_moved_self (hs : Indexed s) : ¬Moved s s := by
  rintro ⟨e, he, moved, hmoved, hid, -, hshow⟩
  exact hshow (congrArg Episode.showId (hs.2.episodes.eq_of_id_eq hmoved he hid))

/-! ## Writes of episodes -/

/-- The caller leaves the season of an episode open, or as it is. -/
def LeavesSeason : Write Episode Int64 → Prop
  | .create item => item.seasonId = none
  | .createIfNotExists item => item.seasonId = none
  | .edit _ changes _ => changes.seasonId = none
  | .patch _ change => ∀ e, (change e).seasonId = e.seasonId

/-- A season that was left open stays what it was. -/
def KeepsSeason : Write Episode Int64 → Prop
  | .create _ => False
  | .createIfNotExists _ => False
  | .edit _ _ resetOld => resetOld = false
  | .patch _ _ => True

theorem seasonId_keepRelations (current changes : Episode) (h : changes.seasonId = none) :
    (keepRelations current false changes).seasonId = current.seasonId := by
  rw [Episode.keepRelations_eq, Episode.edited, h]
  rfl

section

variable {w : Write Episode Int64} {current changes item row : Episode}

theorem seasonId_of_inserts (hw : LeavesSeason w) (hitem : w.Inserts item) :
    item.seasonId = none ∧ ¬KeepsSeason w := by
  cases w with
  | create => exact ⟨(congrArg Episode.seasonId hitem).trans hw, id⟩
  | createIfNotExists => exact ⟨(congrArg Episode.seasonId hitem).trans hw, id⟩
  | edit => exact False.elim hitem
  | patch => exact False.elim hitem

theorem seasonId_of_makes (hw : LeavesSeason w) (hmade : w.Makes current changes) :
    KeepsSeason w ∧ changes.seasonId = current.seasonId ∨
      ¬KeepsSeason w ∧ changes.seasonId = none := by
  cases w with
  | create => exact False.elim hmade
  | createIfNotExists => exact False.elim hmade
  | edit id given resetOld =>
    have hmade : changes = keepRelations current resetOld given := hmade
    cases resetOld with
    | false => exact Or.inl ⟨rfl, hmade ▸ seasonId_keepRelations current given hw⟩
    | true => exact Or.inr ⟨Bool.noConfusion, hmade ▸ hw⟩
  | patch id change =>
    have hmade : changes = change current := hmade
    exact Or.inl ⟨trivial, hmade ▸ hw current⟩

/-- An episode that keeps its season keeps it settled exactly if it stays with its show. -/
theorem settled_of_same_season (hs : Indexed s) (hcurrent : current.Settled s)
    (hsome : current.seasonId ≠ none) (hseason : row.seasonId = current.seasonId) :
    row.Settled s ↔ row.showId = current.showId := by
  constructor
  · intro hrow
    obtain ⟨id, hid⟩ := Option.ne_none_iff_exists'.mp hsome
    obtain ⟨old, hold, holdId, holdShow⟩ := hcurrent id hid
    obtain ⟨new, hnew, hnewId, hnewShow⟩ := hrow id (hseason.trans hid)
    have hsame : new = old := hs.2.seasons.eq_of_id_eq hnew hold (hnewId.trans holdId.symm)
    rw [← hnewShow, hsame, holdShow]
  · intro hshow id hid
    obtain ⟨old, hold, holdId, holdShow⟩ := hcurrent id (hseason.symm.trans hid)
    exact ⟨old, hold, holdId, holdShow.trans hshow.symm⟩

end

theorem settled_place_iff {t : Table Episode Int64} {row : Episode} (hs : Indexed s)
    (h : Settled s) (ht : t.rows = place row s.episodes.rows) :
    Settled { s with episodes := t } ↔ row.Settled s := by
  constructor
  · intro hplaced
    exact hplaced row (show row ∈ t.rows from ht ▸ (mem_place hs.2.episodes).mpr (Or.inl rfl))
  · exact fun hrow => h.place_episode hrow ht

theorem moved_place_iff {t : Table Episode Int64} {row current : Episode} (hs : Indexed s)
    (hcurrent : current ∈ s.episodes.rows) (hid : row.id = current.id)
    (ht : t.rows = place row s.episodes.rows) :
    Moved s { s with episodes := t } ↔
      current.seasonId ≠ none ∧ row.showId ≠ current.showId := by
  have hmem : ∀ e, e ∈ t.rows ↔ e = row ∨ e ∈ s.episodes.rows ∧ e.id ≠ row.id := fun e => by
    rw [ht]
    exact mem_place hs.2.episodes
  constructor
  · rintro ⟨e, he, moved, hmoved, hsame, hseason, hshow⟩
    rcases (hmem moved).mp hmoved with rfl | ⟨hold, -⟩
    · obtain rfl : e = current :=
        hs.2.episodes.eq_of_id_eq he hcurrent (hsame.symm.trans hid)
      exact ⟨hseason, hshow⟩
    · exact absurd ⟨e, he, moved, hold, hsame, hseason, hshow⟩ (not_moved_self hs)
  · rintro ⟨hseason, hshow⟩
    exact ⟨current, hcurrent, row, (hmem row).mpr (Or.inl rfl), hid, hseason, hshow⟩

/-- A write of an episode leaves the seasons settled exactly if it does not keep the season of an
episode that goes to another show. -/
theorem episode_write_settled_iff {w : Write Episode Int64} (hw : LeavesSeason w)
    {searchLimit : Nat} {seed : UInt64} (hs : Indexed s) (h : Settled s) :
    Settled ((w.perform (.ofStore episodeStore episodeHooks searchLimit seed)).exec s).2 ↔
      ¬(KeepsSeason w ∧
        Moved s ((w.perform (.ofStore episodeStore episodeHooks searchLimit seed)).exec s).2) := by
  refine Write.perform_of_wrote (P := fun u => Settled u ↔ ¬(KeepsSeason w ∧ Moved s u))
    episodeHooks_readOnly ?_ ?_ ?_
  · exact iff_of_true h fun hmoved => not_moved_self hs hmoved.2
  · intro item row stored t hitem hvalidate hinsert
    obtain ⟨hassign, -, rfl⟩ := insert_ok hinsert
    obtain ⟨hnone, hkeeps⟩ := seasonId_of_inserts hw hitem
    have hrow : row.Settled s := by
      rcases (episodeHooks_validate_season hvalidate).2.2 with ⟨hsome, -⟩ | ⟨-, hrow⟩
      · exact absurd hnone hsome
      · exact hrow
    have hstored : stored.Settled s := by
      rcases assign_ok hassign with rfl | ⟨id, rfl⟩ <;> exact hrow
    exact iff_of_true (h.place_episode hstored rfl) fun hmoved => hkeeps hmoved.1
  · intro changes row current t hmade hcurrent hvalidate hupdate
    have ht : t.rows = place row s.episodes.rows := congrArg Table.rows (update_ok hupdate).2.2.2
    obtain ⟨hid, -, hseason⟩ := episodeHooks_validate_season hvalidate
    have hsettled : Settled { s with episodes := t } ↔ row.Settled s := settled_place_iff hs h ht
    have hmoved : Moved s { s with episodes := t } ↔
        current.seasonId ≠ none ∧ row.showId ≠ current.showId :=
      moved_place_iff hs hcurrent hid ht
    show Settled { s with episodes := t } ↔ ¬(KeepsSeason w ∧ Moved s { s with episodes := t })
    rw [hsettled, hmoved]
    rcases seasonId_of_makes hw hmade with ⟨hkeeps, hgiven⟩ | ⟨hkeeps, hgiven⟩
    · rcases hseason with ⟨hsome, hkept⟩ | ⟨hnone, hrow⟩
      · have hsome : current.seasonId ≠ none := hgiven ▸ hsome
        rw [settled_of_same_season hs (h current hcurrent) hsome (hkept.trans hgiven)]
        simp [hkeeps, hsome]
      · have hnone : current.seasonId = none := hgiven.symm.trans hnone
        exact iff_of_true hrow fun hkept => hkept.2.1 hnone
    · rcases hseason with ⟨hsome, -⟩ | ⟨-, hrow⟩
      · exact absurd hgiven hsome
      · exact iff_of_true hrow fun hkept => hkeeps hkept.1

theorem episode_create_keeps {item : Episode} (hitem : item.seasonId = none) {searchLimit : Nat}
    {seed : UInt64} :
    ((Write.create item).perform
      (.ofStore episodeStore episodeHooks searchLimit seed)).Keeps
        fun s => Indexed s ∧ Settled s := by
  intro s hs
  refine ⟨indexed.episodes.write (.create item) s hs.1, ?_⟩
  exact (episode_write_settled_iff (w := .create item) hitem hs.1 hs.2).mpr fun hmoved => hmoved.1

/-- With the last episode of a show, its seasons go, but then no episode needs them. -/
theorem episode_removal_keeps (r : Removal Episode Int64) {searchLimit : Nat} {seed : UInt64} :
    (r.perform (.ofStore episodeStore episodeHooks searchLimit seed)).Keeps
      fun s => Indexed s ∧ Settled s := by
  refine Removal.perform_keeps ?_ r
  intro s row t hs hdelete
  refine ⟨indexed.episodes.delete hs.1 hdelete, ?_⟩
  have hcases := episodeHooks_onDelete_exec row { s with episodes := t } hs.1.2.seasons
  rw [show State.episodesLens.set t s = { s with episodes := t } from rfl]
  rcases hcases with hsame | ⟨hgone, seasons, hexec, hseasons⟩
  · rw [hsame]
    exact hs.2.mono (fun e he => ⟨e, mem_of_delete hdelete he, rfl, rfl⟩)
      fun _ _ season hseason _ _ => ⟨season, hseason, rfl, rfl⟩
  · rw [hexec]
    exact hs.2.withoutShow row.showId (fun e he => ⟨mem_of_delete hdelete he, hgone e he⟩)
      fun season hseason hne => (hseasons season).mpr ⟨hseason, hne⟩

/-! ## Histories -/

def Request.LeavesSeasons : Request → Prop
  | .episodes (.write w) => LeavesSeason w
  | .load seed => ∀ e ∈ seed.episodes, e.seasonId = none
  | _ => True

def Request.KeepsSeason : Request → Prop
  | .episodes (.write w) => Catalog.KeepsSeason w
  | _ => False

theorem load_keeps_settled (settings : Settings) {seed : Seed}
    (h : ∀ e ∈ seed.episodes, e.seasonId = none) :
    (settings.load seed).Keeps fun s => Indexed s ∧ Settled s :=
  (studios_kept_settled.createAll _).bind fun _ =>
    (collections_kept_settled.createAll _).bind fun _ =>
      (shows_kept_settled.createAll _).bind fun _ =>
        (createAll_keeps fun item _ => season_create_keeps item).bind fun _ =>
          createAll_keeps fun _ hitem => episode_create_keeps (h _ hitem)

/-- A request leaves the seasons settled exactly if it does not keep the season of an episode that
goes to another show. -/
theorem request_settled_iff (settings : Settings) {request : Request}
    (hrequest : request.LeavesSeasons) (hs : Indexed s) (h : Settled s)
    (hstay : SeasonsStay s ((request.perform settings).exec s).2) :
    Settled ((request.perform settings).exec s).2 ↔
      ¬(request.KeepsSeason ∧ Moved s ((request.perform settings).exec s).2) := by
  cases request with
  | studios change =>
    exact iff_of_true (studios_kept_settled.change change s ⟨hs, h⟩).2 fun hmoved => hmoved.1
  | collections change =>
    exact iff_of_true (collections_kept_settled.change change s ⟨hs, h⟩).2 fun hmoved => hmoved.1
  | shows change =>
    exact iff_of_true (shows_kept_settled.change change s ⟨hs, h⟩).2 fun hmoved => hmoved.1
  | load seed =>
    exact iff_of_true (load_keeps_settled settings hrequest s ⟨hs, h⟩).2 fun hmoved => hmoved.1
  | seasons change =>
    refine iff_of_true ?_ fun hmoved => hmoved.1
    cases change with
    | write w =>
      rw [Request.perform, Change.exec_write] at hstay ⊢
      exact season_write_settled w hs h hstay
    | removal r => exact (season_removal_keeps r s ⟨hs, h⟩).2
  | episodes change =>
    cases change with
    | write w =>
      rw [Request.perform, Change.exec_write]
      exact episode_write_settled_iff hrequest hs h
    | removal r =>
      exact iff_of_true (episode_removal_keeps r s ⟨hs, h⟩).2 fun hmoved => hmoved.1

/-- Every request is as `P` says of the states before and after it. -/
def EachStep (P : State → Request → State → Prop) (s : State) : List (Settings × Request) → Prop
  | [] => True
  | step :: rest =>
    P s step.2 ((step.2.perform step.1).exec s).2 ∧
      EachStep P ((step.2.perform step.1).exec s).2 rest

/-- What holds of an empty catalog and of the state after each request, if the request is as `P`
says, holds all along. -/
theorem EachStep.after {P : State → Request → State → Prop} {I : State → Prop} (hempty : I .empty)
    (hstep : ∀ {s} (settings : Settings) (request : Request), I s →
      P s request ((request.perform settings).exec s).2 →
        I ((request.perform settings).exec s).2)
    {history front : List (Settings × Request)} (hrun : EachStep P .empty history)
    (hfront : front <+: history) : I (Catalog.after front) := by
  have hall : ∀ s, I s → EachStep P s history →
      I (front.foldl (fun s step => ((step.2.perform step.1).exec s).2) s) := by
    clear hrun
    induction front generalizing history with
    | nil => exact fun s hs _ => hs
    | cons step front ih =>
      intro s hs hrun
      obtain ⟨rest, rfl⟩ := hfront
      exact ih (List.prefix_append front rest) _ (hstep step.1 step.2 hs hrun.1) hrun.2
  exact hall .empty hempty hrun

/-- If callers leave the seasons of episodes open and seasons stay with their shows, then every
episode with a season has a stored one of its own show, in all states, exactly if no edit that does
not reset relations and no patch gives an episode with a season to another show. -/
theorem after_settled_iff (history : List (Settings × Request))
    (hrun : EachStep (fun s request u => request.LeavesSeasons ∧ SeasonsStay s u) .empty history) :
    (∀ front, front <+: history → Settled (after front)) ↔
      EachStep (fun s request u => ¬(request.KeepsSeason ∧ Moved s u)) .empty history := by
  have hall : ∀ s, Indexed s → Settled s →
      EachStep (fun s request u => request.LeavesSeasons ∧ SeasonsStay s u) s history →
      ((∀ front, front <+: history →
          Settled (front.foldl (fun s step => ((step.2.perform step.1).exec s).2) s)) ↔
        EachStep (fun s request u => ¬(request.KeepsSeason ∧ Moved s u)) s history) := by
    clear hrun
    induction history with
    | nil =>
      intro s _ h _
      refine iff_of_true (fun front hfront => ?_) trivial
      rw [List.prefix_nil.mp hfront]
      exact h
    | cons step rest ih =>
      intro s hs h hrun
      obtain ⟨⟨hleaves, hstay⟩, hrest⟩ := hrun
      have hindexed := indexed.perform step.1 step.2 s hs
      have hstep := request_settled_iff step.1 hleaves hs h hstay
      constructor
      · intro hsettled
        have hnext := hsettled [step] (List.prefix_append [step] rest)
        refine ⟨hstep.mp hnext, (ih _ hindexed hnext hrest).mp fun front hfront => ?_⟩
        exact hsettled (step :: front) (List.cons_prefix_cons.mpr ⟨rfl, hfront⟩)
      · rintro ⟨hnot, hnots⟩ front hfront
        have hnext := hstep.mpr hnot
        cases front with
        | nil => exact h
        | cons first front =>
          obtain ⟨rfl, hrests⟩ := List.cons_prefix_cons.mp hfront
          exact (ih _ hindexed hnext hrest).mpr hnots front hrests
  exact hall .empty indexed.empty (List.forall_mem_nil _) hrun

def firstEpisode : Episode := { Episode.bare "x" 1 with seasonNumber := some 1 }

/-- An episode of the first season of a show is edited to be one of a show without seasons. -/
def toOtherShow : List (Settings × Request) :=
  [ ({}, .shows (.write (.create (.bare "a")))),
    ({}, .shows (.write (.create (.bare "b")))),
    ({}, .seasons (.write (.create ⟨0, "s", 1, 1, none, none, none⟩))),
    ({}, .episodes (.write (.create firstEpisode))),
    ({}, .episodes (.write (.edit 1 { firstEpisode with showId := 2 } false))) ]

/-- The episode has its season all the same. -/
theorem after_settled_toOtherShow :
    EachStep (fun s request u => request.LeavesSeasons ∧ SeasonsStay s u) .empty toOtherShow ∧
      (after toOtherShow).seasons.rows = [⟨1, "s", 1, 1, none, none, none⟩] ∧
      (after toOtherShow).episodes.rows =
        [{ firstEpisode with id := 1, showId := 2, showSlug := "b", seasonId := some 1 }] ∧
      ¬∀ front, front <+: toOtherShow → Settled (after front) := by
  have hrun : EachStep (fun s request u => request.LeavesSeasons ∧ SeasonsStay s u) .empty
      toOtherShow := by
    refine ⟨⟨trivial, ?_⟩, ⟨trivial, ?_⟩, ⟨trivial, ?_⟩, ⟨rfl, ?_⟩, ⟨rfl, ?_⟩, trivial⟩ <;>
      · unfold SeasonsStay
        decide +kernel
  refine ⟨hrun, by decide +kernel, by decide +kernel, fun hsettled => ?_⟩
  obtain ⟨-, -, -, -, hedit, -⟩ := (after_settled_iff toOtherShow hrun).mp hsettled
  refine hedit ⟨rfl, ?_⟩
  unfold Moved
  decide +kernel

end Catalog
end Repertory
