import Repertory.Proofs.Catalog.Library
import Repertory.Proofs.Catalog.Seasons

/-!
# Collections of shows

A show holds the ids of the collections that it is in, and no check looks at them. A collection that
goes is taken out of all shows that name it, and every other request leaves the collections there
are and gives no show a list that neither it nor the caller had (`Carried`). So if callers only give
lists of stored collections, shows never name others (`after_grouped`), and a show that the library
does not list is in a collection that it lists.
-/

namespace Repertory
namespace Catalog

open Table

def State.HasCollection (s : State) (id : Int64) : Prop := ∃ c ∈ s.collections.rows, c.id = id

/-- Shows name stored collections only. -/
def Grouped (s : State) : Prop :=
  ∀ row ∈ s.shows.rows, ∀ ids, row.collections = some ids → ∀ id ∈ ids, s.HasCollection id

theorem Show.isInCollection_iff {row : Show} {id : Int64} :
    row.isInCollection id = true ↔ ∃ ids, row.collections = some ids ∧ id ∈ ids := by
  rw [isInCollection]
  cases row.collections <;> simp

variable {s u v : State}

/-! ## Shows that leave a collection -/

def Show.leave (id : Int64) (row : Show) : Show :=
  { row with collections := row.collections.map fun ids => ids.filter fun other => other ≠ id }

theorem Show.isInCollection_leave {row : Show} {id other : Int64} :
    (row.leave id).isInCollection other = true ↔ row.isInCollection other = true ∧ other ≠ id := by
  rw [isInCollection, isInCollection, leave]
  cases row.collections <;> simp

/-- A show keeps its slug, so nothing stands in the way of its update. -/
theorem leave_exec (id : Int64) {row : Show} (h : Sound s.shows) (hrow : row ∈ s.shows.rows) :
    (showStore.update (row.leave id)).exec s = (.ok (row.leave id), { s with
        shows := { s.shows with rows := place (row.leave id) s.shows.rows } }) ∧
      Sound { s.shows with rows := place (row.leave id) s.shows.rows } := by
  have hupdate : s.shows.update (row.leave id) =
      .ok (row.leave id, { s.shows with rows := place (row.leave id) s.shows.rows }) :=
    h.update_of_slug_eq hrow rfl rfl
  refine ⟨?_, (update_changes h.ascending hupdate).sound h⟩
  rw [showStore, store_update, show State.showsLens.get s = s.shows from rfl, hupdate]
  rfl

theorem mem_place_leave (id : Int64) (row : Show) (h : Sound s.shows) (other : Show) :
    other ∈ place (row.leave id) s.shows.rows ↔
      other = row.leave id ∨ other ∈ s.shows.rows ∧ other.id ≠ row.id :=
  mem_place h.ascending

theorem dropMemberships_cons (id : Int64) (row : Show) (rest : List Show) :
    dropMemberships id (row :: rest) =
      Repository.ask .delete (showStore.update (row.leave id)) >>=
        fun _ => dropMemberships id rest := rfl

/-- Stored shows can leave a collection one after the other, and only their table changes. -/
theorem dropMemberships_exec (id : Int64) {rows : List Show} (h : Sound s.shows)
    (hrows : ∀ row ∈ rows, row ∈ s.shows.rows) (hids : (rows.map Show.id).Nodup) :
    ∃ shows, (dropMemberships id rows).exec s = (.ok (), { s with shows }) := by
  induction rows generalizing s with
  | nil => exact ⟨s.shows, rfl⟩
  | cons row rest ih =>
    obtain ⟨hfresh, hids⟩ := List.nodup_cons.mp hids
    obtain ⟨hexec, hsound⟩ := leave_exec id h (hrows row List.mem_cons_self)
    have hrest : ∀ other ∈ rest, other ∈ place (row.leave id) s.shows.rows := by
      intro other hother
      have hid : other.id ≠ row.id := fun hid => hfresh (hid ▸ List.mem_map_of_mem hother)
      exact (mem_place_leave id row h other).mpr
        (Or.inr ⟨hrows other (List.mem_cons_of_mem row hother), hid⟩)
    obtain ⟨shows, hdropped⟩ := ih
      (s := { s with shows := { s.shows with rows := place (row.leave id) s.shows.rows } })
      hsound hrest hids
    refine ⟨shows, ?_⟩
    rw [dropMemberships_cons, Action.exec_bind, Repository.ask, Action.exec_mapError, hexec]
    exact hdropped

theorem collectionHooks_onDelete_eq (row : Collection) (s : State) :
    (collectionHooks.onDelete row).exec s =
      (dropMemberships row.id (s.shows.rows.filter
        (Query.selects (some (.satisfies fun other => other.isInCollection row.id))))).exec s :=
  rfl

/-- The shows of a collection that goes can all leave it. -/
theorem collectionHooks_onDelete_exec (row : Collection) (h : Sound s.shows) :
    ∃ shows, (collectionHooks.onDelete row).exec s = (.ok (), { s with shows }) :=
  dropMemberships_exec row.id h (fun _ hother => (List.mem_filter.mp hother).1)
    ((List.filter_sublist.map Show.id).nodup h.ascending.nodup)

/-- Shows on their way out of a collection that is gone. Those that still name it are in the list,
and no show names another one that is not stored. -/
structure Leaving (id : Int64) (rest : List Show) (s : State) : Prop where
  sound : Sound s.shows
  stored : ∀ row ∈ rest, row ∈ s.shows.rows
  nodup : (rest.map Show.id).Nodup
  listed : ∀ row ∈ s.shows.rows, row.isInCollection id = true → row ∈ rest
  others : ∀ row ∈ s.shows.rows, ∀ other, row.isInCollection other = true →
    other = id ∨ s.HasCollection other

theorem Leaving.step {id : Int64} {row : Show} {rest : List Show} (h : Leaving id (row :: rest) s) :
    Leaving id rest { s with
      shows := { s.shows with rows := place (row.leave id) s.shows.rows } } := by
  have hrow := h.stored row List.mem_cons_self
  obtain ⟨hfresh, hrest⟩ := List.nodup_cons.mp h.nodup
  have hmem := mem_place_leave id row h.sound
  refine {
    sound := (leave_exec id h.sound hrow).2
    stored := ?stored
    nodup := hrest
    listed := ?listed
    others := ?others }
  case stored =>
    intro other hother
    have hid : other.id ≠ row.id := fun hid => hfresh (hid ▸ List.mem_map_of_mem hother)
    exact (hmem other).mpr (Or.inr ⟨h.stored other (List.mem_cons_of_mem row hother), hid⟩)
  case listed =>
    intro other hother hin
    rcases (hmem other).mp hother with rfl | ⟨hother, hid⟩
    · exact absurd rfl (Show.isInCollection_leave.mp hin).2
    · rcases List.mem_cons.mp (h.listed other hother hin) with rfl | hlisted
      · exact absurd rfl hid
      · exact hlisted
  case others =>
    intro other hother named hin
    rcases (hmem other).mp hother with rfl | ⟨hother, -⟩
    · exact h.others row hrow named (Show.isInCollection_leave.mp hin).1
    · exact h.others other hother named hin

theorem Leaving.grouped {id : Int64} {rest : List Show} (h : Leaving id rest s) :
    Grouped ((dropMemberships id rest).exec s).2 := by
  induction rest generalizing s with
  | nil =>
    intro row hrow ids hids other hother
    have hin : row.isInCollection other = true := Show.isInCollection_iff.mpr ⟨ids, hids, hother⟩
    rcases h.others row hrow other hin with rfl | hstored
    · exact absurd (h.listed row hrow hin) List.not_mem_nil
    · exact hstored
  | cons row rest ih =>
    have hexec := (leave_exec id h.sound (h.stored row List.mem_cons_self)).1
    rw [dropMemberships_cons, Action.exec_bind, Repository.ask, Action.exec_mapError, hexec]
    exact ih h.step

/-- With a collection, its place in the lists of shows goes. -/
theorem collection_removal_keeps (r : Removal Collection Int64) {searchLimit : Nat}
    {seed : UInt64} :
    (r.perform (.ofStore collectionStore collectionHooks searchLimit seed)).Keeps
      fun s => Indexed s ∧ Grouped s := by
  refine Removal.perform_keeps ?_ r
  intro s row t hs hdelete
  refine ⟨indexed.collections.delete hs.1 hdelete, ?_⟩
  rw [show State.collectionsLens.set t s = { s with collections := t } from rfl,
    collectionHooks_onDelete_eq]
  refine Leaving.grouped {
    sound := hs.1.1.shows
    stored := fun other hother => (List.mem_filter.mp hother).1
    nodup := (List.filter_sublist.map Show.id).nodup hs.1.2.shows.nodup
    listed := ?listed
    others := ?others }
  case listed =>
    intro other hother hin
    exact List.mem_filter.mpr ⟨hother, by rw [Query.selects_some, Filter.isMatch_satisfies, hin]⟩
  case others =>
    intro other hother id hin
    obtain ⟨ids, hids, hid⟩ := Show.isInCollection_iff.mp hin
    obtain ⟨c, hc, rfl⟩ := hs.2 other hother ids hids id hid
    refine Decidable.or_iff_not_imp_left.mpr fun hne => ⟨c, ?_, rfl⟩
    show c ∈ t.rows
    rw [delete_ok hdelete]
    exact List.mem_filter.mpr ⟨hc, decide_eq_true hne⟩

/-! ## All other changes -/

/-- Collections stay, and the list of a show was a show's before or is given. -/
structure Carried (given : List Int64 → Prop) (s u : State) : Prop where
  collections : ∀ id, s.HasCollection id → u.HasCollection id
  shows : ∀ row ∈ u.shows.rows, ∀ ids, row.collections = some ids →
    given ids ∨ ∃ old ∈ s.shows.rows, old.collections = some ids

variable {given : List Int64 → Prop}

theorem Carried.refl (s : State) : Carried given s s :=
  ⟨fun _ hid => hid, fun row hrow _ hids => Or.inr ⟨row, hrow, hids⟩⟩

theorem Carried.of_shows_subset (h : Carried given s u)
    (hcollections : v.collections = u.collections)
    (hshows : ∀ row ∈ v.shows.rows, row ∈ u.shows.rows) : Carried given s v where
  collections id hid := by
    rw [State.HasCollection, hcollections]
    exact h.collections id hid
  shows row hrow := h.shows row (hshows row hrow)

theorem Carried.place_collection {t : Table Collection Int64} {row : Collection}
    (h : Carried given s u) (hu : Ordered u) (ht : t.rows = place row u.collections.rows) :
    Carried given s { u with collections := t } where
  collections id hid := by
    show ∃ c ∈ t.rows, c.id = id
    rw [ht]
    exact exists_id_place row hu.collections (h.collections id hid)
  shows := h.shows

theorem Carried.place_show {t : Table Show Int64} {row : Show} (h : Carried given s u)
    (ht : t.rows = place row u.shows.rows)
    (hrow : ∀ ids, row.collections = some ids →
      given ids ∨ ∃ old ∈ u.shows.rows, old.collections = some ids) :
    Carried given s { u with shows := t } where
  collections := h.collections
  shows other hother ids hids := by
    rcases mem_or_mem_of_place (show other ∈ place row u.shows.rows from ht ▸ hother) with
      rfl | hold
    · rcases hrow ids hids with hgiven | ⟨old, hold, hsame⟩
      · exact Or.inl hgiven
      · exact h.shows old hold ids hsame
    · exact h.shows other hold ids hids

theorem Carried.grouped (h : Carried given s u) (hs : Grouped s)
    (hgiven : ∀ ids, given ids → (∃ row ∈ u.shows.rows, row.collections = some ids) →
      ∀ id ∈ ids, u.HasCollection id) : Grouped u := by
  intro row hrow ids hids id hid
  rcases h.shows row hrow ids hids with hids' | ⟨old, hold, hsame⟩
  · exact hgiven ids hids' ⟨row, hrow, hids⟩ id hid
  · exact h.collections id (hs old hold ids hsame id hid)

theorem studios_kept_carried :
    Kept State.studiosLens Hooks.plain fun u => Indexed u ∧ Carried given s u :=
  indexed.studios.and (fun _ h _ _ => ⟨h.collections, h.shows⟩)
    (fun _ h _ _ => ⟨h.collections, h.shows⟩) fun _ h _ => ⟨h.collections, h.shows⟩

theorem seasons_kept_carried :
    Kept State.seasonsLens seasonHooks fun u => Indexed u ∧ Carried given s u := by
  refine indexed.seasons.and (fun _ h _ _ => ⟨h.collections, h.shows⟩)
    (fun _ h _ _ => ⟨h.collections, h.shows⟩) ?_
  intro u row t hu h _
  obtain ⟨episodes, hexec, -⟩ :=
    seasonHooks_onDelete_exec row { u with seasons := t } hu.2.episodes
  rw [show State.seasonsLens.set t u = { u with seasons := t } from rfl, hexec]
  exact ⟨h.collections, h.shows⟩

/-- With the last episode of a show, the show goes. -/
theorem episodes_kept_carried :
    Kept State.episodesLens episodeHooks fun u => Indexed u ∧ Carried given s u := by
  refine indexed.episodes.and (fun _ h _ _ => ⟨h.collections, h.shows⟩)
    (fun _ h _ _ => ⟨h.collections, h.shows⟩) ?_
  intro u row t hu h _
  have hcases := episodeHooks_onDelete_exec row { u with episodes := t } hu.2.seasons
  rw [show State.episodesLens.set t u = { u with episodes := t } from rfl]
  rcases hcases with hsame | ⟨-, seasons, hexec, -⟩
  · rw [hsame]
    exact ⟨h.collections, h.shows⟩
  · rw [hexec]
    exact h.of_shows_subset rfl fun _ hrow => (mem_without.mp hrow).1

theorem collection_write_keeps (w : Write Collection Int64) {searchLimit : Nat} {seed : UInt64} :
    (w.perform (.ofStore collectionStore collectionHooks searchLimit seed)).Keeps
      fun u => Indexed u ∧ Carried given s u := by
  refine Write.perform_keeps indexed.collections.validate ?_ ?_ w
  · intro u item row stored t hu hvalidate hinsert
    exact ⟨indexed.collections.insert hu.1 hvalidate hinsert,
      hu.2.place_collection hu.1.2 (congrArg Table.rows (insert_ok hinsert).2.2)⟩
  · intro u item row current t hu hvalidate hupdate
    exact ⟨indexed.collections.update hu.1 hvalidate hupdate,
      hu.2.place_collection hu.1.2 (congrArg Table.rows (update_ok hupdate).2.2.2)⟩

theorem show_removal_keeps (r : Removal Show Int64) {searchLimit : Nat} {seed : UInt64} :
    (r.perform (.ofStore showStore showHooks searchLimit seed)).Keeps
      fun u => Indexed u ∧ Carried given s u := by
  refine Removal.perform_keeps ?_ r
  intro u row t hu hdelete
  refine ⟨indexed.shows.delete hu.1 hdelete, ?_⟩
  obtain ⟨episodes, seasons, hexec, -, -⟩ :=
    showHooks_onDelete_exec row { u with shows := t } hu.1.2.episodes hu.1.2.seasons
  rw [show State.showsLens.set t u = { u with shows := t } from rfl, hexec]
  exact hu.2.of_shows_subset rfl fun _ hrow => mem_of_delete hdelete hrow

/-! ## Writes of shows -/

/-- The caller gives the list for the collections of a show. A patch gives the list that it makes,
if the show has another. -/
def GivesList (s : State) (ids : List Int64) : Write Show Int64 → Prop
  | .create item => item.collections = some ids
  | .createIfNotExists item => item.collections = some ids
  | .edit _ changes _ => changes.collections = some ids
  | .patch id change => ∃ row ∈ s.shows.rows, row.id = id ∧
      (change row).collections = some ids ∧ row.collections ≠ some ids

section

variable {w : Write Show Int64} {current changes item : Show} {ids : List Int64}

theorem givesList_of_inserts (hitem : w.Inserts item) (hids : item.collections = some ids) :
    GivesList s ids w := by
  cases w with
  | create => exact (congrArg Show.collections hitem).symm.trans hids
  | createIfNotExists => exact (congrArg Show.collections hitem).symm.trans hids
  | edit => exact False.elim hitem
  | patch => exact False.elim hitem

/-- An edit that leaves the collections open takes over the old list. -/
theorem collections_keepRelations (current changes : Show) (resetOld : Bool) :
    (keepRelations current resetOld changes).collections = changes.collections ∨
      (keepRelations current resetOld changes).collections = current.collections := by
  rw [Show.keepRelations_eq, Show.edited]
  dsimp only
  split
  · exact Or.inl rfl
  · exact Or.inr rfl

theorem givesList_of_makes (hw : w.Replaces current.id) (hcurrent : current ∈ s.shows.rows)
    (hmade : w.Makes current changes) (hids : changes.collections = some ids) :
    GivesList s ids w ∨ current.collections = some ids := by
  cases w with
  | create => exact False.elim hmade
  | createIfNotExists => exact False.elim hmade
  | edit id changed resetOld =>
    have hmade : changes = keepRelations current resetOld changed := hmade
    rw [hmade] at hids
    rcases collections_keepRelations current changed resetOld with hsame | hsame
    · exact Or.inl (hsame.symm.trans hids)
    · exact Or.inr (hsame.symm.trans hids)
  | patch id change =>
    have hmade : changes = change current := hmade
    have hid : id = current.id := hw
    by_cases hold : current.collections = some ids
    · exact Or.inr hold
    · exact Or.inl ⟨current, hcurrent, hid.symm, hmade ▸ hids, hold⟩

end

/-- A show comes out of a write with a list that it had or that the caller gives, and a rename
touches no show. -/
theorem show_write_carried {w : Write Show Int64} {searchLimit : Nat} {seed : UInt64}
    (hu : Indexed u) (h : Carried given s u) (hgiven : ∀ ids, GivesList u ids w → given ids) :
    Carried given s ((w.perform (.ofStore showStore showHooks searchLimit seed)).exec u).2 := by
  rcases hperform : (w.perform (.ofStore showStore showHooks searchLimit seed)).exec u with ⟨r, v⟩
  cases Write.perform_wrote indexed.shows.validate w hperform with
  | nothing => exact h
  | inserted hvalidate hinsert hitem =>
    obtain rfl := plain_validate_ok hvalidate
    obtain ⟨hassign, -, rfl⟩ := insert_ok hinsert
    refine h.place_show rfl fun ids hids => Or.inl (hgiven ids (givesList_of_inserts hitem ?_))
    rcases assign_ok hassign with rfl | ⟨id, rfl⟩ <;> exact hids
  | @updated current changes row t _ hw hcurrent hvalidate hupdate hedited hmade
  | @interrupted current changes row t _ _ _ hw hcurrent hvalidate hupdate hedited _ hmade =>
    obtain rfl := plain_validate_ok hvalidate
    have hfollowed := showHooks_onEdited (s := { u with shows := t }) _ _ hu.2.episodes
      hu.2.seasons hedited
    obtain ⟨episodes, seasons, rfl⟩ := hfollowed.exists_touch
    have hplaced : Carried given s { u with shows := t } :=
      h.place_show (congrArg Table.rows (update_ok hupdate).2.2.2) fun ids hids =>
        (givesList_of_makes hw hcurrent hmade hids).imp (hgiven ids) fun hold =>
          ⟨current, hcurrent, hold⟩
    exact ⟨hplaced.collections, hplaced.shows⟩

theorem show_create_keeps {item : Show} (hitem : ∀ ids, item.collections = some ids → given ids)
    {searchLimit : Nat} {seed : UInt64} :
    ((Write.create item).perform (.ofStore showStore showHooks searchLimit seed)).Keeps
      fun u => Indexed u ∧ Carried given s u := fun u hu =>
  ⟨indexed.shows.write (.create item) u hu.1, show_write_carried hu.1 hu.2 hitem⟩

/-! ## Histories -/

def Request.GivesList (s : State) (ids : List Int64) : Request → Prop
  | .shows (.write w) => Catalog.GivesList s ids w
  | .load seed => ∃ item ∈ seed.shows, item.collections = some ids
  | _ => False

/-- A list that the caller gives and that a show has then names collections that are stored. A write
of a show leaves the collections as they are, and a load stores them before the shows. -/
def NamesStored (s : State) (request : Request) (u : State) : Prop :=
  ∀ ids, request.GivesList s ids → (∃ row ∈ u.shows.rows, row.collections = some ids) →
    ∀ id ∈ ids, u.HasCollection id

theorem load_carried (settings : Settings) (seed : Seed) (hs : Indexed s) :
    Carried (fun ids => (Request.load seed).GivesList s ids) s ((settings.load seed).exec s).2 := by
  have hkeeps : (settings.load seed).Keeps fun u =>
      Indexed u ∧ Carried (fun ids => (Request.load seed).GivesList s ids) s u :=
    (studios_kept_carried.createAll _).bind fun _ =>
      (createAll_keeps fun item _ => collection_write_keeps (.create item)).bind fun _ =>
        (createAll_keeps fun item hitem => show_create_keeps fun _ hids =>
            ⟨item, hitem, hids⟩).bind fun _ =>
          (seasons_kept_carried.createAll _).bind fun _ => episodes_kept_carried.createAll _
  exact (hkeeps s ⟨hs, .refl s⟩).2

theorem request_grouped (settings : Settings) {request : Request} (hs : Indexed s) (h : Grouped s)
    (hnamed : NamesStored s request ((request.perform settings).exec s).2) :
    Grouped ((request.perform settings).exec s).2 := by
  have hcarried : Carried (fun ids => request.GivesList s ids) s
      ((request.perform settings).exec s).2 → Grouped ((request.perform settings).exec s).2 :=
    fun hcarried => hcarried.grouped h hnamed
  cases request with
  | studios change => exact hcarried (studios_kept_carried.change change s ⟨hs, .refl s⟩).2
  | seasons change => exact hcarried (seasons_kept_carried.change change s ⟨hs, .refl s⟩).2
  | episodes change => exact hcarried (episodes_kept_carried.change change s ⟨hs, .refl s⟩).2
  | load seed => exact hcarried (load_carried settings seed hs)
  | shows change =>
    cases change with
    | removal r => exact hcarried (show_removal_keeps r s ⟨hs, .refl s⟩).2
    | write w =>
      refine hcarried ?_
      rw [Request.perform, Change.exec_write]
      exact show_write_carried hs (.refl s) fun _ hids => hids
  | collections change =>
    cases change with
    | removal r => exact (collection_removal_keeps r s ⟨hs, h⟩).2
    | write w =>
      refine hcarried ?_
      rw [Request.perform, Change.exec_write]
      exact (collection_write_keeps w s ⟨hs, .refl s⟩).2

/-- A show is an item of the library, or in a collection that is one. -/
theorem Grouped.mem_libraryItems (h : Grouped s) {row : Show} (hrow : row ∈ s.shows.rows) :
    LibraryItem.ofShow row ∈ s.libraryItems ∨
      ∃ c ∈ s.collections.rows, row.isInCollection c.id = true ∧
        LibraryItem.ofCollection c ∈ s.libraryItems := by
  have hitem : ∀ c ∈ s.collections.rows, LibraryItem.ofCollection c ∈ s.libraryItems :=
    fun c hc => List.mem_append_right _ (List.mem_map_of_mem hc)
  by_cases hlone : row.isCollected = true
  · obtain ⟨ids, hids, hsome⟩ := (Option.any_eq_true _ _).mp hlone
    obtain ⟨id, rest, rfl⟩ : ∃ id rest, ids = id :: rest := by
      cases ids with
      | nil => cases hsome
      | cons id rest => exact ⟨id, rest, rfl⟩
    obtain ⟨c, hc, rfl⟩ := h row hrow _ hids id List.mem_cons_self
    exact Or.inr ⟨c, hc, Show.isInCollection_iff.mpr ⟨_, hids, List.mem_cons_self⟩, hitem c hc⟩
  · refine Or.inl (List.mem_append_left _ (List.mem_map_of_mem ?_))
    exact List.mem_filter.mpr ⟨hrow, by simpa using hlone⟩

/-- If the lists that callers give to shows name collections that are stored then, all shows name
stored collections all along, also when collections go. So wherever the library fits on one page,
that page has each show or a collection that the show is in. -/
theorem after_grouped {history front : List (Settings × Request)}
    (hrun : EachStep NamesStored .empty history) (hfront : front <+: history) :
    let s := after front
    (∀ row ∈ s.shows.rows, ∀ ids, row.collections = some ids →
      ∀ id ∈ ids, ∃ c ∈ s.collections.rows, c.id = id) ∧
    ∀ (settings : Settings) (sorting : Sorting LibraryItem) (limit : Nat) (backwards : Bool),
      s.shows.rows.length + s.collections.rows.length ≤ limit →
      ∃ page,
        (settings.library.list { sorting, pagination := { limit, backwards } }).exec s =
          (.ok page, s) ∧
        page.nextCursor = none ∧
        ∀ row ∈ s.shows.rows, LibraryItem.ofShow row ∈ page.items ∨
          ∃ c ∈ s.collections.rows, row.isInCollection c.id = true ∧
            LibraryItem.ofCollection c ∈ page.items := by
  intro s
  have hinvariant : Indexed s ∧ Grouped s :=
    hrun.after (I := fun s => Indexed s ∧ Grouped s) ⟨indexed.empty, List.forall_mem_nil _⟩
      (fun settings request hs hnamed => ⟨indexed.perform settings request _ hs.1,
        request_grouped settings hs.1 hs.2 hnamed⟩) hfront
  refine ⟨hinvariant.2, fun settings sorting limit backwards hlimit => ?_⟩
  have hviews : settings.library.Views s s.libraryItems := settings.library_rows s
  have hlength : s.libraryItems.length ≤ limit := by
    have hlone : s.loneShows.length ≤ s.shows.rows.length := List.length_filter_le _ _
    rw [State.libraryItems, List.length_append, List.length_map, List.length_map]
    omega
  obtain ⟨page, hlist, hcursor, hperm⟩ := hviews.list_all sorting hlength backwards
  refine ⟨page, hlist, hcursor, fun row hrow => ?_⟩
  simp only [hperm.mem_iff]
  exact hinvariant.2.mem_libraryItems hrow

/-- A show is in two collections, one of which it names twice, is edited without a word about them,
and then that one goes. -/
def leavesCollection : List (Settings × Request) :=
  [ ({}, .collections (.write (.create ⟨0, "c", "C", none⟩))),
    ({}, .collections (.write (.create ⟨0, "d", "D", none⟩))),
    ({}, .shows (.write (.create { Show.bare "a" with collections := some [1, 2, 1] }))),
    ({}, .shows (.write (.edit 1 (.bare "b") false))),
    ({}, .collections (.removal (.delete (.id 1)))) ]

theorem after_grouped_leavesCollection :
    let s := after leavesCollection
    let left : Show := { Show.bare "b" with id := 1, collections := some [2] }
    EachStep NamesStored .empty leavesCollection ∧ leavesCollection <+: leavesCollection ∧
      s.shows.rows = [left] ∧ (∃ c ∈ s.collections.rows, c.id = 2) ∧
      ∃ page, ((Settings.library {}).list { pagination := { limit := 2 } }).exec s = (.ok page, s) ∧
        (LibraryItem.ofShow left ∈ page.items ∨
          ∃ c ∈ s.collections.rows, left.isInCollection c.id = true ∧
            LibraryItem.ofCollection c ∈ page.items) := by
  intro s left
  have hrun : EachStep NamesStored .empty leavesCollection := by
    refine ⟨?_, ?_, ?_, ?_, ?_, trivial⟩
    · exact fun _ hids => False.elim hids
    · exact fun _ hids => False.elim hids
    · intro ids hids _
      obtain rfl : [1, 2, 1] = ids := Option.some.inj hids
      have hstored : (after (leavesCollection.take 3)).collections.rows =
          [⟨1, "c", "C", none⟩, ⟨2, "d", "D", none⟩] := by decide +kernel
      intro id hid
      show ∃ c ∈ (after (leavesCollection.take 3)).collections.rows, c.id = id
      rw [hstored]
      simp only [List.mem_cons, List.not_mem_nil, or_false] at hid
      rcases hid with rfl | rfl | rfl <;> simp
    · intro ids hids
      cases hids
    · exact fun _ hids => False.elim hids
  have hshows : s.shows.rows = [left] := by decide +kernel
  have hrow : left ∈ s.shows.rows := hshows ▸ List.mem_cons_self
  obtain ⟨hgrouped, hlisted⟩ := after_grouped hrun (List.prefix_refl leavesCollection)
  obtain ⟨page, hlist, -, hpage⟩ := hlisted {} [.default] 2 false (by decide +kernel)
  exact ⟨hrun, List.prefix_refl _, hshows, hgrouped left hrow [2] rfl 2 List.mem_cons_self, page,
    hlist, hpage left hrow⟩

end Catalog
end Repertory
