import Repertory.Catalog.Basic
import Repertory.Proofs.Catalog.Rules
import Repertory.Proofs.Repository.Requests

/-!
# Histories of a catalog

The states of a catalog are those that requests lead to from an empty one, whether they succeed or
fail (`Catalog.after`). What holds of an empty catalog and survives every change of a table,
together with what follows from the change, holds in all of them (`Invariant.after`). That the rows
of each table stand in the order of their ids survives every single call (`after_ordered`).
-/

namespace Repertory
namespace Catalog

inductive Change (α : Type) where
  | write (w : Write α Int64)
  | removal (r : Removal α Int64)

def Change.perform {α : Type} [Resource α Int64] (repo : Repository State α Int64) :
    Change α → CatalogAction Unit
  | write w => do
    let _ ← w.perform repo
  | removal r => r.perform repo

inductive Request where
  | studios (change : Change Studio)
  | shows (change : Change Show)
  | seasons (change : Change Season)
  | episodes (change : Change Episode)
  | collections (change : Change Collection)
  | load (seed : Seed)

def Request.perform (settings : Settings) : Request → CatalogAction Unit
  | studios change => change.perform settings.studios
  | shows change => change.perform settings.shows
  | seasons change => change.perform settings.seasons
  | episodes change => change.perform settings.episodes
  | collections change => change.perform settings.collections
  | load seed => settings.load seed

/-- The state after requests to an empty catalog, each with the settings that it found. Some of
them may have failed. -/
def after (history : List (Settings × Request)) : State :=
  history.foldl (fun s step => ((step.2.perform step.1).exec s).2) .empty

/-! ## Invariants of requests -/

variable {α : Type} [Resource α Int64] {lens : Lens State (Table α Int64)} {I : State → Prop}

/-- Every change of one table, together with what the rules let follow from it, keeps `I`. -/
structure Kept (lens : Lens State (Table α Int64)) (hooks : Hooks State α) (I : State → Prop) :
    Prop where
  validate : ∀ item, (hooks.validate item).ReadOnly
  insert : ∀ {s item row stored t}, I s → (hooks.validate item).exec s = (.ok row, s) →
    (lens.get s).insert row = .ok (stored, t) → I (lens.set t s)
  update : ∀ {s item row current t}, I s → (hooks.validate item).exec s = (.ok row, s) →
    (lens.get s).update row = .ok (row, t) →
    I ((hooks.onEdited current row).exec (lens.set t s)).2
  delete : ∀ {s row t}, I s → (lens.get s).delete (Resource.id row) = .ok ((), t) →
    I ((hooks.onDelete row).exec (lens.set t s)).2

theorem Kept.and {hooks : Hooks State α} {J : State → Prop} (h : Kept lens hooks I)
    (hinsert : ∀ {s item row stored t}, I s → J s → (hooks.validate item).exec s = (.ok row, s) →
      (lens.get s).insert row = .ok (stored, t) → J (lens.set t s))
    (hupdate : ∀ {s item row current t}, I s → J s →
      (hooks.validate item).exec s = (.ok row, s) → (lens.get s).update row = .ok (row, t) →
      J ((hooks.onEdited current row).exec (lens.set t s)).2)
    (hdelete : ∀ {s row t}, I s → J s → (lens.get s).delete (Resource.id row) = .ok ((), t) →
      J ((hooks.onDelete row).exec (lens.set t s)).2) :
    Kept lens hooks fun s => I s ∧ J s where
  validate := h.validate
  insert hs hvalidate hinserted :=
    ⟨h.insert hs.1 hvalidate hinserted, hinsert hs.1 hs.2 hvalidate hinserted⟩
  update hs hvalidate hupdated :=
    ⟨h.update hs.1 hvalidate hupdated, hupdate hs.1 hs.2 hvalidate hupdated⟩
  delete hs hdeleted := ⟨h.delete hs.1 hdeleted, hdelete hs.1 hs.2 hdeleted⟩

theorem Kept.both {hooks : Hooks State α} {J : State → Prop} (h : Kept lens hooks I)
    (h' : Kept lens hooks J) :
    Kept lens hooks fun s => I s ∧ J s :=
  h.and (fun _ hs hvalidate hinsert => h'.insert hs hvalidate hinsert)
    (fun _ hs hvalidate hupdate => h'.update hs hvalidate hupdate)
    fun _ hs hdelete => h'.delete hs hdelete

theorem Change.exec_write {repo : Repository State α Int64} (w : Write α Int64) (s : State) :
    (((Change.write w).perform repo).exec s).2 = ((w.perform repo).exec s).2 := by
  rw [Change.perform, Action.exec_bind]
  rcases (w.perform repo).exec s with ⟨e | row, u⟩ <;> rfl

theorem Kept.write {hooks : Hooks State α} {searchLimit : Nat} {seed : UInt64}
    (h : Kept lens hooks I) (w : Write α Int64) :
    (w.perform (.ofStore (Table.store lens) hooks searchLimit seed)).Keeps I :=
  Write.perform_keeps h.validate h.insert h.update w

theorem Kept.change {hooks : Hooks State α} {searchLimit : Nat} {seed : UInt64}
    (h : Kept lens hooks I) (change : Change α) :
    (change.perform (.ofStore (Table.store lens) hooks searchLimit seed)).Keeps I := by
  cases change with
  | write w => exact (h.write w).bind fun _ => (Action.readOnly_pure ()).keeps
  | removal r => exact Removal.perform_keeps h.delete r

theorem createAll_keeps {repo : Repository State α Int64} {items : List α}
    (h : ∀ item ∈ items, ((Write.create item).perform repo).Keeps I) :
    (createAll repo items).Keeps I := by
  induction items with
  | nil => exact (Action.readOnly_pure ()).keeps
  | cons item rest ih =>
    exact (h item List.mem_cons_self).bind fun _ =>
      ih fun other hother => h other (List.mem_cons_of_mem item hother)

theorem Kept.createAll {hooks : Hooks State α} {searchLimit : Nat} {seed : UInt64}
    (h : Kept lens hooks I) (items : List α) :
    (createAll (.ofStore (Table.store lens) hooks searchLimit seed) items).Keeps I :=
  createAll_keeps fun item _ => h.write (.create item)

structure Invariant (I : State → Prop) : Prop where
  empty : I .empty
  studios : Kept State.studiosLens Hooks.plain I
  collections : Kept State.collectionsLens collectionHooks I
  shows : Kept State.showsLens showHooks I
  seasons : Kept State.seasonsLens seasonHooks I
  episodes : Kept State.episodesLens episodeHooks I

namespace Invariant

theorem perform (h : Invariant I) (settings : Settings) (request : Request) :
    (request.perform settings).Keeps I := by
  cases request with
  | studios change => exact h.studios.change change
  | shows change => exact h.shows.change change
  | seasons change => exact h.seasons.change change
  | episodes change => exact h.episodes.change change
  | collections change => exact h.collections.change change
  | load seed =>
    exact (h.studios.createAll _).bind fun _ => (h.collections.createAll _).bind fun _ =>
      (h.shows.createAll _).bind fun _ => (h.seasons.createAll _).bind fun _ =>
        h.episodes.createAll _

theorem both {J : State → Prop} (h : Invariant I) (h' : Invariant J) :
    Invariant fun s => I s ∧ J s where
  empty := ⟨h.empty, h'.empty⟩
  studios := h.studios.both h'.studios
  collections := h.collections.both h'.collections
  shows := h.shows.both h'.shows
  seasons := h.seasons.both h'.seasons
  episodes := h.episodes.both h'.episodes

/-- An invariant holds whatever the history of the catalog is. -/
theorem after (h : Invariant I) (history : List (Settings × Request)) : I (after history) := by
  have hrun : ∀ s, I s →
      I (history.foldl (fun s step => ((step.2.perform step.1).exec s).2) s) := by
    induction history with
    | nil => exact fun _ hs => hs
    | cons step rest ih => exact fun s hs => ih _ (h.perform step.1 step.2 s hs)
  exact hrun _ h.empty

end Invariant

/-! ## Invariants of single calls -/

theorem Stable.kept {hooks : Hooks State α} (h : Stable lens I)
    (hvalidate : ∀ item, (hooks.validate item).ReadOnly)
    (hedited : ∀ old new, (hooks.onEdited old new).Keeps I)
    (hdelete : ∀ row, (hooks.onDelete row).Keeps I) : Kept lens hooks I where
  validate := hvalidate
  insert hs _ hinsert := h.insert hs hinsert
  update hs _ hupdate := hedited _ _ _ (h.update hs hupdate)
  delete hs hdeleted := hdelete _ _ (h.delete hs hdeleted)

/-- What every change of every table keeps is an invariant. -/
theorem invariant_of_stable (hempty : I .empty) (hstudios : Stable State.studiosLens I)
    (hcollections : Stable State.collectionsLens I) (hshows : Stable State.showsLens I)
    (hseasons : Stable State.seasonsLens I) (hepisodes : Stable State.episodesLens I) :
    Invariant I where
  empty := hempty
  studios := hstudios.kept plain_readOnly (fun _ _ => (Action.readOnly_pure ()).keeps)
    fun _ => (Action.readOnly_pure ()).keeps
  collections := hcollections.kept plain_readOnly (fun _ _ => (Action.readOnly_pure ()).keeps)
    (collectionHooks_onDelete_keeps hshows.update_keeps)
  shows := hshows.kept plain_readOnly
    (fun old new => by
      rw [showHooks]
      dsimp only
      split
      · exact (Action.readOnly_pure ()).keeps
      · exact Action.Keeps.bind (Action.ReadOnly.keeps fun _ => rfl) fun episodes =>
          (hepisodes.renameEpisodes_keeps _ _ episodes).bind fun _ =>
            Action.Keeps.bind (Action.ReadOnly.keeps fun _ => rfl)
              (hseasons.renameSeasons_keeps _ _))
    (showHooks_onDelete_keeps hseasons.delete_keeps hepisodes.delete_keeps)
  seasons := hseasons.kept seasonHooks_readOnly (fun _ _ => (Action.readOnly_pure ()).keeps)
    (seasonHooks_onDelete_keeps hepisodes.delete_keeps)
  episodes := hepisodes.kept episodeHooks_readOnly (fun _ _ => (Action.readOnly_pure ()).keeps)
    (episodeHooks_onDelete_keeps hshows.delete_keeps hseasons.delete_keeps)

/-! ## The order of rows -/

structure Ordered (s : State) : Prop where
  studios : Table.Ascending s.studios.rows
  collections : Table.Ascending s.collections.rows
  shows : Table.Ascending s.shows.rows
  seasons : Table.Ascending s.seasons.rows
  episodes : Table.Ascending s.episodes.rows

/-- If `I` is about the order of the rows of a table and other tables, all changes keep it. -/
theorem stable_of_ascending (hset : ∀ {s t}, I s → Table.Ascending t.rows → I (lens.set t s))
    (hget : ∀ {s}, I s → Table.Ascending (lens.get s).rows) : Stable lens I where
  insert hs hinsert :=
    hset hs ((Table.insert_ok hinsert).2.2 ▸ Table.place_ascending _ (hget hs))
  update hs hupdate :=
    hset hs ((Table.update_ok hupdate).2.2.2 ▸ Table.place_ascending _ (hget hs))
  delete hs hdelete := hset hs (Table.delete_ok hdelete ▸ (hget hs).filter _)

namespace Ordered

theorem studios_stable : Stable State.studiosLens Ordered :=
  stable_of_ascending (fun hs ht => { hs with studios := ht }) Ordered.studios

theorem collections_stable : Stable State.collectionsLens Ordered :=
  stable_of_ascending (fun hs ht => { hs with collections := ht }) Ordered.collections

theorem shows_stable : Stable State.showsLens Ordered :=
  stable_of_ascending (fun hs ht => { hs with shows := ht }) Ordered.shows

theorem seasons_stable : Stable State.seasonsLens Ordered :=
  stable_of_ascending (fun hs ht => { hs with seasons := ht }) Ordered.seasons

theorem episodes_stable : Stable State.episodesLens Ordered :=
  stable_of_ascending (fun hs ht => { hs with episodes := ht }) Ordered.episodes

theorem invariant : Invariant Ordered :=
  invariant_of_stable ⟨.nil, .nil, .nil, .nil, .nil⟩ studios_stable collections_stable
    shows_stable seasons_stable episodes_stable

end Ordered

theorem after_ordered (history : List (Settings × Request)) : Ordered (after history) :=
  Ordered.invariant.after history

end Catalog
end Repertory
