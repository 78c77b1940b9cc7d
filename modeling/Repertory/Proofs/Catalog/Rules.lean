import Repertory.Catalog.Rules
import Repertory.Proofs.Store.Table

/-!
# What the rules of a catalog do

The checks before a write only read. What follows from a change is a run of single calls to tables,
so it keeps whatever every single call keeps (`Stable`).
-/

namespace Repertory
namespace Catalog

/-! ## Checks -/

/-- The parent that is found, if one is, is a stored show. -/
theorem parentShow_cases {kind slug : String} {showId : Int64} {s u : State}
    {r : Except RepositoryError Show} (h : (parentShow kind slug showId).exec s = (r, u)) :
    u = s ∧ ∀ row, r = .ok row → row ∈ s.shows.rows ∧ row.id = showId := by
  rw [parentShow] at h
  split at h
  · cases h
    exact ⟨rfl, fun _ hr => by cases hr⟩
  · have hask : (Repository.ask .create (showStore.execute (Query.byId showId))).exec s =
        (.ok ((Query.byId showId).run s.shows.rows), s) := rfl
    dsimp only at h
    rw [Action.exec_bind, hask] at h
    dsimp only at h
    split at h
    · rename_i row rest hrows
      cases h
      refine ⟨rfl, fun found hfound => ?_⟩
      cases hfound
      have hrun : row ∈ (Query.byId showId).run s.shows.rows := hrows ▸ List.mem_cons_self
      obtain ⟨hmem, hselects⟩ := Query.mem_run hrun
      exact ⟨hmem, Filter.isMatch_idEq showId row ▸ hselects⟩
    · cases h
      exact ⟨rfl, fun _ hr => by cases hr⟩

theorem parentShow_readOnly (kind slug : String) (showId : Int64) :
    (parentShow kind slug showId).ReadOnly :=
  fun _ => (parentShow_cases rfl).1

theorem plain_readOnly {α : Type} [Resource α Int64] (item : α) :
    ((Hooks.plain : Hooks State α).validate item).ReadOnly :=
  (Action.readOnly_ofExcept _).bind fun _ => Action.readOnly_pure _

theorem plain_validate_ok {α : Type} [Resource α Int64] {item row : α} {s : State}
    (h : ((Hooks.plain : Hooks State α).validate item).exec s = (.ok row, s)) : row = item := by
  rw [Hooks.plain] at h
  dsimp only at h
  rw [Action.exec_bind, Action.exec_ofExcept] at h
  cases hslug : validateSlug item with
  | error e =>
    rw [hslug] at h
    cases h
  | ok =>
    rw [hslug] at h
    cases h
    rfl

theorem seasonHooks_readOnly (item : Season) : (seasonHooks.validate item).ReadOnly :=
  (parentShow_readOnly _ _ _).bind fun _ =>
    (Action.readOnly_ofExcept _).bind fun _ => Action.readOnly_pure _

theorem resolveSeason_readOnly (item : Episode) : (resolveSeason item).ReadOnly := by
  rw [resolveSeason.eq_def]
  split
  · exact fun _ => rfl
  · exact Action.readOnly_pure _

theorem episodeHooks_readOnly (item : Episode) : (episodeHooks.validate item).ReadOnly :=
  (parentShow_readOnly _ _ _).bind fun _ => (resolveSeason_readOnly _).bind fun _ =>
    (Action.readOnly_ofExcept _).bind fun _ => (Action.readOnly_ofExcept _).bind fun _ =>
      Action.readOnly_pure _

/-! ## What follows -/

variable {α : Type} [Resource α Int64] {lens : Lens State (Table α Int64)} {I : State → Prop}

variable (lens) in
/-- After a deletion no row has the id, whether one had it before or not. -/
theorem delete_exec (id : Int64) (s : State) :
    ∃ r, ((Table.store lens).delete id).exec s =
        (r, lens.set ((lens.get s).without [id]) s) ∧
      (r = .ok () ∨ ∃ text, r = .error (.notFound text)) := by
  rw [Table.store_delete]
  rcases Table.delete_cases id (lens.get s) with hdeleted | ⟨hmissing, hsame⟩
  · rw [hdeleted]
    exact ⟨_, rfl, Or.inl rfl⟩
  · rw [hmissing, hsame, lens.set_get]
    exact ⟨_, rfl, Or.inr ⟨_, rfl⟩⟩

theorem purgeRows_exec (rows : List α) (s : State) :
    (purgeRows (Table.store lens) rows).exec s =
      (.ok (), lens.set ((lens.get s).without (rows.map Resource.id)) s) := by
  induction rows generalizing s with
  | nil =>
    rw [List.map_nil, Table.without_nil, lens.set_get]
    rfl
  | cons row rest ih =>
    have hrest := ih (lens.set ((lens.get s).without [Resource.id row]) s)
    rw [lens.get_set, lens.set_set, ← Table.without_cons] at hrest
    obtain ⟨r, hexec, rfl | ⟨text, rfl⟩⟩ := delete_exec lens (Resource.id row) s
    · rw [purgeRows, Action.exec_bind, Action.exec_outcome, hexec]
      exact hrest
    · rw [purgeRows, Action.exec_bind, Action.exec_outcome, hexec]
      exact hrest

variable (lens) in
/-- Where ids are keys, a purge leaves the rows that it is not about and no others. -/
theorem purge_exec {filter : Filter α Int64} {p : α → Prop} [DecidablePred p]
    (hfilter : ∀ row, filter.isMatch row = true ↔ p row) (s : State)
    (hids : Table.Ascending (lens.get s).rows) :
    (purge (Table.store lens) filter).exec s =
      (.ok (), lens.set ((lens.get s).keep fun row => ¬p row) s) := by
  have hkept : (lens.get s).keep (fun row => ¬p row) =
      (lens.get s).without (((lens.get s).rows.filter filter.isMatch).map Resource.id) := by
    rw [Table.without_filter hids]
    refine Table.keep_congr fun row _ => ?_
    rw [decide_not]
    exact congrArg not (Bool.eq_iff_iff.mpr (decide_eq_true_iff.trans (hfilter row).symm))
  rw [hkept]
  exact purgeRows_exec _ s

theorem ofShowId_isMatch (id : Int64) (e : Episode) :
    (ofShowId id).isMatch e = true ↔ e.showId = id :=
  Eq.to_iff (Filter.isMatch_eq_toValue (ι := Int64) rfl id)

theorem seasonsOfShowId_isMatch (id : Int64) (season : Season) :
    (seasonsOfShowId id).isMatch season = true ↔ season.showId = id :=
  Eq.to_iff (Filter.isMatch_eq_toValue (ι := Int64) rfl id)

theorem ofSeasonId_isMatch (id : Int64) (e : Episode) :
    (Filter.cmp .eq Episode.seasonIdField (.int id) : Filter Episode Int64).isMatch e = true ↔
      e.seasonId = some id := by
  have hvalue : Episode.seasonIdField.get e = .ofOption .int e.seasonId := rfl
  cases hseason : e.seasonId with
  | none =>
    rw [Filter.isMatch_cmp Value.noConfusion, hvalue, hseason]
    exact ⟨nofun, nofun⟩
  | some other =>
    rw [hseason] at hvalue
    exact (Eq.to_iff (Filter.isMatch_eq_toValue hvalue id)).trans Option.some_inj.symm

/-- With a show, its episodes and seasons go. -/
theorem showHooks_onDelete_eq (row : Show) (s : State)
    (hepisodes : Table.Ascending s.episodes.rows) (hseasons : Table.Ascending s.seasons.rows) :
    (showHooks.onDelete row).exec s = (.ok (), { s with
      seasons := s.seasons.keep fun season => season.showId ≠ row.id
      episodes := s.episodes.keep fun e => e.showId ≠ row.id }) := by
  have hpurge := purge_exec State.episodesLens (ofShowId_isMatch row.id) s hepisodes
  have hpurge' := purge_exec State.seasonsLens (seasonsOfShowId_isMatch row.id)
    { s with episodes := s.episodes.keep fun e => e.showId ≠ row.id } hseasons
  rw [show showHooks.onDelete row = purge episodeStore (ofShowId row.id) >>=
    fun _ => purge seasonStore (seasonsOfShowId row.id) from rfl, Action.exec_bind]
  exact hpurge ▸ hpurge'

theorem showHooks_onDelete_exec (row : Show) (s : State)
    (hepisodes : Table.Ascending s.episodes.rows) (hseasons : Table.Ascending s.seasons.rows) :
    ∃ episodes seasons, (showHooks.onDelete row).exec s = (.ok (), { s with episodes, seasons }) ∧
      (∀ e, e ∈ episodes.rows ↔ e ∈ s.episodes.rows ∧ e.showId ≠ row.id) ∧
      ∀ season, season ∈ seasons.rows ↔ season ∈ s.seasons.rows ∧ season.showId ≠ row.id :=
  ⟨_, _, showHooks_onDelete_eq row s hepisodes hseasons,
    fun _ => Table.mem_keep.trans (and_congr_right fun _ => decide_eq_true_iff),
    fun _ => Table.mem_keep.trans (and_congr_right fun _ => decide_eq_true_iff)⟩

/-- The show goes together with its seasons if no episode of it is left. -/
theorem episodeHooks_onDelete_eq (row : Episode) (s : State)
    (hseasons : Table.Ascending s.seasons.rows) :
    (episodeHooks.onDelete row).exec s = (.ok (),
      if ∃ e ∈ s.episodes.rows, e.showId = row.showId then s
      else { s with
        shows := s.shows.keep fun other => other.id ≠ row.showId
        seasons := s.seasons.keep fun season => season.showId ≠ row.showId }) := by
  have hcount : (Repository.ask .delete
      (episodeStore.count (some (ofShowId row.showId)))).exec s =
        (.ok (s.episodes.count (some (ofShowId row.showId))), s) := rfl
  have hremaining : 0 < s.episodes.count (some (ofShowId row.showId)) ↔
      ∃ e ∈ s.episodes.rows, e.showId = row.showId := by
    rw [Table.count, List.length_pos_iff_exists_mem]
    exact exists_congr fun e => List.mem_filter.trans
      (and_congr_right fun _ => ofShowId_isMatch row.showId e)
  rw [episodeHooks]
  dsimp only
  rw [Action.exec_bind, hcount]
  dsimp only
  by_cases hleft : ∃ e ∈ s.episodes.rows, e.showId = row.showId
  · rw [if_pos hleft, if_pos (hremaining.mpr hleft)]
    rfl
  · rw [if_neg hleft, if_neg (mt hremaining.mp hleft)]
    have hpurge : (purge seasonStore (seasonsOfShowId row.showId)).exec s =
        (.ok (), { s with
          seasons := s.seasons.keep fun season => season.showId ≠ row.showId }) :=
      purge_exec State.seasonsLens (seasonsOfShowId_isMatch row.showId) s hseasons
    -- That the show may be gone already makes no difference.
    obtain ⟨r, hremove, hr⟩ := delete_exec State.showsLens row.showId { s with
      seasons := s.seasons.keep fun season => season.showId ≠ row.showId }
    rw [Table.without_singleton] at hremove
    rw [Action.exec_bind, hpurge]
    dsimp only
    rw [Action.exec_bind, Action.exec_outcome, show (showStore.delete _).exec _ = _ from hremove]
    rcases hr with rfl | ⟨text, rfl⟩ <;> rfl

/-- With the last episode of a show, its seasons and the show itself go. -/
theorem episodeHooks_onDelete_exec (row : Episode) (s : State)
    (hseasons : Table.Ascending s.seasons.rows) :
    ((episodeHooks.onDelete row).exec s).2 = s ∨
      (∀ e ∈ s.episodes.rows, e.showId ≠ row.showId) ∧
      ∃ seasons, ((episodeHooks.onDelete row).exec s).2 =
          { s with shows := s.shows.without [row.showId], seasons } ∧
        ∀ season, season ∈ seasons.rows ↔
          season ∈ s.seasons.rows ∧ season.showId ≠ row.showId := by
  rw [episodeHooks_onDelete_eq row s hseasons]
  by_cases hleft : ∃ e ∈ s.episodes.rows, e.showId = row.showId
  · exact Or.inl (if_pos hleft)
  · refine Or.inr ⟨fun e he hid => hleft ⟨e, he, hid⟩, _, ?_,
      fun _ => Table.mem_keep.trans (and_congr_right fun _ => decide_eq_true_iff)⟩
    rw [if_neg hleft, Table.without_singleton]
    rfl

/-- With a season, its episodes go. -/
theorem seasonHooks_onDelete_eq (row : Season) (s : State)
    (hepisodes : Table.Ascending s.episodes.rows) :
    (seasonHooks.onDelete row).exec s = (.ok (), { s with
      episodes := s.episodes.keep fun e => e.seasonId ≠ some row.id }) :=
  purge_exec State.episodesLens (ofSeasonId_isMatch row.id) s hepisodes

theorem seasonHooks_onDelete_exec (row : Season) (s : State)
    (hepisodes : Table.Ascending s.episodes.rows) :
    ∃ episodes, (seasonHooks.onDelete row).exec s = (.ok (), { s with episodes }) ∧
      ∀ e, e ∈ episodes.rows ↔ e ∈ s.episodes.rows ∧ e.seasonId ≠ some row.id :=
  ⟨_, seasonHooks_onDelete_eq row s hepisodes,
    fun _ => Table.mem_keep.trans (and_congr_right fun _ => decide_eq_true_iff)⟩

section

variable (hdelete : ∀ id, ((Table.store lens).delete id).Keeps I)

include hdelete in
theorem purgeRows_keeps (rows : List α) : (purgeRows (Table.store lens) rows).Keeps I := by
  induction rows with
  | nil => exact (Action.readOnly_pure ()).keeps
  | cons row rest ih =>
    refine (hdelete _).outcome.bind fun outcome => ?_
    split
    · exact ih
    · exact ih
    · exact (Action.readOnly_throw _).keeps

include hdelete in
theorem purge_keeps (filter : Filter α Int64) : (purge (Table.store lens) filter).Keeps I :=
  Action.Keeps.bind (Action.ReadOnly.keeps fun _ => rfl) (purgeRows_keeps hdelete)

end

section

variable (hshows : ∀ id, (showStore.delete id).Keeps I)
  (hseasons : ∀ id, (seasonStore.delete id).Keeps I)
  (hepisodes : ∀ id, (episodeStore.delete id).Keeps I)

include hseasons hepisodes in
theorem showHooks_onDelete_keeps (row : Show) : (showHooks.onDelete row).Keeps I :=
  (purge_keeps hepisodes _).bind fun _ => purge_keeps hseasons _

include hepisodes in
theorem seasonHooks_onDelete_keeps (row : Season) : (seasonHooks.onDelete row).Keeps I :=
  purge_keeps hepisodes _

include hshows hseasons in
theorem episodeHooks_onDelete_keeps (row : Episode) : (episodeHooks.onDelete row).Keeps I :=
  Action.Keeps.bind (Action.ReadOnly.keeps fun _ => rfl) fun remaining => by
    split
    · exact (Action.readOnly_pure ()).keeps
    · refine (purge_keeps hseasons _).bind fun _ => (hshows row.showId).outcome.bind
        fun outcome => ?_
      split
      · exact (Action.readOnly_pure ()).keeps
      · exact (Action.readOnly_pure ()).keeps
      · exact (Action.readOnly_throw _).keeps

end

/-- Every change of one table keeps `I`. -/
structure Stable (lens : Lens State (Table α Int64)) (I : State → Prop) : Prop where
  insert : ∀ {s item row t}, I s → (lens.get s).insert item = .ok (row, t) → I (lens.set t s)
  update : ∀ {s item row t}, I s → (lens.get s).update item = .ok (row, t) → I (lens.set t s)
  delete : ∀ {s id t}, I s → (lens.get s).delete id = .ok ((), t) → I (lens.set t s)

namespace Stable

theorem update_keeps (h : Stable lens I) (item : α) :
    ((Table.store lens).update item).Keeps I := by
  intro s hs
  rw [Table.store_update]
  cases hupdate : (lens.get s).update item with
  | error e => exact hs
  | ok result => exact h.update hs hupdate

theorem delete_keeps (h : Stable lens I) (id : Int64) :
    ((Table.store lens).delete id).Keeps I := by
  intro s hs
  rw [Table.store_delete]
  cases hdelete : (lens.get s).delete id with
  | error e => exact hs
  | ok result => exact h.delete hs hdelete

theorem renameEpisodes_keeps (h : Stable State.episodesLens I) (old new : String)
    (rows : List Episode) : (renameEpisodes old new rows).Keeps I := by
  induction rows with
  | nil => exact (Action.readOnly_pure ()).keeps
  | cons row rest ih => exact ((h.update_keeps _).mapError _).bind fun _ => ih

theorem renameSeasons_keeps (h : Stable State.seasonsLens I) (old new : String)
    (rows : List Season) : (renameSeasons old new rows).Keeps I := by
  induction rows with
  | nil => exact (Action.readOnly_pure ()).keeps
  | cons row rest ih =>
    rw [renameSeasons]
    split
    · exact ih
    · exact ((h.update_keeps _).mapError _).bind fun _ => ih

end Stable

theorem dropMemberships_keeps {rows : List Show} (id : Int64)
    (h : ∀ row ∈ rows, ∀ collections, (showStore.update { row with collections }).Keeps I) :
    (dropMemberships id rows).Keeps I := by
  induction rows with
  | nil => exact (Action.readOnly_pure ()).keeps
  | cons row rest ih =>
    exact ((h row List.mem_cons_self _).mapError _).bind fun _ =>
      ih fun other hother => h other (List.mem_cons_of_mem row hother)

/-- Once a collection is gone, the shows that named it are updated in their collections only. -/
theorem collectionHooks_onDelete_keeps_of_mem
    (h : ∀ {s}, I s → ∀ row ∈ s.shows.rows, ∀ collections,
      (showStore.update { row with collections }).Keeps I)
    (row : Collection) : (collectionHooks.onDelete row).Keeps I := by
  intro s hs
  have hask : (Repository.ask .delete (showStore.execute
      { filter := some (.satisfies fun other => other.isInCollection row.id) })).exec s =
        (.ok (Query.run { filter := some (.satisfies fun other => other.isInCollection row.id) }
          s.shows.rows), s) := rfl
  rw [collectionHooks]
  dsimp only
  rw [Action.exec_bind, hask]
  exact dropMemberships_keeps row.id (fun other hother => h hs other (Query.mem_run hother).1) s hs

theorem collectionHooks_onDelete_keeps (h : ∀ item, (showStore.update item).Keeps I)
    (row : Collection) : (collectionHooks.onDelete row).Keeps I :=
  collectionHooks_onDelete_keeps_of_mem (fun _ _ _ _ => h _) row

end Catalog
end Repertory
