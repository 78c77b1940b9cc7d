import Repertory.Proofs.Catalog.Rules

/-!
# How a new slug of a show goes on

The episodes of a renamed show follow one after the other, and then its seasons, up to the first
whose new slug another row has. So a rename does all of its work or comes to a stop at one row, and
what it did before that row stays done (`showHooks_onEdited`).
-/

namespace Repertory
namespace Catalog

open Table

def Episode.follow (old new : String) (e : Episode) : Episode :=
  { e with showSlug := new, slug := (rebaseSlug old new e.slug).getD e.slug }

def Season.follow (old new : String) (s : Season) : Season :=
  { s with slug := (rebaseSlug old new s.slug).getD s.slug }

/-! ## Rows that follow one after the other -/

section

variable {α : Type} [Resource α Int64]

/-- Rows of a table were changed by a function in their order, up to one whose new slug was taken
by then. -/
def StoppedAt (f : α → α) (rows : List α) (table changed : Table α Int64) (row : α) : Prop :=
  ∃ front rest, rows = front ++ row :: rest ∧ changed = table.touch f (front.map Resource.id) ∧
    changed.slugTaken (f row) = true

variable (lens : Lens State (Table α Int64)) (f : α → α) (loop : List α → CatalogAction Unit)

/-- The loop updates row after row with what `f` makes of it, and may skip what `f` leaves alone. -/
structure Updates : Prop where
  nil : loop [] = pure ()
  cons : ∀ row rest, (loop (row :: rest) = loop rest ∧ f row = row) ∨
    loop (row :: rest) = (Repository.ask .edit ((Table.store lens).update (f row)) >>=
      fun _ => loop rest)
  id : ∀ row, Resource.id (f row) = Resource.id row

variable {lens f loop} {s : State}

/-- With some rows changed already, the loop changes the others, up to one that it cannot. -/
theorem Updates.exec_touch (h : Updates lens f loop) {table : Table α Int64}
    (hids : Ascending table.rows) {rows : List α} {done : List Int64}
    (hrows : ∀ row ∈ rows, row ∈ table.rows) (hnew : (done ++ rows.map Resource.id).Nodup) :
    (loop rows).exec (lens.set (table.touch f done) s) =
        (.ok (), lens.set (table.touch f (done ++ rows.map Resource.id)) s) ∨
      ∃ front row rest, rows = front ++ row :: rest ∧
        (table.touch f (done ++ front.map Resource.id)).slugTaken (f row) = true ∧
        (loop rows).exec (lens.set (table.touch f done) s) =
          (.error (.ofStore .edit (.conflict "slug" (Resource.slug (f row)))),
            lens.set (table.touch f (done ++ front.map Resource.id)) s) := by
  induction rows generalizing done with
  | nil =>
    rw [h.nil, List.map_nil, List.append_nil, Action.exec_pure]
    exact Or.inl rfl
  | cons row rows ih =>
    have hrow := hrows row List.mem_cons_self
    have hfresh : Resource.id row ∉ done := fun hmem =>
      (List.nodup_append.mp hnew).2.2 _ hmem _ List.mem_cons_self rfl
    have hrest := ih (fun other hother => hrows other (List.mem_cons_of_mem row hother))
      (show ((done ++ [Resource.id row]) ++ rows.map Resource.id).Nodup by simpa using hnew)
    have hcons : ∀ l : List α, (done ++ [Resource.id row]) ++ l.map Resource.id =
        done ++ (row :: l).map Resource.id := fun l => List.append_assoc _ _ _
    simp only [hcons] at hrest
    -- Once the row is changed, the loop goes on as it does over the rows behind.
    have hstep : (loop (row :: rows)).exec (lens.set (table.touch f done) s) =
          (loop rows).exec (lens.set (table.touch f (done ++ [Resource.id row])) s) ∨
        (table.touch f done).slugTaken (f row) = true ∧
          (loop (row :: rows)).exec (lens.set (table.touch f done) s) =
            (.error (.ofStore .edit (.conflict "slug" (Resource.slug (f row)))),
              lens.set (table.touch f done) s) := by
      rcases h.cons row rows with ⟨hskip, hsame⟩ | hupdate
      · rw [hskip, touch_append_of_eq hids hrow hsame]
        exact Or.inl rfl
      · rw [hupdate, Action.exec_bind, Repository.ask, Action.exec_mapError, Table.store_update,
          lens.get_set]
        rcases update_touch h.id hids hrow hfresh with hdone | ⟨htaken, hconflict⟩
        · rw [hdone]
          dsimp only
          rw [lens.set_set]
          exact Or.inl rfl
        · rw [hconflict]
          exact Or.inr ⟨htaken, rfl⟩
    rcases hstep with hstep | ⟨htaken, hstop⟩
    · rw [hstep]
      rcases hrest with hdone | ⟨front, other, rest, rfl, htaken, hstop⟩
      · exact Or.inl hdone
      · exact Or.inr ⟨row :: front, other, rest, rfl, htaken, hstop⟩
    · refine Or.inr ⟨[], row, rows, rfl, ?_, ?_⟩
      · simpa using htaken
      · simpa using hstop

theorem Updates.exec (h : Updates lens f loop) (hids : Ascending (lens.get s).rows)
    {rows : List α} (hrows : rows.Sublist (lens.get s).rows) :
    (loop rows).exec s =
        (.ok (), lens.set ((lens.get s).touch f (rows.map Resource.id)) s) ∨
      ∃ changed row, StoppedAt f rows (lens.get s) changed row ∧
        (loop rows).exec s =
          (.error (.ofStore .edit (.conflict "slug" (Resource.slug (f row)))),
            lens.set changed s) := by
  have hexec := h.exec_touch (s := s) hids (fun row hrow => hrows.subset hrow)
    (show ([] ++ rows.map Resource.id).Nodup from (hrows.map Resource.id).nodup hids.nodup)
  rw [touch_nil, lens.set_get] at hexec
  rcases hexec with hdone | ⟨front, row, rest, hsplit, htaken, hstop⟩
  · exact Or.inl hdone
  · exact Or.inr ⟨_, row, ⟨front, rest, hsplit, rfl, htaken⟩, hstop⟩

end

theorem renameEpisodes_updates (old new : String) :
    Updates State.episodesLens (Episode.follow old new) (renameEpisodes old new) where
  nil := rfl
  cons _ _ := Or.inr rfl
  id _ := rfl

theorem renameSeasons_updates (old new : String) :
    Updates State.seasonsLens (Season.follow old new) (renameSeasons old new) where
  nil := rfl
  cons row rest := by
    rw [renameSeasons, Season.follow]
    cases rebaseSlug old new row.slug with
    | none => exact Or.inl ⟨rfl, rfl⟩
    | some slug => exact Or.inr rfl
  id _ := rfl

/-! ## Rows of a show -/

def State.episodesOf (s : State) (showId : Int64) : List Episode :=
  s.episodes.rows.filter fun row => row.showId = showId

def State.seasonsOf (s : State) (showId : Int64) : List Season :=
  s.seasons.rows.filter fun row => row.showId = showId

theorem run_eq_int {α : Type} [Resource α Int64] {field : Field α} {get : α → Int64}
    (h : ∀ row, field.get row = .int (get row)) (id : Int64) (rows : List α) :
    Query.run { filter := some (.cmp .eq field (.int id)) } rows =
      rows.filter fun row => get row = id := by
  refine List.filter_congr fun row _ => ?_
  rw [Query.selects_some, Bool.eq_iff_iff, decide_eq_true_iff]
  exact Eq.to_iff (Filter.isMatch_eq_toValue (h row) id)

def State.followEpisodes (old new : Show) (s : State) : State :=
  { s with
    episodes := s.episodes.touch (Episode.follow old.slug new.slug)
      ((s.episodesOf new.id).map Resource.id) }

def State.followSeasons (old new : Show) (s : State) : State :=
  { s with
    seasons := s.seasons.touch (Season.follow old.slug new.slug)
      ((s.seasonsOf new.id).map Resource.id) }

/-- How the episodes and seasons of a show come out of its change. -/
inductive Followed (old new : Show) (s : State) : Except RepositoryError Unit → State → Prop where
  | nothing (hslug : old.slug = new.slug) : Followed old new s (.ok ()) s
  | done (hslug : old.slug ≠ new.slug) :
      Followed old new s (.ok ()) ((s.followEpisodes old new).followSeasons old new)
  | atEpisode {changed : Table Episode Int64} {row : Episode} {e : RepositoryError}
      (hslug : old.slug ≠ new.slug)
      (hstop : StoppedAt (Episode.follow old.slug new.slug) (s.episodesOf new.id) s.episodes
        changed row)
      (hkind : e.kind = .duplicateResource) :
      Followed old new s (.error e) { s with episodes := changed }
  | atSeason {changed : Table Season Int64} {row : Season} {e : RepositoryError}
      (hslug : old.slug ≠ new.slug)
      (hstop : StoppedAt (Season.follow old.slug new.slug) (s.seasonsOf new.id) s.seasons
        changed row)
      (hkind : e.kind = .duplicateResource) :
      Followed old new s (.error e) { s.followEpisodes old new with seasons := changed }

/-- Whether all rows of a show can follow it or not, some do and no other row is changed. -/
theorem Followed.exists_touch {old new : Show} {s u : State} {r : Except RepositoryError Unit}
    (h : Followed old new s r u) :
    ∃ episodes seasons, u = { s with
      episodes := s.episodes.touch (Episode.follow old.slug new.slug) episodes
      seasons := s.seasons.touch (Season.follow old.slug new.slug) seasons } := by
  cases h with
  | nothing => exact ⟨[], [], by rw [touch_nil, touch_nil]⟩
  | done => exact ⟨_, _, rfl⟩
  | atEpisode _ hstop =>
    obtain ⟨front, rest, -, rfl, -⟩ := hstop
    exact ⟨_, [], by rw [touch_nil]⟩
  | atSeason _ hstop =>
    obtain ⟨front, rest, -, rfl, -⟩ := hstop
    exact ⟨_, _, rfl⟩

/-- After a show has changed, its episodes and seasons follow, all of them or up to one. -/
theorem showHooks_onEdited {s u : State} (old new : Show) {r : Except RepositoryError Unit}
    (hepisodes : Ascending s.episodes.rows) (hseasons : Ascending s.seasons.rows)
    (h : (showHooks.onEdited old new).exec s = (r, u)) : Followed old new s r u := by
  rw [showHooks] at h
  dsimp only at h
  split at h
  · cases h
    exact .nothing ‹_›
  · rename_i hslug
    have hask : ∀ t : State, (Repository.ask .edit
        (episodeStore.execute { filter := some (ofShowId new.id) })).exec t =
          (.ok (t.episodesOf new.id), t) := fun t =>
      congrArg (fun rows => (Except.ok rows, t)) (run_eq_int (fun _ => rfl) new.id t.episodes.rows)
    have hask' : ∀ t : State, (Repository.ask .edit
        (seasonStore.execute { filter := some (seasonsOfShowId new.id) })).exec t =
          (.ok (t.seasonsOf new.id), t) := fun t =>
      congrArg (fun rows => (Except.ok rows, t)) (run_eq_int (fun _ => rfl) new.id t.seasons.rows)
    rw [Action.exec_bind, hask] at h
    dsimp only at h
    rw [Action.exec_bind] at h
    have howned : (s.episodesOf new.id).Sublist s.episodes.rows := List.filter_sublist
    have howned' : (s.seasonsOf new.id).Sublist s.seasons.rows := List.filter_sublist
    have hrename := (renameEpisodes_updates old.slug new.slug).exec (s := s) hepisodes howned
    have hrename' := (renameSeasons_updates old.slug new.slug).exec
      (s := s.followEpisodes old new) hseasons howned'
    rcases hrename with hdone | ⟨changed, row, hstop, hexec⟩
    · rw [hdone] at h
      dsimp only at h
      rw [Action.exec_bind, hask'] at h
      rcases hrename' with hdone' | ⟨changed, row, hstop, hexec⟩
      · cases hdone'.symm.trans h
        exact .done hslug
      · cases hexec.symm.trans h
        exact .atSeason hslug hstop rfl
    · rw [hexec] at h
      cases h
      exact .atEpisode hslug hstop rfl

end Catalog
end Repertory
