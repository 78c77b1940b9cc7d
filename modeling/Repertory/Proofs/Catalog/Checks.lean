import Repertory.Proofs.Catalog.Rules
import Repertory.Proofs.Repository.CreateIfNotExists

/-!
# The checks before a write

Each check is a computation from the row and what is found in other tables, and either fails or
gives the row as it will be stored. A slug that is there stays, an empty one is filled in for
seasons and episodes, and what is stored is admissible.
-/

namespace Repertory

/-- The result of an action that reads first is computed from what was read. -/
theorem Action.ReadOnly.bind_fst {σ ε β γ : Type} {action : Action σ ε β}
    {next : β → Action σ ε γ} (h : action.ReadOnly) (s : σ) :
    ((action >>= next).exec s).1 = (action.exec s).1 >>= fun b => ((next b).exec s).1 := by
  rw [h.exec_bind]
  cases (action.exec s).1 <;> rfl

/-- What passes the rules for slugs is the row itself, with an admissible slug. -/
theorem validateSlug_bind_ok {α ι : Type} [Identity ι] [Resource α ι] {item row : α}
    (h : (do validateSlug item; return item) = Except.ok row) :
    row = item ∧ AdmissibleSlug ι (Resource.slug row) := by
  obtain ⟨_, hslug, hrow⟩ := exists_of_bind_ok h
  cases hrow
  exact ⟨rfl, validateSlug_ok_iff.mp hslug⟩

namespace Catalog

open Repository

theorem plain_validate_fst {α : Type} [Resource α Int64] (item : α) (s : State) :
    (((Hooks.plain : Hooks State α).validate item).exec s).1 =
      (do validateSlug item; return item) :=
  (Action.readOnly_ofExcept _).bind_fst s

theorem plain_checks {α : Type} [Resource α Int64] (lens : Lens State (Table α Int64)) :
    Checks lens (Hooks.plain : Hooks State α).validate where
  readOnly := plain_readOnly
  elsewhere item s t := by rw [plain_validate_fst, plain_validate_fst]
  keeps_slug {item row s} h _ := by
    rw [plain_validate_fst] at h
    exact congrArg Resource.slug (validateSlug_bind_ok h).1
  admissible {item row s} h := by
    rw [plain_validate_fst] at h
    exact (validateSlug_bind_ok h).2

/-! ## What is found in other tables -/

theorem parentShow_congr {kind slug : String} {showId : Int64} {s u : State}
    (h : s.shows = u.shows) :
    ((parentShow kind slug showId).exec s).1 = ((parentShow kind slug showId).exec u).1 := by
  have hask : ∀ t : State, (Repository.ask .create (showStore.execute (Query.byId showId))).exec t =
      (.ok ((Query.byId showId).run t.shows.rows), t) := fun _ => rfl
  rw [parentShow]
  split
  · rfl
  · dsimp only
    rw [Action.exec_bind, Action.exec_bind, hask, hask, h]
    cases (Query.byId showId).run u.shows.rows <;> rfl

theorem resolveSeason_congr (item : Episode) {s u : State} (h : s.seasons = u.seasons) :
    ((resolveSeason item).exec s).1 = ((resolveSeason item).exec u).1 := by
  rw [resolveSeason.eq_def]
  split
  · rename_i number _ _
    exact congrArg (fun seasons =>
      ((seasonOfNumber item.showId number).exec { u with seasons }).1) h
  · rfl

/-- The season that an episode is checked with: the one that it names, or else the first of its show
with its season number. -/
def State.seasonOf (s : State) (item : Episode) : Option Int64 :=
  match item.seasonId, item.seasonNumber with
  | some id, _ => some id
  | none, some number => (s.seasons.rows.find? fun season =>
      season.showId = item.showId ∧ season.seasonNumber = number).map Season.id
  | none, none => none

theorem seasonOfNumber_fst (showId number : Int64) (s : State) :
    ((seasonOfNumber showId number).exec s).1 = .ok ((s.seasons.rows.find? fun season =>
      season.showId = showId ∧ season.seasonNumber = number).map Season.id) := by
  have hselects : (Query.selects (some (.and (seasonsOfShowId showId)
      (.cmp .eq Season.seasonNumberField (.int number)))) : Season → Bool) =
        fun season => decide (season.showId = showId ∧ season.seasonNumber = number) := by
    funext season
    have hnumber : (Filter.cmp .eq Season.seasonNumberField (.int number) :
        Filter Season Int64).isMatch season = true ↔ season.seasonNumber = number :=
      Eq.to_iff (Filter.isMatch_eq_toValue (ι := Int64) rfl number)
    rw [Bool.eq_iff_iff, Query.selects_some, Filter.isMatch_and, Bool.and_eq_true,
      seasonsOfShowId_isMatch, hnumber, decide_eq_true_iff]
  have hexec : ((seasonOfNumber showId number).exec s).1 =
      .ok (((s.seasons.rows.filter (Query.selects (some (.and (seasonsOfShowId showId)
        (.cmp .eq Season.seasonNumberField (.int number)))))).take 1).head?.map Season.id) := rfl
  rw [hexec, hselects, List.head?_take, if_neg Nat.one_ne_zero, List.head?_filter]

theorem resolveSeason_fst (item : Episode) (s : State) :
    ((resolveSeason item).exec s).1 = .ok (s.seasonOf item) := by
  rw [resolveSeason.eq_def, State.seasonOf]
  cases item.seasonId with
  | some id => cases item.seasonNumber <;> rfl
  | none =>
    cases item.seasonNumber with
    | some number => exact seasonOfNumber_fst item.showId number s
    | none => rfl

/-! ## Seasons -/

def Season.completed (parent : Show) (item : Season) : Season :=
  if item.slug.isEmpty then
    { item with slug := Season.defaultSlug parent.slug item.seasonNumber }
  else item

theorem seasonHooks_validate_fst (item : Season) (s : State) :
    ((seasonHooks.validate item).exec s).1 = (do
      let parent ← ((parentShow "Season" item.slug item.showId).exec s).1
      validateSlug (item.completed parent)
      return item.completed parent) := by
  rw [seasonHooks]
  dsimp only
  rw [(parentShow_readOnly _ _ _).bind_fst]
  exact congrArg (_ >>= ·) (funext fun parent => (Action.readOnly_ofExcept _).bind_fst s)

theorem seasonHooks_checks : Checks State.seasonsLens seasonHooks.validate where
  readOnly := seasonHooks_readOnly
  elsewhere item s t := by
    have hparent :
        ((parentShow "Season" item.slug item.showId).exec (State.seasonsLens.set t s)).1 =
        ((parentShow "Season" item.slug item.showId).exec s).1 := parentShow_congr rfl
    rw [seasonHooks_validate_fst, seasonHooks_validate_fst, hparent]
  keeps_slug {item row s} h hslug := by
    rw [seasonHooks_validate_fst] at h
    obtain ⟨parent, -, hrow⟩ := exists_of_bind_ok h
    have hempty : item.slug.isEmpty = false := by simpa using show item.slug ≠ "" from hslug
    rw [(validateSlug_bind_ok hrow).1, Season.completed, if_neg (Bool.eq_false_iff.mp hempty)]
  admissible {item row s} h := by
    rw [seasonHooks_validate_fst] at h
    obtain ⟨parent, -, hrow⟩ := exists_of_bind_ok h
    exact (validateSlug_bind_ok hrow).2

/-! ## Episodes -/

def Episode.completed (parent : Show) (seasonId : Option Int64) (slug : String)
    (item : Episode) : Episode :=
  { item with showSlug := parent.slug, seasonId, slug }

theorem episodeHooks_validate_fst (item : Episode) (s : State) :
    ((episodeHooks.validate item).exec s).1 = (do
      let parent ← ((parentShow "Episode" item.slug item.showId).exec s).1
      let seasonId ← ((resolveSeason { item with showSlug := parent.slug }).exec s).1
      let slug ← completeSlug { item with showSlug := parent.slug, seasonId }
      validateSlug (item.completed parent seasonId slug)
      return item.completed parent seasonId slug) := by
  rw [episodeHooks]
  dsimp only
  rw [(parentShow_readOnly _ _ _).bind_fst]
  refine congrArg (_ >>= ·) (funext fun parent => ?_)
  rw [(resolveSeason_readOnly _).bind_fst]
  refine congrArg (_ >>= ·) (funext fun seasonId => ?_)
  rw [(Action.readOnly_ofExcept _).bind_fst]
  exact congrArg (_ >>= ·) (funext fun slug => (Action.readOnly_ofExcept _).bind_fst s)

/-- What the checks make of an episode. They fill in the slug of its show, look up its season, and
derive its slug if it has none. -/
structure Episode.Checked (s : State) (item row : Episode) : Prop where
  showSlug : ∃ parent ∈ s.shows.rows, parent.id = item.showId ∧ row.showSlug = parent.slug
  seasonId : row.seasonId = s.seasonOf item
  slug : if item.slug = "" then item.defaultSlug row.showSlug = some row.slug
    else row.slug = item.slug
  rest : row =
    { item with showSlug := row.showSlug, seasonId := row.seasonId, slug := row.slug }

theorem Episode.Checked.id {s : State} {item row : Episode} (h : Checked s item row) :
    row.id = item.id := by
  rw [h.rest]

theorem Episode.Checked.showId {s : State} {item row : Episode} (h : Checked s item row) :
    row.showId = item.showId := by
  rw [h.rest]

theorem completeSlug_default {item : Episode} {slug : String} (h : completeSlug item = .ok slug) :
    if item.slug = "" then item.defaultSlug item.showSlug = some slug else slug = item.slug := by
  rw [completeSlug] at h
  split
  · rename_i hempty
    rw [if_pos (by simpa using hempty)] at h
    split at h
    · cases h
      assumption
    · cases h
  · rename_i hslug
    rw [if_neg (by simpa using hslug)] at h
    exact (Except.ok.inj h).symm

theorem episodeHooks_validate_checked {item row : Episode} {s : State}
    (h : (episodeHooks.validate item).exec s = (.ok row, s)) : Episode.Checked s item row := by
  have hfst := congrArg Prod.fst h
  rw [episodeHooks_validate_fst] at hfst
  obtain ⟨parent, hparent, hfst⟩ := exists_of_bind_ok hfst
  obtain ⟨seasonId, hseason, hfst⟩ := exists_of_bind_ok hfst
  obtain ⟨slug, hslug, hfst⟩ := exists_of_bind_ok hfst
  obtain ⟨rfl, -⟩ := validateSlug_bind_ok hfst
  obtain ⟨hmem, hid⟩ := (parentShow_cases rfl).2 parent hparent
  rw [resolveSeason_fst] at hseason
  exact ⟨⟨parent, hmem, hid, rfl⟩, (Except.ok.inj hseason).symm, completeSlug_default hslug, rfl⟩

theorem completeSlug_ok {item : Episode} {slug : String} (h : completeSlug item = .ok slug)
    (hslug : item.slug ≠ "") : slug = item.slug := by
  have hdefault := completeSlug_default h
  rwa [if_neg hslug] at hdefault

theorem episodeHooks_checks : Checks State.episodesLens episodeHooks.validate where
  readOnly := episodeHooks_readOnly
  elsewhere item s t := by
    have hparent : ((parentShow "Episode" item.slug item.showId).exec
        (State.episodesLens.set t s)).1 =
          ((parentShow "Episode" item.slug item.showId).exec s).1 := parentShow_congr rfl
    have hseason : ∀ e, ((resolveSeason e).exec (State.episodesLens.set t s)).1 =
        ((resolveSeason e).exec s).1 := fun e => resolveSeason_congr e rfl
    simp only [episodeHooks_validate_fst, hparent, hseason]
  keeps_slug {item row s} h hslug := by
    rw [episodeHooks_validate_fst] at h
    obtain ⟨parent, -, h⟩ := exists_of_bind_ok h
    obtain ⟨seasonId, -, h⟩ := exists_of_bind_ok h
    obtain ⟨slug, hcomplete, hrow⟩ := exists_of_bind_ok h
    rw [(validateSlug_bind_ok hrow).1]
    have hsame := completeSlug_ok hcomplete hslug
    exact hsame
  admissible {item row s} h := by
    rw [episodeHooks_validate_fst] at h
    obtain ⟨parent, -, h⟩ := exists_of_bind_ok h
    obtain ⟨seasonId, -, h⟩ := exists_of_bind_ok h
    obtain ⟨slug, -, hrow⟩ := exists_of_bind_ok h
    exact (validateSlug_bind_ok hrow).2

/-! ## What an edit takes over -/

/-- What an edit makes of a show. A studio is given by its id and comes with the row that was given
along. What is not given stays as it was, unless it is reset. -/
def Show.edited (resetOld : Bool) (old changes : Show) : Show :=
  { changes with
    id := old.id
    studioId := if resetOld || changes.studioId.isSome then changes.studioId else old.studioId
    studioRow := if resetOld || changes.studioId.isSome then changes.studioRow else old.studioRow
    collections :=
      if resetOld || changes.collections.isSome then changes.collections else old.collections }

/-- What an edit makes of an episode before it is checked. A season is given by its id and comes
with the row that was given along. -/
def Episode.edited (resetOld : Bool) (old changes : Episode) : Episode :=
  { changes with
    id := old.id
    seasonId := if resetOld || changes.seasonId.isSome then changes.seasonId else old.seasonId
    seasonRow := if resetOld || changes.seasonId.isSome then changes.seasonRow else old.seasonRow }

theorem Show.keepRelations_eq (resetOld : Bool) (old changes : Show) :
    keepRelations old resetOld changes = { edited resetOld old changes with id := changes.id } := by
  rcases changes with ⟨_, _, _, _, _, _, _, _, studioId, collections, _⟩
  cases resetOld <;> cases studioId <;> cases collections <;> rfl

theorem Episode.keepRelations_eq (resetOld : Bool) (old changes : Episode) :
    keepRelations old resetOld changes = { edited resetOld old changes with id := changes.id } := by
  rcases changes with ⟨_, _, _, _, seasonId, _, _, _, _, _, _, _⟩
  cases resetOld <;> cases seasonId <;> rfl

end Catalog
end Repertory
