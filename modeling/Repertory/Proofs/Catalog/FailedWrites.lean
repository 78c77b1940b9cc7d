import Repertory.Proofs.Catalog.History
import Repertory.Proofs.Catalog.Rename

/-!
# Failed writes

A write that fails leaves the catalog as it was, but for one case: a show is stored under its new
slug before its episodes and seasons follow, and one of them may find its own new slug taken
(`write_failed`). Nothing takes back what was done until then.
-/

namespace Repertory
namespace Catalog

open Repository

def Change.IsWrite {α : Type} : Change α → Prop
  | write _ => True
  | removal _ => False

def Request.IsWrite : Request → Prop
  | studios change => change.IsWrite
  | shows change => change.IsWrite
  | seasons change => change.IsWrite
  | episodes change => change.IsWrite
  | collections change => change.IsWrite
  | load _ => False

/-- A show was stored under a new slug, and one of its episodes or seasons could not follow. -/
inductive StoppedRename (w : Write Show Int64) (s : State) : RepositoryError → State → Prop where
  | intro {old new : Show} {t : Table Show Int64} {e e' : RepositoryError} {u : State}
      (hw : w.Replaces old.id) (hold : old ∈ s.shows.rows) (hid : new.id = old.id)
      (hslug : old.slug ≠ new.slug) (hstored : s.shows.update new = .ok (new, t))
      (hfollowed : Followed old new { s with shows := t } (.error e') u)
      (hkind : e.kind = .duplicateResource) : StoppedRename w s e u

section

variable {α : Type} [Resource α Int64] (lens : Lens State (Table α Int64)) (hooks : Hooks State α)
  {searchLimit : Nat} {seed : UInt64} {s u : State} {e : RepositoryError}

theorem Change.wrote_of_error (hvalid : ∀ item, (hooks.validate item).ReadOnly)
    {w : Write α Int64}
    (h : ((Change.write w).perform
      (.ofStore (Table.store lens) hooks searchLimit seed)).exec s = (.error e, u)) :
    Wrote lens hooks w s (.error e) u := by
  rcases hperform : (w.perform (.ofStore (Table.store lens) hooks searchLimit seed)).exec s
    with ⟨e' | row, v⟩
  · rw [Change.perform, Action.exec_bind, hperform] at h
    cases h
    exact Write.perform_wrote hvalid w hperform
  · rw [Change.perform, Action.exec_bind, hperform] at h
    cases h

/-- Where nothing has to follow a changed row, a failed write does nothing. -/
theorem Change.eq_of_error (hvalid : ∀ item, (hooks.validate item).ReadOnly)
    (hedited : ∀ old new, hooks.onEdited old new = pure ()) {change : Change α}
    (hw : change.IsWrite)
    (h : (change.perform (.ofStore (Table.store lens) hooks searchLimit seed)).exec s =
      (.error e, u)) : u = s := by
  cases change with
  | removal => exact hw.elim
  | write w =>
    cases wrote_of_error lens hooks hvalid h with
    | nothing => rfl
    | interrupted _ _ _ _ hfailed _ =>
      rw [hedited] at hfailed
      cases hfailed

end

/-- A failed write leaves everything as it was, unless it gave a show a new slug that not all of its
episodes and seasons could follow. -/
theorem write_failed (history : List (Settings × Request)) (settings : Settings) (request : Request)
    (hwrite : request.IsWrite) {e : RepositoryError} {u : State}
    (h : (request.perform settings).exec (after history) = (.error e, u)) :
    u = after history ∨
      ∃ w, request = .shows (.write w) ∧ StoppedRename w (after history) e u := by
  have hordered := after_ordered history
  generalize after history = s at hordered h ⊢
  cases request with
  | load => exact hwrite.elim
  | studios change =>
    exact Or.inl (Change.eq_of_error State.studiosLens Hooks.plain plain_readOnly
      (fun _ _ => rfl) hwrite h)
  | seasons change =>
    exact Or.inl (Change.eq_of_error State.seasonsLens seasonHooks seasonHooks_readOnly
      (fun _ _ => rfl) hwrite h)
  | episodes change =>
    exact Or.inl (Change.eq_of_error State.episodesLens episodeHooks episodeHooks_readOnly
      (fun _ _ => rfl) hwrite h)
  | collections change =>
    exact Or.inl (Change.eq_of_error State.collectionsLens collectionHooks plain_readOnly
      (fun _ _ => rfl) hwrite h)
  | shows change =>
    cases change with
    | removal => exact hwrite.elim
    | write w =>
      cases Change.wrote_of_error State.showsLens showHooks plain_readOnly h with
      | nothing => exact Or.inl rfl
      | @interrupted old changes new t e' _ _ hw hold hvalidate hupdate hfailed hkind =>
        have hfollowed := showHooks_onEdited (s := { s with shows := t }) _ _ hordered.episodes
          hordered.seasons hfailed
        obtain rfl := plain_validate_ok hvalidate
        refine Or.inr ⟨w, rfl, .intro hw hold ?_ ?_ hupdate hfollowed ?_⟩
        · rfl
        · cases hfollowed <;> assumption
        · rw [hkind]
          cases hfollowed <;> assumption

/-! ## A rename that stops -/

def Show.bare (slug : String) : Show :=
  ⟨0, slug, slug, none, .unknown, [], none, none, none, none, none⟩

def Episode.bare (slug : String) (showId : Int64) : Episode :=
  ⟨0, slug, showId, "", none, none, none, none, none, none, none, none⟩

/-- Two shows with an episode each. The slug of the second episode would be that of the first one
if the first show had the slug `c`. -/
def twoShows : List (Settings × Request) :=
  [ ({}, .shows (.write (.create (.bare "a")))),
    ({}, .shows (.write (.create (.bare "b")))),
    ({}, .episodes (.write (.create (.bare "a-x" 1)))),
    ({}, .episodes (.write (.create (.bare "c-x" 2)))) ]

def renameToC : Request := .shows (.write (.patch 1 fun row => { row with slug := "c" }))

/-- The first show has its new slug although the request failed. -/
theorem write_failed_renamed :
    ¬ ∀ (history : List (Settings × Request)) (settings : Settings) (request : Request)
      (e : RepositoryError) (u : State), request.IsWrite →
      (request.perform settings).exec (after history) = (.error e, u) →
      u.studios.rows = (after history).studios.rows ∧ u.shows.rows = (after history).shows.rows ∧
        u.seasons.rows = (after history).seasons.rows ∧
        u.episodes.rows = (after history).episodes.rows ∧
        u.collections.rows = (after history).collections.rows := by
  intro hunchanged
  obtain ⟨-, hshows, -⟩ := hunchanged twoShows {} renameToC _ _ trivial rfl
  have hslugs := congrArg (List.map Show.slug) hshows
  exact absurd hslugs (by decide +kernel)

theorem write_failed_renameToC :
    renameToC.IsWrite ∧
      (renameToC.perform {}).exec (after twoShows) =
        (.error ((RepositoryError.ofStore .edit (.conflict "slug" "c-x")).withOperation .patch),
          ((renameToC.perform {}).exec (after twoShows)).2) ∧
      (((renameToC.perform {}).exec (after twoShows)).2 = after twoShows ∨
        ∃ w, renameToC = .shows (.write w) ∧ StoppedRename w (after twoShows)
          ((RepositoryError.ofStore .edit (.conflict "slug" "c-x")).withOperation .patch)
          ((renameToC.perform {}).exec (after twoShows)).2) :=
  ⟨trivial, rfl, write_failed twoShows {} renameToC trivial rfl⟩

end Catalog
end Repertory
