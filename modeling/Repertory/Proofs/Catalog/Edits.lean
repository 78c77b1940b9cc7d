import Repertory.Proofs.Catalog.History

/-!
# Histories without failed changes of shows

A change of a show that fails may leave some of the rows that depend on it behind. What holds in a
catalog where none of them failed so far need only survive changes of shows after which all those
rows have followed (`InvariantIfDone.after`); all other requests may fail.
-/

namespace Repertory
namespace Catalog

def Change.Edits {α : Type} : Change α → Prop
  | write w => ∃ id, w.Replaces id
  | removal _ => False

def Request.EditsShow : Request → Prop
  | shows change => change.Edits
  | _ => False

/-- None of the requests that were to change a stored show failed. -/
def ShowEditsSucceed (s : State) : List (Settings × Request) → Prop
  | [] => True
  | step :: rest =>
    (step.2.EditsShow → ((step.2.perform step.1).exec s).1 = .ok ()) ∧
      ShowEditsSucceed ((step.2.perform step.1).exec s).2 rest

section

variable {α : Type} [Resource α Int64] {lens : Lens State (Table α Int64)} {hooks : Hooks State α}
  {I : State → Prop} {s : State} {searchLimit : Nat} {seed : UInt64}

/-- As `Kept`, but the rows that depend on an updated row are known to have followed. -/
structure KeptIfDone (lens : Lens State (Table α Int64)) (hooks : Hooks State α)
    (I : State → Prop) : Prop where
  validate : ∀ item, (hooks.validate item).ReadOnly
  insert : ∀ {s item row stored t}, I s → (hooks.validate item).exec s = (.ok row, s) →
    (lens.get s).insert row = .ok (stored, t) → I (lens.set t s)
  update : ∀ {s changes row current t u}, I s → current ∈ (lens.get s).rows →
    (hooks.validate (Resource.setId (Resource.id current) changes)).exec s = (.ok row, s) →
    (lens.get s).update row = .ok (row, t) →
    (hooks.onEdited current row).exec (lens.set t s) = (.ok (), u) → I u
  delete : ∀ {s row t}, I s → (lens.get s).delete (Resource.id row) = .ok ((), t) →
    I ((hooks.onDelete row).exec (lens.set t s)).2

namespace KeptIfDone

theorem change (h : KeptIfDone lens hooks I) (change : Change α) (hs : I s)
    (hok : change.Edits →
      ((change.perform (.ofStore (Table.store lens) hooks searchLimit seed)).exec s).1 = .ok ()) :
    I ((change.perform (.ofStore (Table.store lens) hooks searchLimit seed)).exec s).2 := by
  cases change with
  | write w =>
    have hkeep : (∀ id, w.Replaces id → ∃ row,
        ((w.perform (.ofStore (Table.store lens) hooks searchLimit seed)).exec s).1 = .ok row) →
          I ((w.perform (.ofStore (Table.store lens) hooks searchLimit seed)).exec s).2 :=
      Write.perform_keeps_of_ok h.validate h.insert h.update hs
    rw [Change.perform, Action.exec_bind] at hok ⊢
    rcases hperform : (w.perform (.ofStore (Table.store lens) hooks searchLimit seed)).exec s
      with ⟨e | row, u⟩
    · rw [hperform] at hok hkeep
      refine hkeep fun id hid => ?_
      cases hok ⟨id, hid⟩
    · rw [hperform] at hkeep
      exact hkeep fun _ _ => ⟨row, rfl⟩
  | removal r => exact Removal.perform_keeps h.delete r s hs

theorem createAll (h : KeptIfDone lens hooks I) (items : List α) :
    (createAll (.ofStore (Table.store lens) hooks searchLimit seed) items).Keeps I :=
  createAll_keeps fun _ _ _ hs =>
    Write.perform_keeps_of_ok h.validate h.insert h.update hs fun _ hw => hw.elim

end KeptIfDone

/-- An invariant of all changes but those of a show that fail. -/
structure InvariantIfDone (I : State → Prop) : Prop where
  empty : I .empty
  studios : Kept State.studiosLens Hooks.plain I
  collections : Kept State.collectionsLens collectionHooks I
  shows : KeptIfDone State.showsLens showHooks I
  seasons : Kept State.seasonsLens seasonHooks I
  episodes : Kept State.episodesLens episodeHooks I

namespace InvariantIfDone

theorem perform (h : InvariantIfDone I) (settings : Settings) (request : Request) (hs : I s)
    (hok : request.EditsShow → ((request.perform settings).exec s).1 = .ok ()) :
    I ((request.perform settings).exec s).2 := by
  cases request with
  | studios change => exact h.studios.change change s hs
  | collections change => exact h.collections.change change s hs
  | shows change => exact h.shows.change change hs hok
  | seasons change => exact h.seasons.change change s hs
  | episodes change => exact h.episodes.change change s hs
  | load seed =>
    have hload : (settings.load seed).Keeps I :=
      (h.studios.createAll _).bind fun _ => (h.collections.createAll _).bind fun _ =>
        (h.shows.createAll _).bind fun _ => (h.seasons.createAll _).bind fun _ =>
          h.episodes.createAll _
    exact hload s hs

theorem after (h : InvariantIfDone I) {history : List (Settings × Request)}
    (hdone : ShowEditsSucceed .empty history) : I (after history) := by
  have hrun : ∀ s, I s → ShowEditsSucceed s history →
      I (history.foldl (fun s step => ((step.2.perform step.1).exec s).2) s) := by
    clear hdone
    induction history with
    | nil => exact fun _ hs _ => hs
    | cons step rest ih =>
      intro s hs hdone
      obtain ⟨hok, hrest⟩ := hdone
      exact ih _ (h.perform step.1 step.2 hs hok) hrest
  exact hrun _ h.empty hdone

end InvariantIfDone

end

end Catalog
end Repertory
