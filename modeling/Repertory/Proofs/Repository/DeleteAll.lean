import Repertory.Proofs.Repository.Deletion

/-!
# Deleting rows together

Where a deletion always goes through and takes no other row of its table along (`RemovesOne`), the
rows that a filter is true of go one after the other, each as it would go under its id, and all of
them are counted (`RemovesOne.deletesAll`).
-/

namespace Repertory
namespace Repository

variable {σ α ι : Type} [Identity ι] [Resource α ι]

/-- Deletes rows under their ids, one after the other. -/
def deleteEach (repo : Repository σ α ι) : List ι → Action σ RepositoryError Unit
  | [] => return ()
  | id :: rest => do
    repo.delete (.id id)
    deleteEach repo rest

/-- A deletion of all rows that a filter is true of is one deletion for each of their ids, in the
order of the ids. The number of these rows is what a count gives before, and what the deletion
gives back. The other rows of the table stay as they are. -/
structure DeletesAll {σ α : Type} [Resource α Int64] (repo : Repository σ α Int64)
    (lens : Lens σ (Table α Int64)) (filter : Filter α Int64) (s : σ) (ids : List Int64) (u : σ) :
    Prop where
  rising : ids.Pairwise (· < ·)
  selected : ∀ id, id ∈ ids ↔
    ∃ row ∈ (lens.get s).rows, Resource.id row = id ∧ filter.isMatch row = true
  counted : (repo.count (some filter)).exec s = (.ok ids.length, s)
  deleted : (repo.deleteAll filter).exec s = (.ok ids.length, u)
  oneByOne : (repo.deleteEach ids).exec s = (.ok (), u)
  rest : lens.get u = (lens.get s).keep fun row => !filter.isMatch row

section

variable {σ α : Type} [Resource α Int64] {lens : Lens σ (Table α Int64)} {hooks : Hooks σ α}
  {searchLimit : Nat} {seed : UInt64} {I : σ → Prop} {s : σ}

/-- What belongs to a row can always be dealt with, and no other row of the table goes with it. -/
structure RemovesOne (lens : Lens σ (Table α Int64)) (hooks : Hooks σ α) (I : σ → Prop) :
    Prop where
  sound : ∀ {s}, I s → Table.Sound (lens.get s)
  onDelete : ∀ {s row}, I s → row ∈ (lens.get s).rows → ∃ u,
    (hooks.onDelete row).exec (lens.set ((lens.get s).without [Resource.id row]) s) = (.ok (), u) ∧
      lens.get u = (lens.get s).without [Resource.id row] ∧ I u

theorem delete_id_exec (h : Table.Sound (lens.get s)) {row : α} (hrow : row ∈ (lens.get s).rows) :
    ((ofStore (Table.store lens) hooks searchLimit seed).delete (.id (Resource.id row))).exec s =
      (remove (Table.store lens) hooks row).exec s := by
  have hx : (Identifier.id (Resource.id row)).addresses row = true := decide_eq_true rfl
  rw [remove_exec hrow]
  exact delete_exec_of_get hrow (get_addressed lens h hrow hx nofun)

variable (searchLimit) (seed) in
/-- Rows of a table go one after the other, whether they were looked up before or are looked up
under their ids. -/
theorem RemovesOne.exec (h : RemovesOne lens hooks I) {rows : List α} (hs : I s)
    (hrows : ∀ row ∈ rows, row ∈ (lens.get s).rows) (hids : (rows.map Resource.id).Nodup) :
    ∃ u, (removeAll (Table.store lens) hooks rows).exec s = (.ok rows.length, u) ∧
      ((ofStore (Table.store lens) hooks searchLimit seed).deleteEach
        (rows.map Resource.id)).exec s = (.ok (), u) ∧
      lens.get u = (lens.get s).without (rows.map Resource.id) := by
  induction rows generalizing s with
  | nil => exact ⟨s, rfl, rfl, (Table.without_nil _).symm⟩
  | cons row rest ih =>
    obtain ⟨hfresh, hids⟩ := List.nodup_cons.mp hids
    have hrow := hrows row List.mem_cons_self
    obtain ⟨t, hexec, htable, ht⟩ := h.onDelete hs hrow
    have hremove : (remove (Table.store lens) hooks row).exec s = (.ok (), t) :=
      (remove_exec hrow).trans hexec
    have hdelete : ((ofStore (Table.store lens) hooks searchLimit seed).delete
        (.id (Resource.id row))).exec s = (.ok (), t) :=
      (delete_id_exec (h.sound hs) hrow).trans hremove
    -- The rows behind are still there, since none of them has the id that is gone.
    have hrest : ∀ other ∈ rest, other ∈ (lens.get t).rows := by
      intro other hother
      have hid : Resource.id other ≠ Resource.id row := fun hid =>
        hfresh (hid ▸ List.mem_map_of_mem hother)
      rw [htable]
      exact Table.mem_without.mpr
        ⟨hrows other (List.mem_cons_of_mem row hother), by simpa using hid⟩
    obtain ⟨u, hremoved, hdeleted, hleft⟩ := ih ht hrest hids
    refine ⟨u, ?_, ?_, ?_⟩
    · rw [removeAll, Action.exec_bind, Action.exec_outcome, hremove]
      dsimp only
      rw [Action.exec_bind, hremoved]
      rfl
    · rw [List.map_cons, deleteEach, Action.exec_bind, hdelete]
      exact hdeleted
    · rw [hleft, htable, List.map_cons, ← Table.without_cons]

theorem RemovesOne.deletesAll (h : RemovesOne lens hooks I) (hs : I s)
    (filter : Filter α Int64) :
    ∃ ids u, (ofStore (Table.store lens) hooks searchLimit seed).DeletesAll lens filter s ids u := by
  have hsound := h.sound hs
  have hsublist : ((lens.get s).rows.filter filter.isMatch).Sublist (lens.get s).rows :=
    List.filter_sublist
  have hrising : ((lens.get s).rows.filter filter.isMatch).Pairwise fun a b =>
      compare (Resource.id a) (Resource.id b) = .lt := hsound.ascending.sublist hsublist
  obtain ⟨u, hremoved, hdeleted, hleft⟩ := h.exec searchLimit seed hs
    (fun row hrow => hsublist.subset hrow) ((hsublist.map Resource.id).nodup hsound.ascending.nodup)
  refine ⟨_, u, {
    rising := List.pairwise_map.mpr (hrising.imp fun hlt => Std.compare_eq_lt.mp hlt)
    selected := fun id => ?selected
    counted := ?counted
    deleted := ?deleted
    oneByOne := hdeleted
    rest := hleft.trans (Table.without_filter hsound.ascending filter.isMatch) }⟩
  case selected =>
    rw [List.mem_map]
    exact exists_congr fun row => by rw [List.mem_filter, and_assoc, and_comm (b := _ = id)]
  case counted =>
    rw [List.length_map]
    rfl
  case deleted =>
    rw [List.length_map]
    exact hremoved

end

end Repository
end Repertory
