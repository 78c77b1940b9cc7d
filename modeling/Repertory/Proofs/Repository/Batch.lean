import Repertory.Proofs.Repository.Include
import Repertory.Proofs.Repository.Union

/-!
# Rows by several ids

The rows with some ids are fetched together, in the order in which they are stored, and then put in
the order of the ids. Where stored ids are distinct, that gives the same rows as looking the ids up
one by one (`Answers.getsBy`): a row that has one of the ids is among the fetched rows, and no other
row can be found in its place.
-/

namespace Repertory

variable {σ α ι : Type} [Identity ι] [Resource α ι] {s : σ}

theorem Query.head?_run_byId (id : ι) (rows : List α) :
    ((byId id).run rows).head? = rows.find? fun row => Resource.id row = id := by
  have hselects : (selects (some (Filter.idEq id)) : α → Bool) =
      fun row => decide (Resource.id row = id) := by
    funext row
    rw [Bool.eq_iff_iff, selects_some, Filter.isMatch_idEq, decide_eq_true_iff]
  show ((rows.filter (selects (some (Filter.idEq id)))).take 1).head? = _
  rw [hselects, List.head?_take, if_neg Nat.one_ne_zero, List.head?_filter]

/-- Where ids are distinct, the row with an id is found wherever it stands. -/
theorem find?_id_of_perm {rows others : List α} (hids : (rows.map Resource.id).Nodup)
    (hperm : others.Perm rows) (id : ι) :
    (others.find? fun row => Resource.id row = id) =
      rows.find? fun row => Resource.id row = id := by
  rw [← Query.head?_run_byId, ← Query.head?_run_byId, Query.run_byId_of_perm hids hperm]

namespace Repository

/-- The repository answers questions from these rows. -/
def Answers (repo : Repository σ α ι) (s : σ) (rows : List α) : Prop :=
  ∃ store, repo.rows.exec s = (.ok store, s) ∧
    ∀ q, (store.execute q).exec s = (.ok (q.run rows), s)

theorem ofStore_answers (lens : Lens σ (Table α ι)) (hooks : Hooks σ α) (searchLimit : Nat)
    (seed : UInt64) (s : σ) :
    (ofStore (Table.store lens) hooks searchLimit seed).Answers s (lens.get s).rows :=
  ⟨_, rfl, fun _ => rfl⟩

variable {repo : Repository σ α ι} {rows : List α}

theorem Views.answers (h : repo.Views s rows) : repo.Answers s rows := ⟨_, h, fun _ => rfl⟩

/-- The rows with these ids, looked up one by one; ids without a row are skipped. -/
def getEach (repo : Repository σ α ι) : List ι → Action σ RepositoryError (List α)
  | [] => return []
  | id :: rest => do
    let row ← repo.get? (.id id)
    return row.toList ++ (← repo.getEach rest)

/-- Whether ids are looked up together or one by one, they give the rows that `find?` says. -/
def GetsBy (repo : Repository σ α ι) (s : σ) (find? : ι → Option α) : Prop :=
  ∀ ids, (repo.getMany ids).exec s = (.ok (ids.filterMap find?), s) ∧
    (repo.getEach ids).exec s = (.ok (ids.filterMap find?), s)

namespace Answers

theorem get? (h : repo.Answers s rows) (id : ι) :
    (repo.get? (.id id)).exec s = (.ok (rows.find? fun row => Resource.id row = id), s) := by
  obtain ⟨store, hrows, hexecute⟩ := h
  have hfirst : (first store .get { filter := some (Filter.idEq id) }).exec s =
      (.ok ((Query.byId id).run rows).head?, s) := by
    rw [first, Action.exec_bind, ask, Action.exec_mapError, hexecute]
    rfl
  rw [Repository.get?, Action.exec_bind, hrows]
  dsimp only
  rw [← Query.head?_run_byId]
  exact hfirst

theorem getEach (h : repo.Answers s rows) (ids : List ι) :
    (repo.getEach ids).exec s =
      (.ok (ids.filterMap fun id => rows.find? fun row => Resource.id row = id), s) := by
  induction ids with
  | nil => rfl
  | cons id rest ih =>
    rw [Repository.getEach, Action.exec_bind, h.get?]
    dsimp only
    rw [Action.exec_bind, ih, List.filterMap_cons]
    cases rows.find? fun row => Resource.id row = id <;> rfl

theorem getMany (h : repo.Answers s rows) (hids : (rows.map Resource.id).Nodup) (ids : List ι) :
    (repo.getMany ids).exec s =
      (.ok (ids.filterMap fun id => rows.find? fun row => Resource.id row = id), s) := by
  obtain ⟨store, hrows, hexecute⟩ := h
  rw [Repository.getMany]
  by_cases hempty : ids.isEmpty = true
  · rw [if_pos hempty, List.isEmpty_iff.mp hempty]
    rfl
  · let q : Query α ι := { filter := some (.oneOf (Resource.schema (α := α)).id
      (ids.map Identity.toValue)) }
    have hask : (ask .get (store.execute q)).exec s = (.ok (q.run rows), s) := by
      rw [ask, Action.exec_mapError, hexecute]
      rfl
    have hfetched : ((q.run rows).map Resource.id).Nodup :=
      (List.filter_sublist.map Resource.id).nodup hids
    rw [if_neg hempty, Action.exec_bind, hrows]
    dsimp only
    rw [Action.exec_bind, hask]
    show (Except.ok _, s) = _
    congr 2
    refine List.filterMap_congr fun id hid => ?_
    calc (q.run rows).reverse.find? (fun row => Resource.id row = id)
      _ = (q.run rows).find? (fun row => Resource.id row = id) :=
          find?_id_of_perm hfetched (List.reverse_perm _) id
      _ = rows.find? (fun row => Resource.id row = id) := by
          -- A table of the rows answers the query as the store does.
          let table : Table α ι := ⟨rows, none⟩
          show (table.execute q).find? _ = table.find? id
          exact Relation.find?_execute_ids hid

theorem getsBy (h : repo.Answers s rows) (hids : (rows.map Resource.id).Nodup) :
    repo.GetsBy s fun id => rows.find? fun row => Resource.id row = id :=
  fun ids => ⟨h.getMany hids ids, h.getEach ids⟩

end Answers

end Repository
end Repertory
