import Repertory.Catalog.Collection
import Repertory.Proofs.Repository.Lookup

/-!
# Deleting one row

A deletion removes the row that a reader would get under the same identifier, and lets what belongs
to the row follow (`Repository.delete_row`). An identifier addresses the rows that have it as their
id or slug, and a reader gets one of these, except under the slug that picks a row at random.
-/

namespace Repertory

section

variable {α ι : Type} [Identity ι] [Resource α ι]

/-- Without the id of one of its rows, a table still has all the others. -/
theorem Table.without_id {table : Table α ι} {before behind : List α} {row : α}
    (h : Ascending table.rows) (hrows : table.rows = before ++ row :: behind) :
    table.without [Resource.id row] = { table with rows := before ++ behind } := by
  rw [hrows] at h
  obtain ⟨-, hrest, hbefore⟩ := List.pairwise_append.mp h
  have hbehind := (List.pairwise_cons.mp hrest).1
  have hkept : ∀ others : List α, (∀ other ∈ others, Resource.id other ≠ Resource.id row) →
      others.filter (fun other => Resource.id other ∉ [Resource.id row]) = others := by
    intro others hothers
    simpa [List.filter_eq_self] using hothers
  have hfront : ∀ other ∈ before, Resource.id other ≠ Resource.id row := fun other hother =>
    ne_of_compare_lt (hbefore other hother row List.mem_cons_self)
  have hrear : ∀ other ∈ behind, Resource.id other ≠ Resource.id row := fun other hother =>
    (ne_of_compare_lt (hbehind other hother)).symm
  rw [without, hrows, List.filter_append, List.filter_cons_of_neg (by simp), hkept before hfront,
    hkept behind hrear]

end

namespace Repository

variable {σ α ι : Type} [Identity ι] [Resource α ι] {lens : Lens σ (Table α ι)}
  {hooks : Hooks σ α} {searchLimit : Nat} {seed : UInt64} {s : σ}

theorem delete_eq (x : Identifier ι) :
    ((ofStore (Table.store lens) hooks searchLimit seed).delete x).exec s =
      (((ofStore (Table.store lens) hooks searchLimit seed).get x).mapError
        (RepositoryError.withOperation .delete) >>= remove (Table.store lens) hooks).exec s := rfl

theorem remove_exec {row : α} (hrow : row ∈ (lens.get s).rows) :
    (remove (Table.store lens) hooks row).exec s =
      (hooks.onDelete row).exec (lens.set ((lens.get s).without [Resource.id row]) s) := by
  rw [remove, Action.exec_bind, Action.exec_mapError, Table.store_delete,
    Table.delete_of_mem hrow]
  rfl

theorem delete_exec_of_get {x : Identifier ι} {row : α} (hrow : row ∈ (lens.get s).rows)
    (hget : ((ofStore (Table.store lens) hooks searchLimit seed).get x).exec s = (.ok row, s)) :
    ((ofStore (Table.store lens) hooks searchLimit seed).delete x).exec s =
      (hooks.onDelete row).exec (lens.set ((lens.get s).without [Resource.id row]) s) := by
  rw [delete_eq, Action.exec_bind, Action.exec_mapError, hget]
  exact remove_exec hrow

theorem delete_exec_of_error {x : Identifier ι} {e : RepositoryError}
    (hget : ((ofStore (Table.store lens) hooks searchLimit seed).get x).exec s = (.error e, s)) :
    ((ofStore (Table.store lens) hooks searchLimit seed).delete x).exec s =
      (.error (e.withOperation .delete), s) := by
  rw [delete_eq, Action.exec_bind, Action.exec_mapError, hget]
  rfl

/-- The row that an identifier addresses is the one that is deleted under it. -/
theorem delete_addressed {α : Type} [Resource α Int64] {lens : Lens σ (Table α Int64)}
    {hooks : Hooks σ α} (h : Table.Sound (lens.get s)) (hslugs : AdmissibleSlugs (lens.get s).rows)
    {row : α} (hrow : row ∈ (lens.get s).rows) {x : Identifier Int64}
    (hx : x.addresses row = true) :
    ((ofStore (Table.store lens) hooks searchLimit seed).delete x).exec s =
      (hooks.onDelete row).exec
        (lens.set ((lens.get s).keep fun other => Resource.id other ≠ Resource.id row) s) := by
  have hrandom : x ≠ .slug randomSlug := by
    rintro rfl
    exact (hslugs row hrow).not_random (beq_iff_eq.mp hx)
  rw [← Table.without_singleton]
  exact delete_exec_of_get hrow (get_addressed lens h hrow hx hrandom)

variable (lens) (hooks) (searchLimit) (seed)

/-- A deletion removes one row, which the identifier addresses unless it is the slug for a random
row, and goes on with what belongs to that row. Without such a row it fails and changes nothing. -/
theorem delete_row (calls : List (Table.Call α ι)) (h : lens.get s = Table.after calls)
    (x : Identifier ι) :
    let repo := ofStore (Table.store lens) hooks searchLimit seed
    (∃ before row behind, (lens.get s).rows = before ++ row :: behind ∧
      (x ≠ .slug randomSlug → x.addresses row = true) ∧
      (repo.delete x).exec s =
        (hooks.onDelete row).exec (lens.set { lens.get s with rows := before ++ behind } s)) ∨
    (∀ row ∈ (lens.get s).rows, x ≠ .slug randomSlug ∧ x.addresses row = false) ∧
      (repo.delete x).exec s =
        (.error ((RepositoryError.notFound (Resource.kind α) x.display).withOperation .delete),
          s) := by
  intro repo
  rcases get_found lens hooks searchLimit seed s x with
    ⟨row, hrow, haddressed, hget⟩ | ⟨hmissing, hget⟩
  · obtain ⟨before, behind, hsplit⟩ := List.append_of_mem hrow
    have hids : Table.Ascending (lens.get s).rows := h ▸ Table.after_ascending calls
    refine Or.inl ⟨before, row, behind, hsplit, haddressed, ?_⟩
    rw [← Table.without_id hids hsplit]
    exact delete_exec_of_get hrow hget
  · exact Or.inr ⟨hmissing, delete_exec_of_error hget⟩

open Catalog in
/-- The only collection goes, though the slug for a random row is not its own. -/
theorem delete_row_random :
    let calls : List (Table.Call Collection Int64) := [.insert ⟨0, "a", "A", none⟩]
    let repo : Repository (Table Collection Int64) Collection Int64 :=
      ofStore (Table.store Lens.whole) Hooks.plain 5 7
    Lens.whole.get (Table.after calls) = Table.after calls ∧
      (Table.after calls).rows = [⟨1, "a", "A", none⟩] ∧
      (Identifier.slug randomSlug : Identifier Int64).addresses
        (⟨1, "a", "A", none⟩ : Collection) = false ∧
      (repo.delete (.slug randomSlug)).exec (Table.after calls) = (.ok (), ⟨[], some 1⟩) := by
  intro calls repo
  have hrows : (Table.after calls).rows = [⟨1, "a", "A", none⟩] := by decide
  refine ⟨rfl, hrows, by decide, ?_⟩
  rcases delete_row Lens.whole Hooks.plain 5 7 calls rfl (.slug randomSlug) with
    ⟨before, row, behind, hsplit, -, hexec⟩ | ⟨hmissing, -⟩
  · obtain ⟨rfl, hbehind⟩ | ⟨-, hnil⟩ := List.append_eq_singleton_iff.mp (hsplit.symm.trans hrows)
    · obtain ⟨-, rfl⟩ := List.cons.inj hbehind
      exact hexec
    · cases hnil
  · exact absurd rfl (hmissing ⟨1, "a", "A", none⟩ (hrows ▸ List.mem_cons_self)).1

end Repository
end Repertory
