import Repertory.Proofs.Repository.Requests
import Repertory.Proofs.Repository.Slug

/-!
# Creating a row that may exist

The row that is given has the slug that was asked for, and it is given again if it is asked for
again. A slug that the checks fill in is another matter: the row is looked up by the slug that the
item came with, before and after, and no row has that one (`createIfNotExists_twice`).
-/

namespace Repertory

theorem Filter.isMatch_slug {α ι : Type} [Identity ι] [Resource α ι] (slug : String) (row : α) :
    (Filter.cmp .eq (Resource.schema (α := α)).slug (.text slug) : Filter α ι).isMatch row =
      decide (Resource.slug row = slug) :=
  isMatch_eq_text (Resource.schema_slug row) slug

/-- An inserted row is the one that is found under its slug. -/
theorem Table.find?_slug_of_insert {α ι : Type} [Identity ι] [Resource α ι]
    {table changed : Table α ι} {item row : α} (h : Ascending table.rows)
    (hinsert : table.insert item = .ok (row, changed)) :
    changed.rows.find? (fun other => decide (Resource.slug other = Resource.slug item)) =
      some row := by
  obtain ⟨hassign, hfree, hchanged⟩ := insert_ok hinsert
  rw [← slug_of_assign hassign]
  have hmem : row ∈ changed.rows := hchanged ▸ mem_place_self row table.rows
  cases hfind : changed.rows.find?
    fun other => decide (Resource.slug other = Resource.slug row) with
  | none => exact absurd (decide_eq_true rfl) (List.find?_eq_none.mp hfind row hmem)
  | some other =>
    have hslug := List.find?_some hfind
    have hother := List.mem_of_find?_eq_some hfind
    rw [hchanged] at hother
    rcases (mem_place h).mp hother with rfl | ⟨hold, hid⟩
    · rfl
    · rw [slugTaken_of_mem hold (of_decide_eq_true hslug) hid] at hfree
      cases hfree

namespace Repository

section

variable {σ α ι : Type} [Identity ι] [Resource α ι] {lens : Lens σ (Table α ι)} {s : σ}

theorem findBySlug_exec (slug : String) :
    (findBySlug (Table.store lens) slug).exec s =
      (.ok ((lens.get s).rows.find? fun row => decide (Resource.slug row = slug)), s) := by
  have hselects : (Query.selects
        (some (.cmp .eq (Resource.schema (α := α)).slug (.text slug) : Filter α ι))) =
      fun row => decide (Resource.slug row = slug) :=
    funext fun row => (Query.selects_some _ row).trans (Filter.isMatch_slug slug row)
  have hrun : (findBySlug (Table.store lens) slug).exec s =
      (.ok (((lens.get s).rows.filter (Query.selects
        (some (.cmp .eq (Resource.schema (α := α)).slug (.text slug) : Filter α ι)))).take 1).head?,
        s) := rfl
  rw [hrun, hselects, List.head?_take, if_neg Nat.one_ne_zero, List.head?_filter]

/-- What a conflict is reported as: a duplicate of the row with the slug, if there is one. -/
def duplicateOf (table : Table α ι) (operation : Operation) (slug : String) : RepositoryError :=
  let duplicate := (RepositoryError.duplicate (Resource.kind α) slug).withOperation operation
  match table.rows.find? fun row => decide (Resource.slug row = slug) with
  | some row => duplicate.withExisting (Identity.text (Resource.id row)) (Resource.slug row)
  | none => duplicate

theorem duplicateOf_kind (table : Table α ι) (operation : Operation) (slug : String) :
    (duplicateOf table operation slug).kind = .duplicateResource := by
  rw [duplicateOf]
  split <;> rfl

variable (operation : Operation) (slug : String)
  {change : Table α ι → Except StoreError (α × Table α ι)}

theorem write_conflict {field value : String}
    (h : change (lens.get s) = .error (.conflict field value)) :
    (write (Table.store lens) operation slug (lens.change change)).exec s =
      (.error (duplicateOf (lens.get s) operation slug), s) := by
  have herror : (writeError (Table.store lens) operation slug (.conflict field value)).exec s =
      (.ok (duplicateOf (lens.get s) operation slug), s) := by
    rw [writeError, Action.exec_bind, Action.exec_outcome, findBySlug_exec, duplicateOf]
    cases (lens.get s).rows.find? fun row => decide (Resource.slug row = slug) <;> rfl
  rw [write, Action.exec_bind, Action.exec_outcome, Lens.exec_change, h]
  dsimp only
  rw [Action.exec_bind, herror]
  rfl

theorem write_backend {what : String} (h : change (lens.get s) = .error (.backend what)) :
    ∃ e, (write (Table.store lens) operation slug (lens.change change)).exec s = (.error e, s) ∧
      e.kind = .storageError := by
  rw [write, Action.exec_bind, Action.exec_outcome, Lens.exec_change, h]
  exact ⟨_, rfl, rfl⟩

variable {hooks : Hooks σ α} {searchLimit : Nat} {seed : UInt64} {item row : α}

theorem insertChecked_failed (hvalidate : (hooks.validate item).exec s = (.ok row, s))
    (hinsert : (∃ field value, (lens.get s).insert row = .error (.conflict field value)) ∨
      ∃ what, (lens.get s).insert row = .error (.backend what)) :
    ∃ e, (insertChecked (Table.store lens) hooks item).exec s = (.error e, s) ∧
      (e.isDuplicate = true ∨ e.kind = .storageError) := by
  rw [insertChecked, Action.exec_bind, hvalidate]
  rcases hinsert with ⟨field, value, hconflict⟩ | ⟨what, hbackend⟩
  · have hexec := write_conflict .create (Resource.slug row) hconflict
    exact ⟨_, hexec, Or.inl (decide_eq_true (duplicateOf_kind _ _ _))⟩
  · obtain ⟨e, hexec, hkind⟩ := write_backend .create (Resource.slug row) hbackend
    exact ⟨e, hexec, Or.inr hkind⟩

theorem createIfNotExists_found
    (h : (lens.get s).rows.find? (fun row => decide (Resource.slug row = Resource.slug item)) =
      some row) :
    ((ofStore (Table.store lens) hooks searchLimit seed).createIfNotExists item).exec s =
      (.ok row, s) := by
  rw [createIfNotExists, Action.exec_bind, writable_exec]
  dsimp only
  rw [Action.exec_bind, findBySlug_exec, h]
  rfl

variable (hvalid : ∀ item, (hooks.validate item).ReadOnly)

include hvalid in
theorem createIfNotExists_missing
    (h : (lens.get s).rows.find? (fun row => decide (Resource.slug row = Resource.slug item)) =
      none) :
    ((ofStore (Table.store lens) hooks searchLimit seed).createIfNotExists item).exec s =
      match (insertChecked (Table.store lens) hooks item).exec s with
      | (.ok row, t) => (.ok row, t)
      | (.error e, _) =>
        (.error (if e.isDuplicate then
          (RepositoryError.notFound (Resource.kind α) (Resource.slug item)).withOperation
            .createIfNotExists
        else e), s) := by
  rw [createIfNotExists, Action.exec_bind, writable_exec]
  dsimp only
  rw [Action.exec_bind, findBySlug_exec, h]
  dsimp only
  rw [Action.exec_bind, Action.exec_outcome]
  rcases hinsert : (insertChecked (Table.store lens) hooks item).exec s with ⟨e | row, t⟩
  · obtain rfl : t = s := by
      rcases insertChecked_cases hvalid hinsert with ⟨_, _, _, -, -, hr, -⟩ | ⟨-, ht⟩
      · cases hr
      · exact ht
    dsimp only
    split
    · rw [Action.exec_bind, findBySlug_exec, h]
      rfl
    · rfl
  · rfl

include hvalid in
/-- The row that is given has been there, or it is inserted. -/
theorem createIfNotExists_ok {u : σ}
    (h : ((ofStore (Table.store lens) hooks searchLimit seed).createIfNotExists item).exec s =
      (.ok row, u)) :
    ((lens.get s).rows.find? (fun row => decide (Resource.slug row = Resource.slug item)) =
        some row ∧ u = s) ∨
      ((lens.get s).rows.find? (fun row => decide (Resource.slug row = Resource.slug item)) = none ∧
        ∃ checked t, (hooks.validate item).exec s = (.ok checked, s) ∧
          (lens.get s).insert checked = .ok (row, t) ∧ u = lens.set t s) := by
  cases hfind : (lens.get s).rows.find?
    (fun row => decide (Resource.slug row = Resource.slug item)) with
  | some found =>
    rw [createIfNotExists_found hfind] at h
    cases h
    exact Or.inl ⟨rfl, rfl⟩
  | none =>
    rw [createIfNotExists_missing hvalid hfind] at h
    rcases hinsert : (insertChecked (Table.store lens) hooks item).exec s with ⟨e | stored, t⟩
    · rw [hinsert] at h
      cases h
    · rw [hinsert] at h
      cases h
      rcases insertChecked_cases hvalid hinsert with
        ⟨checked, _, t, hvalidate, hinserted, hr, hu⟩ | ⟨⟨_, hr⟩, -⟩
      · cases hr
        exact Or.inr ⟨rfl, checked, t, hvalidate, hinserted, hu⟩
      · cases hr

end

/-- What the checks of rows before a write do. They look at other tables only, keep a slug that is
there, and let only admissible slugs pass. -/
structure Checks {σ α ι : Type} [Identity ι] [Resource α ι] (lens : Lens σ (Table α ι))
    (validate : α → Action σ RepositoryError α) : Prop where
  readOnly : ∀ item, (validate item).ReadOnly
  elsewhere : ∀ item s t, ((validate item).exec (lens.set t s)).1 = ((validate item).exec s).1
  keeps_slug : ∀ {item row s}, ((validate item).exec s).1 = .ok row →
    Resource.slug item ≠ "" → Resource.slug row = Resource.slug item
  admissible : ∀ {item row s}, ((validate item).exec s).1 = .ok row →
    AdmissibleSlug ι (Resource.slug row)

section

variable {σ α : Type} [Resource α Int64] {lens : Lens σ (Table α Int64)} {hooks : Hooks σ α}
  {searchLimit : Nat} {seed : UInt64} {item row : α} {s u : σ}

/-- A row that was given for a slug is given again, and nothing changes. For a slug that the checks
filled in, the second attempt fails instead. -/
theorem createIfNotExists_twice (hchecks : Checks lens hooks.validate)
    (hids : Table.Ascending (lens.get s).rows)
    (hslugs : AdmissibleSlugs (lens.get s).rows)
    (h : ((ofStore (Table.store lens) hooks searchLimit seed).createIfNotExists item).exec s =
      (.ok row, u)) :
    (Resource.slug item ≠ "" →
      ((ofStore (Table.store lens) hooks searchLimit seed).createIfNotExists item).exec u =
        (.ok row, u)) ∧
    (Resource.slug item = "" → ∃ e,
      ((ofStore (Table.store lens) hooks searchLimit seed).createIfNotExists item).exec u =
        (.error e, u) ∧
      (e = (RepositoryError.notFound (Resource.kind α) "").withOperation .createIfNotExists ∨
        e.kind = .storageError)) := by
  rcases createIfNotExists_ok hchecks.readOnly h with
    ⟨hfind, rfl⟩ | ⟨-, checked, t, hvalidate, hinsert, rfl⟩
  · refine ⟨fun _ => createIfNotExists_found hfind, fun hempty => ?_⟩
    have hslug := List.find?_some hfind
    have hsame : Resource.slug row = "" := (of_decide_eq_true hslug).trans hempty
    exact absurd hsame (hslugs row (List.mem_of_find?_eq_some hfind)).ne_empty
  · have hget := lens.get_set t s
    refine ⟨fun hslug => createIfNotExists_found ?_, fun hempty => ?_⟩
    · rw [hget, ← hchecks.keeps_slug (congrArg Prod.fst hvalidate) hslug]
      exact Table.find?_slug_of_insert hids hinsert
    · have hnone : (lens.get (lens.set t s)).rows.find?
          (fun row => decide (Resource.slug row = Resource.slug item)) = none := by
        rw [hget, hempty]
        exact (hslugs.insert (hchecks.admissible (congrArg Prod.fst hvalidate)) hinsert).find?_empty
      have hagain : (hooks.validate item).exec (lens.set t s) = (.ok checked, lens.set t s) := by
        rw [(hchecks.readOnly item).exec_eq, hchecks.elsewhere, hvalidate]
      obtain ⟨e, hexec, he⟩ := insertChecked_failed hagain
        (hget.symm ▸ Table.insert_again hinsert)
      rw [createIfNotExists_missing hchecks.readOnly hnone, hexec]
      refine ⟨_, rfl, ?_⟩
      split
      · exact Or.inl (by rw [hempty])
      · exact Or.inr (he.resolve_left ‹_›)

end

end Repository
end Repertory
