import Repertory.Proofs.Repository.CreateIfNotExists
import Repertory.Proofs.Store.Allocation

/-!
# What is reported as a duplicate

A table refuses a row that comes with the id or the slug of one of its rows, and the repository
reports either as a duplicate (`create_duplicate_iff`). So behind each report there is a stored row,
and it is named if it has the slug (`reportsDuplicates`).
-/

namespace Repertory

namespace Table

variable {α : Type} [Resource α Int64] {t : Table α Int64} {item : α}

theorem insert_id_conflict (hitem : Resource.id item ≠ 0)
    (hid : ∃ other ∈ t.rows, Resource.id other = Resource.id item) :
    t.insert item = .error (.conflict "id" (Identity.text (Resource.id item))) := by
  obtain ⟨other, hother, hsame⟩ := hid
  have hassigned : ¬Identity.isUnassigned (Resource.id item) = true := fun h =>
    hitem (of_decide_eq_true h)
  have hfound : (t.find? (Resource.id item)).isSome = true :=
    List.find?_isSome.mpr ⟨other, hother, decide_eq_true hsame⟩
  rw [insert, assign, if_neg hassigned, if_pos hfound]
  rfl

theorem Sound.insert_slug_conflict (h : Sound t) {row : α} (hassign : t.assign item = .ok row)
    (hslug : ∃ other ∈ t.rows, Resource.slug other = Resource.slug item) :
    t.insert item = .error (.conflict "slug" (Resource.slug item)) := by
  obtain ⟨other, hother, hsame⟩ := hslug
  have hrow := slug_of_assign hassign
  have htaken : t.slugTaken row = true :=
    slugTaken_of_mem hother (hsame.trans hrow.symm) (h.id_free hassign other hother)
  rw [insert, hassign]
  dsimp only [bind, Except.bind, checkSlug]
  rw [if_pos htaken, hrow]

/-- A row is in conflict with the row that has its id, or with the one that has its slug unless there
is no id for it at all. -/
theorem Sound.insert_conflict_iff (h : Sound t) :
    (∃ field value, t.insert item = .error (.conflict field value)) ↔
      (Resource.id item ≠ 0 ∧ ∃ other ∈ t.rows, Resource.id other = Resource.id item) ∨
      (Resource.id item = 0 → Identity.allocate t.highWater ≠ none) ∧
        ∃ other ∈ t.rows, Resource.slug other = Resource.slug item := by
  constructor
  · rintro ⟨field, value, hconflict⟩
    have hnew : Resource.id item = 0 → Identity.allocate t.highWater ≠ none := fun hitem hnone => by
      rw [insert_exhausted hitem hnone] at hconflict
      cases hconflict
    cases insert_refused hconflict with
    | idTaken hitem hother hid => exact Or.inl ⟨hitem, _, hother, hid⟩
    | slugTaken hother hslug => exact Or.inr ⟨hnew, _, hother, hslug⟩
  · intro hcases
    by_cases htaken : Resource.id item ≠ 0 ∧ ∃ other ∈ t.rows, Resource.id other = Resource.id item
    · exact ⟨_, _, insert_id_conflict htaken.1 htaken.2⟩
    · -- The row is given an id or keeps a free one, so only its slug can be in the way.
      obtain ⟨hnew, hslug⟩ := hcases.resolve_left htaken
      obtain ⟨row, hassign⟩ : ∃ row, t.assign item = .ok row := by
        rw [assign]
        by_cases hitem : Resource.id item = 0
        · obtain ⟨id, hid⟩ := Option.ne_none_iff_exists'.mp (hnew hitem)
          have hunassigned : Identity.isUnassigned (Resource.id item) = true :=
            decide_eq_true hitem
          rw [if_pos hunassigned, hid]
          exact ⟨_, rfl⟩
        · have hassigned : ¬Identity.isUnassigned (Resource.id item) = true := fun h =>
            hitem (of_decide_eq_true h)
          have hfree : ¬(t.find? (Resource.id item)).isSome = true := fun hfound => by
            obtain ⟨other, hother, hid⟩ := List.find?_isSome.mp hfound
            exact htaken ⟨hitem, other, hother, of_decide_eq_true hid⟩
          rw [if_neg hassigned, if_neg hfree]
          exact ⟨_, rfl⟩
      exact ⟨_, _, h.insert_slug_conflict hassign hslug⟩

end Table

namespace Repository

variable {σ α : Type} [Resource α Int64] {lens : Lens σ (Table α Int64)} {hooks : Hooks σ α}
  {searchLimit : Nat} {seed : UInt64}

/-- What is reported of a row that is to be created in a table and meets another one there. -/
inductive Duplicate (table : Table α Int64) (row : α) : RepositoryError → Prop where
  | ofSlug {holder : α} (hholder : holder ∈ table.rows)
      (hslug : Resource.slug holder = Resource.slug row)
      (hnew : Resource.id row = 0 → Identity.allocate table.highWater ≠ none) :
      Duplicate table row
        (((RepositoryError.duplicate (Resource.kind α) (Resource.slug row)).withOperation
          .create).withExisting (Identity.text (Resource.id holder)) (Resource.slug holder))
  /-- The id is taken, and the slug is not. -/
  | ofId {holder : α} (hitem : Resource.id row ≠ 0) (hholder : holder ∈ table.rows)
      (hid : Resource.id holder = Resource.id row)
      (hfree : ∀ other ∈ table.rows, Resource.slug other ≠ Resource.slug row) :
      Duplicate table row
        ((RepositoryError.duplicate (Resource.kind α) (Resource.slug row)).withOperation .create)

theorem duplicateOf_of_mem {table : Table α Int64} (h : Table.Sound table) {row holder : α}
    (hholder : holder ∈ table.rows) (hslug : Resource.slug holder = Resource.slug row) :
    duplicateOf table .create (Resource.slug row) =
      ((RepositoryError.duplicate (Resource.kind α) (Resource.slug row)).withOperation
        .create).withExisting (Identity.text (Resource.id holder)) (Resource.slug holder) := by
  rw [duplicateOf]
  cases hfind : table.rows.find? fun other => decide (Resource.slug other = Resource.slug row) with
  | none => exact absurd (decide_eq_true hslug) (List.find?_eq_none.mp hfind holder hholder)
  | some other =>
    have hother := List.find?_some hfind
    obtain rfl : other = holder := h.eq_of_slug_eq (List.mem_of_find?_eq_some hfind) hholder
      ((of_decide_eq_true hother).trans hslug.symm)
    rfl

theorem duplicateOf_of_free {table : Table α Int64} {row : α}
    (hfree : ∀ other ∈ table.rows, Resource.slug other ≠ Resource.slug row) :
    duplicateOf table .create (Resource.slug row) =
      (RepositoryError.duplicate (Resource.kind α) (Resource.slug row)).withOperation .create := by
  have hnone : table.rows.find? (fun other => decide (Resource.slug other = Resource.slug row)) =
      none := List.find?_eq_none.mpr fun other hother => by simpa using hfree other hother
  rw [duplicateOf, hnone]

theorem duplicate_iff {table : Table α Int64} (h : Table.Sound table) {row : α}
    {e : RepositoryError} :
    Duplicate table row e ↔
      (∃ field value, table.insert row = .error (.conflict field value)) ∧
        e = duplicateOf table .create (Resource.slug row) := by
  rw [h.insert_conflict_iff]
  constructor
  · rintro (⟨hholder, hslug, hnew⟩ | ⟨hitem, hholder, hid, hfree⟩)
    · exact ⟨Or.inr ⟨hnew, _, hholder, hslug⟩, (duplicateOf_of_mem h hholder hslug).symm⟩
    · exact ⟨Or.inl ⟨hitem, _, hholder, hid⟩, (duplicateOf_of_free hfree).symm⟩
  · rintro ⟨hconflict, rfl⟩
    by_cases hslug : ∃ holder ∈ table.rows, Resource.slug holder = Resource.slug row
    · obtain ⟨holder, hholder, hslug⟩ := hslug
      rw [duplicateOf_of_mem h hholder hslug]
      refine .ofSlug hholder hslug ?_
      rcases hconflict with ⟨hitem, -⟩ | ⟨hnew, -⟩
      · exact fun hzero => absurd hzero hitem
      · exact hnew
    · have hfree : ∀ other ∈ table.rows, Resource.slug other ≠ Resource.slug row :=
        fun other hother hsame => hslug ⟨other, hother, hsame⟩
      rw [duplicateOf_of_free hfree]
      rcases hconflict with ⟨hitem, holder, hholder, hid⟩ | ⟨-, hslug'⟩
      · exact .ofId hitem hholder hid hfree
      · exact absurd hslug' hslug

/-- A checked row is reported as a duplicate exactly if it meets another row. -/
theorem insert_duplicate_iff {s u : σ} (h : Table.Sound (lens.get s)) {row : α}
    {e : RepositoryError} :
    (write (Table.store lens) .create (Resource.slug row) ((Table.store lens).insert row)).exec s =
        (.error e, u) ∧ e.kind = .duplicateResource ↔
      u = s ∧ Duplicate (lens.get s) row e := by
  rw [duplicate_iff h]
  constructor
  · rintro ⟨hfailed, hkind⟩
    cases hinsert : (lens.get s).insert row with
    | ok result =>
      rw [write, Action.exec_bind, Action.exec_outcome, Table.store_insert, hinsert] at hfailed
      cases hfailed
    | error reason =>
      cases Table.insert_refused hinsert with
      | idTaken | slugTaken =>
        cases (write_conflict .create (Resource.slug row) hinsert).symm.trans hfailed
        exact ⟨rfl, ⟨_, _, rfl⟩, rfl⟩
      | exhausted =>
        -- A table that has no more ids refuses the row too, but not for another row.
        obtain ⟨failure, hexec, hstorage⟩ := write_backend .create (Resource.slug row) hinsert
        cases hexec.symm.trans hfailed
        cases hstorage.symm.trans hkind
  · rintro ⟨rfl, ⟨field, value, hconflict⟩, rfl⟩
    exact ⟨write_conflict .create (Resource.slug row) hconflict, duplicateOf_kind _ _ _⟩

theorem create_eq (item : α) (s : σ) :
    ((ofStore (Table.store lens) hooks searchLimit seed).create item).exec s =
      (hooks.validate item >>= fun row => write (Table.store lens) .create (Resource.slug row)
        ((Table.store lens).insert row)).exec s := rfl

/-- A row is reported as a duplicate exactly if it passes the checks and meets another row then. -/
theorem create_duplicate_iff {s u : σ} (h : Table.Sound (lens.get s))
    (hvalid : ∀ item, (hooks.validate item).ReadOnly)
    (hrefuse : ∀ item e, ((hooks.validate item).exec s).1 = .error e →
      e.kind = .validationFailed) {item : α} {e : RepositoryError} :
    ((ofStore (Table.store lens) hooks searchLimit seed).create item).exec s = (.error e, u) ∧
        e.kind = .duplicateResource ↔
      u = s ∧ ∃ row, (hooks.validate item).exec s = (.ok row, s) ∧
        Duplicate (lens.get s) row e := by
  rw [create_eq, (hvalid item).exec_bind, (hvalid item).exec_eq]
  cases hchecked : ((hooks.validate item).exec s).1 with
  | error refusal =>
    constructor
    · rintro ⟨hfailed, hkind⟩
      cases hfailed
      cases (hrefuse item _ hchecked).symm.trans hkind
    · rintro ⟨-, row, hrow, -⟩
      cases hrow
  | ok row =>
    refine (insert_duplicate_iff h).trans (and_congr_right fun _ => ?_)
    constructor
    · exact fun hduplicate => ⟨row, rfl, hduplicate⟩
    · rintro ⟨checked, hrow, hduplicate⟩
      cases hrow
      exact hduplicate

/-! ## What a report says -/

/-- The row meets one that is stored, with its slug or with its id, and the report names the one
with its slug. -/
structure Meets (table : Table α Int64) (row : α) (e : RepositoryError) : Prop where
  stored : (∃ holder ∈ table.rows, Resource.slug holder = Resource.slug row) ∨
    Resource.id row ≠ 0 ∧ ∃ holder ∈ table.rows, Resource.id holder = Resource.id row
  existing : ∀ holder ∈ table.rows, Resource.slug holder = Resource.slug row →
    e.existing = some ⟨Identity.text (Resource.id holder), Resource.slug holder⟩

theorem Duplicate.meets {table : Table α Int64} (hsound : Table.Sound table) {row : α}
    {e : RepositoryError} (h : Duplicate table row e) : Meets table row e := by
  cases h with
  | @ofSlug holder hholder hslug _ =>
    refine ⟨Or.inl ⟨holder, hholder, hslug⟩, fun other hother hsame => ?_⟩
    obtain rfl := hsound.eq_of_slug_eq hother hholder (hsame.trans hslug.symm)
    rfl
  | @ofId holder hitem hholder hid hfree =>
    exact ⟨Or.inr ⟨hitem, holder, hholder, hid⟩, fun other hother hsame =>
      absurd hsame (hfree other hother)⟩

/-- Each report of a duplicate is about a row that is stored. -/
def ReportsDuplicates (repo : Repository σ α Int64) (hooks : Hooks σ α)
    (lens : Lens σ (Table α Int64)) (s : σ) : Prop :=
  ∀ item e u, (repo.create item).exec s = (.error e, u) → e.kind = .duplicateResource →
    ∃ row, (hooks.validate item).exec s = (.ok row, s) ∧ Meets (lens.get s) row e

theorem reportsDuplicates {s : σ} (h : Table.Sound (lens.get s))
    (hvalid : ∀ item, (hooks.validate item).ReadOnly)
    (hrefuse : ∀ item e, ((hooks.validate item).exec s).1 = .error e →
      e.kind = .validationFailed) :
    ReportsDuplicates (ofStore (Table.store lens) hooks searchLimit seed) hooks lens s := by
  intro item e u hfailed hkind
  obtain ⟨-, row, hvalidate, hduplicate⟩ :=
    (create_duplicate_iff h hvalid hrefuse).mp ⟨hfailed, hkind⟩
  exact ⟨row, hvalidate, hduplicate.meets h⟩

end Repository
end Repertory
