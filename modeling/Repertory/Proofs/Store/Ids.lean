import Repertory.Proofs.Store.Table

/-!
# Ids that a table gives out

A new id is greater than every id that a table ever kept, so no row has it. A row that was inserted
cannot be inserted once more: its id or its slug is taken.
-/

namespace Repertory

theorem Number.toInt_of_signed? {n : Int} {id : Int64} (h : signed? n = some id) :
    id.toInt = n := by
  rw [signed?] at h
  split at h
  · rename_i hrange
    cases h
    exact Int64.toInt_ofInt_of_le hrange.1 hrange.2
  · cases h

theorem Identity.allocate_gt {high id : Int64} (h : Identity.allocate (some high) = some id) :
    high.toInt < id.toInt ∧ 0 < id.toInt := by
  have hvalue : id.toInt = max high.toInt 0 + 1 := Number.toInt_of_signed? h
  omega

/-- New ids are positive. -/
theorem Identity.allocate_pos {last : Option Int64} {id : Int64}
    (h : Identity.allocate last = some id) : 0 < id := by
  cases last with
  | none =>
    cases h
    decide
  | some high => exact Int64.lt_iff_toInt_lt.mpr (allocate_gt h).2

namespace Table

theorem le_raise (id : Int64) (high : Option Int64) : id.toInt ≤ (raise id high).toInt := by
  cases high with
  | none => exact Int.le_refl _
  | some high =>
    rw [raise]
    split
    · exact Int.le_refl _
    · rename_i hcompare
      have hle : (compare id high).isLE = true := by
        cases hordering : compare id high with
        | gt => exact absurd hordering hcompare
        | _ => rfl
      exact Int64.le_iff_toInt_le.mp (Std.isLE_compare.mp hle)

section

variable {α ι : Type} [Identity ι] [Resource α ι] {table changed : Table α ι} {item row : α}

theorem mem_or_mem_of_place {rows : List α} (h : row ∈ place item rows) :
    row = item ∨ row ∈ rows := by
  induction rows with
  | nil => exact Or.inl (List.mem_singleton.mp h)
  | cons first rest ih =>
    rw [place] at h
    split at h
    · exact List.mem_cons.mp h
    · exact (List.mem_cons.mp h).imp_right (List.mem_cons_of_mem first)
    · rcases List.mem_cons.mp h with rfl | h
      · exact Or.inr List.mem_cons_self
      · exact (ih h).imp_right (List.mem_cons_of_mem first)

theorem mem_place_self (item : α) (rows : List α) : item ∈ place item rows := by
  induction rows with
  | nil => exact List.mem_singleton_self item
  | cons first rest ih =>
    rw [place]
    split
    · exact List.mem_cons_self
    · exact List.mem_cons_self
    · exact List.mem_cons_of_mem first ih

theorem slug_of_assign (h : table.assign item = .ok row) :
    Resource.slug row = Resource.slug item := by
  rcases assign_ok h with rfl | ⟨id, rfl⟩
  · rfl
  · exact Resource.slug_setId id item

/-- A row is taken in under an id that the table gives out, or under its own. -/
theorem assign_cases (h : table.assign item = .ok row) :
    (Identity.isUnassigned (Resource.id item) = true ∧
        Identity.allocate table.highWater = some (Resource.id row)) ∨
      Identity.isUnassigned (Resource.id item) = false ∧ row = item := by
  rw [assign] at h
  split at h
  · rename_i hunassigned
    split at h
    · rename_i id hallocate
      cases h
      exact Or.inl ⟨hunassigned, hallocate.trans (congrArg some (Resource.id_setId id item).symm)⟩
    · cases h
  · rename_i hassigned
    split at h
    · cases h
    · cases h
      exact Or.inr ⟨Bool.eq_false_iff.mpr hassigned, rfl⟩

theorem slugTaken_of_mem {other : α} (hmem : other ∈ table.rows)
    (hslug : Resource.slug other = Resource.slug item)
    (hid : Resource.id other ≠ Resource.id item) : table.slugTaken item = true :=
  List.any_eq_true.mpr ⟨other, hmem, by simp [hslug, hid]⟩

end

section

variable {α : Type} [Resource α Int64] {table changed : Table α Int64} {item row : α}

/-- What was inserted cannot be inserted again, under a new id or its own. -/
theorem insert_again (h : table.insert item = .ok (row, changed)) :
    (∃ field value, changed.insert item = .error (.conflict field value)) ∨
      ∃ what, changed.insert item = .error (.backend what) := by
  obtain ⟨hassign, -, hchanged⟩ := insert_ok h
  have hmem : row ∈ changed.rows := hchanged ▸ mem_place_self row table.rows
  rw [insert, assign]
  rcases assign_cases hassign with ⟨hunassigned, -⟩ | ⟨hassigned, rfl⟩
  · rw [if_pos hunassigned]
    split
    · rename_i id hallocate
      have hid : Resource.id row ≠ Resource.id (Resource.setId id item) := by
        rw [hchanged] at hallocate
        have hgt := (Identity.allocate_gt hallocate).1
        have hle := le_raise (Resource.id row) table.highWater
        rw [Resource.id_setId]
        rintro rfl
        omega
      have hslug : Resource.slug row = Resource.slug (Resource.setId id item) :=
        (slug_of_assign hassign).trans (Resource.slug_setId id item).symm
      simp only [bind, Except.bind, checkSlug, slugTaken_of_mem hmem hslug hid]
      exact Or.inl ⟨_, _, rfl⟩
    · exact Or.inr ⟨_, rfl⟩
  · have hfound : (changed.find? (Resource.id row)).isSome = true :=
      List.find?_isSome.mpr ⟨row, hmem, decide_eq_true rfl⟩
    rw [if_neg (Bool.eq_false_iff.mp hassigned), if_pos hfound]
    exact Or.inl ⟨_, _, rfl⟩

end

end Table
end Repertory
