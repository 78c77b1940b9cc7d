import Repertory.Order.Keyset
import Repertory.Proofs.Filter.Match
import Repertory.Proofs.Order.Rows

/-!
# The keyset filter is the order

On rows that conform, `keysetAfter` matches a row exactly if the order puts it behind the reference
(`keysetAfter_isMatch`), and an order with the id among its keys always has such a filter. Each key
contributes the rows that tie on all keys before it and come later by it; the induction over the
keys carries the ties that were collected so far.
-/

namespace Repertory
namespace OrderKey

variable {α ι : Type} [Identity ι] [Resource α ι]

theorem holds_later (key : OrderKey α) (o : Ordering) :
    key.later.holds o = ((if key.descending then o.swap else o) == .gt) := by
  cases hdescending : key.descending <;> cases o <;> simp [later, hdescending, CmpOp.holds]

theorem swap_eq_eq_iff {descending : Bool} {o : Ordering} :
    (if descending then o.swap else o) = .eq ↔ o = .eq := by
  cases descending <;> cases o <;> simp

/-- The comparison with a value that is not null matches the later values of the key's order, and
no null. -/
theorem isMatch_later {key : OrderKey α} {field : Field α} {row reference : α}
    (hrow : field.ConformsAt row) (href : field.kind.Admits (field.get reference)) :
    (Filter.cmp key.later field (field.get reference) : Filter α ι).isMatch row = true ↔
      field.get row ≠ .null ∧ orderValues key.descending key.nullsFirst (field.get row)
        (field.get reference) = .gt := by
  rw [Filter.isMatch_cmp href.ne_null]
  rcases hrow with hrow | ⟨-, hnull⟩
  · rw [hrow.compare href, Option.any_some, holds_later,
      orderValues_of_ne_null _ _ hrow.ne_null href.ne_null, beq_iff_eq]
    exact ⟨fun h => ⟨hrow.ne_null, h⟩, And.right⟩
  · rw [hnull]
    simp

/-- A row comes later than the reference exactly if the key's filter matches it. -/
theorem after_isMatch {key : OrderKey α} {row reference : α} (hrow : key.ConformsAt row)
    (href : key.ConformsAt reference) :
    (key.after reference : Option (Filter α ι)).any (·.isMatch row) = true ↔
      key.order row reference = .gt := by
  cases htarget : key.target with
  | random seed =>
    rw [after, htarget, order_of_random htarget]
    simp only [Option.any_some, Filter.isMatch_random, holds_later, beq_iff_eq]
    rfl
  | field field =>
    rw [ConformsAt, htarget] at hrow href
    rw [after, htarget, order_of_field htarget]
    simp only
    rcases href with href | ⟨-, hnull⟩
    · have hvalue := Value.isNull_eq_false_iff.mpr href.ne_null
      simp only [hvalue, Bool.false_eq_true, if_false]
      split
      · -- Nulls stand last, so a null comes later than every value.
        rename_i hlast
        rw [Bool.and_eq_true, Bool.not_eq_true'] at hlast
        rw [Option.any_some, Filter.isMatch_or, Bool.or_eq_true, isMatch_later hrow href,
          Filter.isMatch_eq_null, Value.isNull_eq_true_iff]
        by_cases hnull : field.get row = .null
        · rw [hnull, orderValues_null_left _ _ href.ne_null, hlast.2]
          simp
        · simp [hnull]
      · -- Either nulls stand first or there are none, so no null comes later.
        rename_i hfirst
        rw [Option.any_some, isMatch_later hrow href]
        refine ⟨And.right, fun h => ⟨fun hnull => ?_, h⟩⟩
        rw [hnull, orderValues_null_left _ _ href.ne_null] at h
        rcases hrow with hrow | ⟨hnullable, -⟩
        · exact hrow.ne_null hnull
        · cases hnulls : key.nullsFirst <;> simp_all
    · rw [hnull]
      by_cases hnull' : field.get row = .null
      · cases key.nullsFirst <;> simp [hnull']
      · rw [orderValues_null_right _ _ hnull']
        cases key.nullsFirst <;> simp [hnull']

theorem tie_isMatch {key : OrderKey α} {row reference : α} (hrow : key.ConformsAt row)
    (href : key.ConformsAt reference) :
    (key.tie reference : Filter α ι).isMatch row = true ↔ key.order row reference = .eq := by
  cases htarget : key.target with
  | random seed =>
    rw [tie, htarget, order_of_random htarget]
    simp only [Filter.isMatch_random, CmpOp.holds, beq_iff_eq]
    exact swap_eq_eq_iff.symm
  | field field =>
    rw [ConformsAt, htarget] at hrow href
    rw [tie, htarget, order_of_field htarget]
    simp only
    rcases href with href | ⟨-, hnull⟩
    · rw [Filter.isMatch_cmp href.ne_null]
      rcases hrow with hrow | ⟨-, hnull⟩
      · rw [hrow.compare href, orderValues_of_ne_null _ _ hrow.ne_null href.ne_null,
          swap_eq_eq_iff, Option.any_some, CmpOp.holds, beq_iff_eq]
      · rw [hnull, orderValues_null_left _ _ href.ne_null]
        cases key.nullsFirst <;> simp
    · rw [hnull, Filter.isMatch_eq_null, Value.isNull_eq_true_iff]
      by_cases hnull' : field.get row = .null
      · simp [hnull']
      · rw [orderValues_null_right _ _ hnull']
        cases key.nullsFirst <;> simp [hnull']

theorem after_isSome {key : OrderKey α} {field : Field α} {reference : α}
    (htarget : key.target = .field field) (h : field.get reference ≠ .null) :
    (key.after reference : Option (Filter α ι)).isSome = true := by
  have hvalue := Value.isNull_eq_false_iff.mpr h
  rw [after, htarget]
  simp only [hvalue, Bool.false_eq_true, if_false]
  split <;> rfl

end OrderKey

namespace OrderBy

variable {α ι : Type} [Identity ι] [Resource α ι]

theorem any_isMatch_clause (ties : List (Filter α ι)) (later : Filter α ι) (row : α) :
    (Filter.all (ties.map some ++ [some later])).any (·.isMatch row) =
      (ties.all (·.isMatch row) && later.isMatch row) := by
  have hpresent : (ties.map some ++ [some later]).filterMap id = ties ++ [later] := by
    simp [List.filterMap_append]
  rw [Filter.all, hpresent]
  cases ties with
  | nil => simp
  | cons first rest =>
    rw [List.cons_append, Option.any_some, Filter.isMatch_foldl_and]
    simp [Bool.and_assoc]

theorem afterClauses_isMatch {keys : OrderBy α} {row reference : α}
    (hrow : keys.ConformsAt row) (href : keys.ConformsAt reference) (ties : List (Filter α ι)) :
    ((afterClauses reference ties keys).any fun clause => clause.any (·.isMatch row)) = true ↔
      ties.all (·.isMatch row) = true ∧ order keys row reference = .gt := by
  induction keys generalizing ties with
  | nil => simp [afterClauses, order]
  | cons key rest ih =>
    rw [conformsAt_cons] at hrow href
    have hafter := OrderKey.after_isMatch (ι := ι) hrow.1 href.1
    have htie := OrderKey.tie_isMatch (ι := ι) hrow.1 href.1
    have hclause : ((key.after reference : Option (Filter α ι)).bind fun later =>
          Filter.all (ties.map some ++ [some later])).any (·.isMatch row) = true ↔
        ties.all (·.isMatch row) = true ∧ key.order row reference = .gt := by
      rw [← hafter]
      cases key.after reference with
      | none => simp
      | some later => rw [Option.bind_some, any_isMatch_clause, Bool.and_eq_true, Option.any_some]
    rw [afterClauses, List.any_cons, Bool.or_eq_true, hclause, ih hrow.2 href.2, List.all_append,
      Bool.and_eq_true, List.all_cons, List.all_nil, Bool.and_true, htie, order]
    cases key.order row reference <;> simp

/-- The keyset filter matches the rows that the order puts behind the reference. -/
theorem keysetAfter_isMatch {keys : OrderBy α} {row reference : α}
    (hrow : keys.ConformsAt row) (href : keys.ConformsAt reference) :
    (keysetAfter keys reference : Option (Filter α ι)).any (·.isMatch row) = true ↔
      order keys row reference = .gt := by
  rw [keysetAfter, Filter.any_isMatch, afterClauses_isMatch hrow href]
  simp

theorem exists_afterClause {keys : OrderBy α} (h : keys.BreaksTies) (reference : α)
    (ties : List (Filter α ι)) :
    ∃ clause ∈ afterClauses reference ties keys, clause.isSome = true := by
  obtain ⟨key, hkey, htarget⟩ := h
  induction keys generalizing ties with
  | nil => exact absurd hkey List.not_mem_nil
  | cons first rest ih =>
    rcases List.mem_cons.mp hkey with rfl | hkey
    · have hvalue : (Resource.schema (α := α)).id.get reference ≠ .null := by
        rw [Resource.schema_id]
        exact Identity.toValue_ne_null _
      have hlater := OrderKey.after_isSome (ι := ι) htarget hvalue
      refine ⟨_, List.mem_cons_self, ?_⟩
      rw [Option.eq_some_of_isSome hlater, Option.bind_some, Filter.all]
      cases ties <;> rfl
    · obtain ⟨clause, hclause, hsome⟩ := ih (ties ++ [first.tie reference]) hkey
      exact ⟨clause, List.mem_cons_of_mem _ hclause, hsome⟩

/-- An order with the id among its keys has a keyset filter behind every row. -/
theorem keysetAfter_isSome {keys : OrderBy α} (h : keys.BreaksTies) (reference : α) :
    (keysetAfter keys reference : Option (Filter α ι)).isSome = true := by
  obtain ⟨clause, hclause, hsome⟩ := exists_afterClause (ι := ι) h reference []
  rw [keysetAfter, Filter.any_isSome]
  exact List.any_eq_true.mpr ⟨clause, hclause, hsome⟩

/-- With the keyset filter added, those of the selected rows are meant that the order puts behind
the reference. -/
theorem selects_keysetAfter {keys : OrderBy α} (h : keys.BreaksTies) {row reference : α}
    (hrow : keys.ConformsAt row) (href : keys.ConformsAt reference)
    (filter : Option (Filter α ι)) :
    Query.selects (Filter.all [filter, keysetAfter keys reference]) row =
      (Query.selects filter row && order keys row reference == .gt) := by
  have hbehind := keysetAfter_isMatch (ι := ι) hrow href
  obtain ⟨behind, hsome⟩ := Option.isSome_iff_exists.mp (keysetAfter_isSome (ι := ι) h reference)
  rw [hsome, Option.any_some] at hbehind
  rw [Filter.selects_all, hsome, Bool.eq_iff_iff]
  simp [hbehind]

end OrderBy
end Repertory
