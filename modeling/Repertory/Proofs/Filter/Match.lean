import Repertory.Proofs.Order.Value
import Repertory.Store.Basic

/-!
# When filters match

A row matches a conjunction if it matches both parts and a disjunction if it matches one, since a
match means true and nothing less. The negation is the one connective for which a match of the part
does not decide the match of the whole.
-/

namespace Repertory

theorem Identity.toValue_ne_null {ι : Type} [Identity ι] (id : ι) :
    Identity.toValue id ≠ .null :=
  (Value.ne_null_of_compare (Identity.compare_toValue id id)).1

namespace Truth

theorem and_eq_true_iff {a b : Truth} : a.and b = some true ↔ a = some true ∧ b = some true := by
  rcases a with _ | _ | _ <;> rcases b with _ | _ | _ <;> simp [and]

theorem or_eq_true_iff {a b : Truth} : a.or b = some true ↔ a = some true ∨ b = some true := by
  rcases a with _ | _ | _ <;> rcases b with _ | _ | _ <;> simp [or]

theorem some_beq_true (b : Bool) : ((some b : Truth) == some true) = b := by
  cases b <;> rfl

theorem any_eq_true_iff {truths : List Truth} : any truths = some true ↔ some true ∈ truths := by
  induction truths with
  | nil => simp [any]
  | cons t rest ih => rw [any, or_eq_true_iff, ih, List.mem_cons, eq_comm]

end Truth

namespace Filter

theorem compareTruth_of_ne_null {op : CmpOp} {value literal : Value} (h : literal ≠ .null) :
    compareTruth op value literal = (value.compare literal).map op.holds := by
  cases op <;> cases literal <;> first | rfl | exact absurd rfl h

variable {α ι : Type} [Identity ι] [Resource α ι]

theorem isMatch_iff {filter : Filter α ι} {row : α} :
    filter.isMatch row = true ↔ filter.eval row = some true := beq_iff_eq

theorem isMatch_and (a b : Filter α ι) (row : α) :
    (and a b).isMatch row = (a.isMatch row && b.isMatch row) := by
  rw [Bool.eq_iff_iff, Bool.and_eq_true, isMatch_iff, isMatch_iff, isMatch_iff]
  exact Truth.and_eq_true_iff

theorem isMatch_or (a b : Filter α ι) (row : α) :
    (or a b).isMatch row = (a.isMatch row || b.isMatch row) := by
  rw [Bool.eq_iff_iff, Bool.or_eq_true, isMatch_iff, isMatch_iff, isMatch_iff]
  exact Truth.or_eq_true_iff

theorem isMatch_cmp {op : CmpOp} {field : Field α} {literal : Value} (h : literal ≠ .null)
    (row : α) :
    (cmp op field literal : Filter α ι).isMatch row =
      ((field.get row).compare literal).any op.holds := by
  rw [Bool.eq_iff_iff, isMatch_iff]
  show compareTruth op (field.get row) literal = some true ↔ _
  rw [compareTruth_of_ne_null h]
  cases (field.get row).compare literal <;> simp

@[simp]
theorem isMatch_eq_null (field : Field α) (row : α) :
    (cmp .eq field .null : Filter α ι).isMatch row = (field.get row).isNull :=
  Truth.some_beq_true _

@[simp]
theorem isMatch_ne_null (field : Field α) (row : α) :
    (cmp .ne field .null : Filter α ι).isMatch row = !(field.get row).isNull :=
  Truth.some_beq_true _

@[simp]
theorem isMatch_random (seed : UInt64) (op : CmpOp) (pivot : ι) (row : α) :
    (random seed op pivot : Filter α ι).isMatch row =
      op.holds (compare (randomKey seed (Identity.text (Resource.id row)))
        (randomKey seed (Identity.text pivot))) :=
  Truth.some_beq_true _

@[simp]
theorem isMatch_satisfies (p : α → Bool) (row : α) :
    (satisfies p : Filter α ι).isMatch row = p row :=
  Truth.some_beq_true _

theorem isMatch_oneOf_iff {field : Field α} {literals : List Value} {row : α} :
    (oneOf field literals : Filter α ι).isMatch row = true ↔
      ∃ literal ∈ literals, (field.get row).compare literal = some .eq := by
  rw [isMatch_iff]
  show Truth.any (literals.map _) = some true ↔ _
  rw [Truth.any_eq_true_iff, List.mem_map]
  refine exists_congr fun literal => and_congr_right fun _ => ?_
  cases (field.get row).compare literal <;> simp

theorem isMatch_contains_iff {fields : List (Field α)} {needle : String} {row : α} :
    (contains fields needle : Filter α ι).isMatch row = true ↔
      ∃ field ∈ fields, ∃ text, field.get row = .text text ∧
        Text.contains (Text.lowercase text) (Text.lowercase needle) = true := by
  rw [isMatch_iff]
  show Truth.any (fields.map _) = some true ↔ _
  rw [Truth.any_eq_true_iff, List.mem_map]
  refine exists_congr fun field => and_congr_right fun _ => ?_
  cases field.get row <;> simp [containsTruth]

theorem isMatch_eq_toValue {field : Field α} {row : α} {j : ι}
    (h : field.get row = Identity.toValue j) (i : ι) :
    (cmp .eq field (Identity.toValue i) : Filter α ι).isMatch row = (j = i) := by
  rw [isMatch_cmp (Identity.toValue_ne_null i), h, Identity.compare_toValue]
  simp [CmpOp.holds]

/-- A row is meant by a list of ids if its own is one of them. -/
theorem isMatch_oneOf_ids {ids : List ι} {row : α} :
    (oneOf (Resource.schema (α := α)).id (ids.map Identity.toValue) : Filter α ι).isMatch row =
      true ↔ Resource.id row ∈ ids := by
  rw [isMatch_oneOf_iff, Resource.schema_id]
  constructor
  · rintro ⟨_, hliteral, hcompare⟩
    obtain ⟨id, hid, rfl⟩ := List.mem_map.mp hliteral
    rw [Identity.compare_toValue, Option.some.injEq, Std.LawfulEqOrd.compare_eq_iff_eq] at hcompare
    exact hcompare ▸ hid
  · intro hid
    refine ⟨_, List.mem_map_of_mem hid, ?_⟩
    rw [Identity.compare_toValue, Std.ReflOrd.compare_self]

theorem isMatch_eq_text {field : Field α} {row : α} {word : String}
    (h : field.get row = .text word) (other : String) :
    (cmp .eq field (.text other) : Filter α ι).isMatch row = decide (word = other) := by
  have hcompare : (Value.text word).compare (.text other) = some (compare word other) := by
    rw [Value.compare]
  have hvalue : Value.text other ≠ .null := by simp
  rw [isMatch_cmp hvalue, h, hcompare, Option.any_some, Bool.eq_iff_iff, decide_eq_true_iff]
  simp [CmpOp.holds]

theorem isMatch_idEq (id : ι) (row : α) :
    (idEq id : Filter α ι).isMatch row = (Resource.id row = id) :=
  isMatch_eq_toValue (Resource.schema_id row) id

end Filter

namespace Query

variable {α ι : Type} [Identity ι] [Resource α ι]

@[simp]
theorem selects_none (row : α) : selects (none : Option (Filter α ι)) row = true := rfl

@[simp]
theorem selects_some (filter : Filter α ι) (row : α) :
    selects (some filter) row = filter.isMatch row := rfl

end Query

/-! ## Folds -/

namespace Filter

variable {α ι : Type} [Identity ι] [Resource α ι]

theorem isMatch_foldl_and (first : Filter α ι) (rest : List (Filter α ι)) (row : α) :
    (rest.foldl and first).isMatch row = (first :: rest).all (isMatch · row) := by
  induction rest generalizing first with
  | nil => simp
  | cons next rest ih => simp [ih, isMatch_and, Bool.and_assoc]

theorem isMatch_foldl_or (first : Filter α ι) (rest : List (Filter α ι)) (row : α) :
    (rest.foldl or first).isMatch row = (first :: rest).any (isMatch · row) := by
  induction rest generalizing first with
  | nil => simp
  | cons next rest ih => simp [ih, isMatch_or, Bool.or_assoc]

/-- A row is meant by a conjunction if it is meant by each of the filters that are there. -/
theorem selects_all (filters : List (Option (Filter α ι))) (row : α) :
    Query.selects (all filters) row = filters.all fun f => Query.selects f row := by
  have hpresent : (filters.all fun f => Query.selects f row) =
      (filters.filterMap id).all (isMatch · row) := by
    induction filters with
    | nil => rfl
    | cons f rest ih => cases f <;> simp [ih]
  rw [hpresent, all]
  cases filters.filterMap id with
  | nil => rfl
  | cons first rest => exact isMatch_foldl_and first rest row

omit [Identity ι] [Resource α ι] in
theorem all_eq_none_iff {filters : List (Option (Filter α ι))} :
    all filters = none ↔ ∀ f ∈ filters, f = none := by
  have hpresent : filters.filterMap id = [] ↔ ∀ f ∈ filters, f = none :=
    List.filterMap_eq_nil_iff
  rw [← hpresent, all]
  cases filters.filterMap id <;> simp

theorem isMatch_all_iff {filters : List (Option (Filter α ι))} {f : Filter α ι}
    (h : all filters = some f) (row : α) :
    f.isMatch row = true ↔ ∀ g, some g ∈ filters → g.isMatch row = true := by
  have hselects := selects_all filters row
  rw [h, Query.selects_some] at hselects
  rw [hselects, List.all_eq_true]
  refine ⟨fun hall g hg => hall (some g) hg, fun hall g hg => ?_⟩
  cases g with
  | none => rfl
  | some g => exact hall g hg

theorem any_isMatch (filters : List (Option (Filter α ι))) (row : α) :
    (any filters).any (isMatch · row) = filters.any fun f => f.any (isMatch · row) := by
  have hpresent : (filters.any fun f => f.any (isMatch · row)) =
      (filters.filterMap id).any (isMatch · row) := by
    induction filters with
    | nil => rfl
    | cons f rest ih => cases f <;> simp [ih]
  rw [hpresent, any]
  cases filters.filterMap id with
  | nil => rfl
  | cons first rest => exact isMatch_foldl_or first rest row

omit [Identity ι] [Resource α ι] in
theorem any_isSome (filters : List (Option (Filter α ι))) :
    (any filters).isSome = filters.any Option.isSome := by
  have hpresent : filters.any Option.isSome = !(filters.filterMap id).isEmpty := by
    induction filters with
    | nil => rfl
    | cons f rest ih => cases f <;> simp [ih]
  rw [hpresent, any]
  cases filters.filterMap id <;> rfl

end Filter
end Repertory
