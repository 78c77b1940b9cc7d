import Repertory.Proofs.Action
import Repertory.Proofs.Filter.Match
import Repertory.Proofs.Order.Rows
import Repertory.Store.Table

/-!
# Tables under calls

A table that starts empty and is only changed through its store keeps its rows in strictly rising
order of their ids (`after_ascending`), whatever the calls are and whether they succeed. So a row is
addressed by its id, and `place` replaces exactly the row of the same id.
-/

namespace Repertory

theorem Query.mem_run {α ι : Type} [Identity ι] [Resource α ι] {q : Query α ι} {rows : List α}
    {row : α} (h : row ∈ q.run rows) : row ∈ rows ∧ Query.selects q.filter row = true := by
  obtain ⟨filter, order, limit⟩ := q
  have hunlimited : row ∈ Query.run { filter, order } rows →
      row ∈ rows ∧ Query.selects filter row = true := by
    intro hrow
    cases order with
    | none => exact List.mem_filter.mp hrow
    | some order => exact List.mem_filter.mp ((OrderBy.sort_perm order _).mem_iff.mp hrow)
  cases limit with
  | none => exact hunlimited h
  | some n => exact hunlimited (List.mem_of_mem_take h)

namespace Table

variable {σ α ι : Type}

inductive Call (α ι : Type) where
  | insert (item : α)
  | update (item : α)
  | delete (id : ι)

/-- Makes a call to a store; what it gives back is dropped. -/
def Call.perform (store : Store σ α ι) : Call α ι → Action σ StoreError Unit
  | insert item => do
    let _ ← store.insert item
    return ()
  | update item => do
    let _ ← store.update item
    return ()
  | delete id => store.delete id

variable [Identity ι] [Resource α ι]

/-- The table after calls to an empty one, some of which may have failed. -/
def after (calls : List (Call α ι)) : Table α ι :=
  calls.foldl (fun table call => ((call.perform (store Lens.whole)).exec table).2) empty

/-! ## Running calls -/

section

variable (lens : Lens σ (Table α ι)) (s : σ)

@[simp]
theorem store_execute (q : Query α ι) :
    ((store lens).execute q).exec s = (.ok ((lens.get s).execute q), s) := rfl

@[simp]
theorem store_count (filter : Option (Filter α ι)) :
    ((store lens).count filter).exec s = (.ok ((lens.get s).count filter), s) := rfl

@[simp]
theorem store_insert (item : α) :
    ((store lens).insert item).exec s =
      match (lens.get s).insert item with
      | .ok (row, t) => (.ok row, lens.set t s)
      | .error e => (.error e, s) := by
  rw [show (store lens).insert item = lens.change (insert item) from rfl, Lens.exec_change]
  rcases (lens.get s).insert item with _ | ⟨_, _⟩ <;> rfl

@[simp]
theorem store_update (item : α) :
    ((store lens).update item).exec s =
      match (lens.get s).update item with
      | .ok (row, t) => (.ok row, lens.set t s)
      | .error e => (.error e, s) := by
  rw [show (store lens).update item = lens.change (update item) from rfl, Lens.exec_change]
  rcases (lens.get s).update item with _ | ⟨_, _⟩ <;> rfl

@[simp]
theorem store_delete (id : ι) :
    ((store lens).delete id).exec s =
      match (lens.get s).delete id with
      | .ok (_, t) => (.ok (), lens.set t s)
      | .error e => (.error e, s) := by
  rw [show (store lens).delete id = lens.change (delete id) from rfl, Lens.exec_change]
  rcases (lens.get s).delete id with _ | ⟨_, _⟩ <;> rfl

end

/-! ## Rows in the order of their ids -/

def Ascending (rows : List α) : Prop :=
  rows.Pairwise fun a b => compare (Resource.id a) (Resource.id b) = .lt

theorem ne_of_compare_lt {i j : ι} (h : compare i j = .lt) : i ≠ j := by
  rintro rfl
  rw [Std.ReflOrd.compare_self] at h
  exact absurd h (by decide)

theorem Ascending.nodup {rows : List α} (h : Ascending rows) : (rows.map Resource.id).Nodup :=
  List.pairwise_map.mpr (h.imp ne_of_compare_lt)

theorem Ascending.eq_of_id_eq {rows : List α} (h : Ascending rows) {a b : α} (ha : a ∈ rows)
    (hb : b ∈ rows) (hid : Resource.id a = Resource.id b) : a = b := by
  induction rows with
  | nil => exact absurd ha List.not_mem_nil
  | cons row rest ih =>
    obtain ⟨hrow, hrest⟩ := List.pairwise_cons.mp h
    rcases List.mem_cons.mp ha with ha | ha <;> rcases List.mem_cons.mp hb with hb | hb
    · exact ha.trans hb.symm
    · exact absurd (ha ▸ hid) (ne_of_compare_lt (hrow b hb))
    · exact absurd (hb ▸ hid.symm) (ne_of_compare_lt (hrow a ha))
    · exact ih hrest ha hb

theorem Ascending.id_mem_filter {rows : List α} (h : Ascending rows) (p : α → Bool) {row : α}
    (hrow : row ∈ rows) : Resource.id row ∈ (rows.filter p).map Resource.id ↔ p row = true := by
  constructor
  · intro hid
    obtain ⟨other, hother, hsame⟩ := List.mem_map.mp hid
    obtain ⟨hmem, hp⟩ := List.mem_filter.mp hother
    exact h.eq_of_id_eq hmem hrow hsame ▸ hp
  · exact fun hp => List.mem_map_of_mem (List.mem_filter.mpr ⟨hrow, hp⟩)

/-- Placing a row replaces the one of the same id and keeps all others. -/
theorem mem_place {item row : α} {rows : List α} (h : Ascending rows) :
    row ∈ place item rows ↔ row = item ∨ row ∈ rows ∧ Resource.id row ≠ Resource.id item := by
  induction rows with
  | nil => simp [place]
  | cons first rest ih =>
    obtain ⟨hfirst, hrest⟩ := List.pairwise_cons.mp h
    rw [place]
    cases hcompare : compare (Resource.id item) (Resource.id first) with
    | lt =>
      have hne : ∀ other ∈ first :: rest, Resource.id other ≠ Resource.id item := by
        intro other hother
        refine (ne_of_compare_lt ?_).symm
        rcases List.mem_cons.mp hother with rfl | hother
        · exact hcompare
        · exact Std.TransCmp.lt_trans hcompare (hfirst other hother)
      simp only [List.mem_cons] at hne ⊢
      exact or_congr_right (iff_self_and.mpr (hne row))
    | eq =>
      have hid := Std.LawfulEqOrd.eq_of_compare hcompare
      have hne : ∀ other ∈ rest, Resource.id other ≠ Resource.id item := fun other hother =>
        hid ▸ (ne_of_compare_lt (hfirst other hother)).symm
      simp only [List.mem_cons]
      refine or_congr_right ⟨fun hrow => ⟨Or.inr hrow, hne row hrow⟩, ?_⟩
      rintro ⟨rfl | hrow, hrow'⟩
      · exact absurd hid.symm hrow'
      · exact hrow
    | gt =>
      have hne : Resource.id first ≠ Resource.id item := by
        rw [Std.OrientedCmp.gt_iff_lt] at hcompare
        exact ne_of_compare_lt hcompare
      simp only [List.mem_cons, ih hrest]
      constructor
      · rintro (rfl | rfl | ⟨hrow, hrow'⟩)
        · exact Or.inr ⟨Or.inl rfl, hne⟩
        · exact Or.inl rfl
        · exact Or.inr ⟨Or.inr hrow, hrow'⟩
      · rintro (rfl | ⟨rfl | hrow, hrow'⟩)
        · exact Or.inr (Or.inl rfl)
        · exact Or.inl rfl
        · exact Or.inr (Or.inr ⟨hrow, hrow'⟩)

theorem exists_id_place {rows : List α} {id : ι} (item : α) (h : Ascending rows)
    (hid : ∃ row ∈ rows, Resource.id row = id) :
    ∃ row ∈ place item rows, Resource.id row = id := by
  obtain ⟨row, hrow, rfl⟩ := hid
  by_cases hsame : Resource.id row = Resource.id item
  · exact ⟨item, (mem_place h).mpr (Or.inl rfl), hsame.symm⟩
  · exact ⟨row, (mem_place h).mpr (Or.inr ⟨hrow, hsame⟩), rfl⟩

theorem place_ascending (item : α) {rows : List α} (h : Ascending rows) :
    Ascending (place item rows) := by
  induction rows with
  | nil => exact List.pairwise_singleton _ _
  | cons first rest ih =>
    obtain ⟨hfirst, hrest⟩ := List.pairwise_cons.mp h
    rw [place]
    cases hcompare : compare (Resource.id item) (Resource.id first) with
    | lt =>
      refine List.pairwise_cons.mpr ⟨fun row hrow => ?_, h⟩
      rcases List.mem_cons.mp hrow with rfl | hrow
      · exact hcompare
      · exact Std.TransCmp.lt_trans hcompare (hfirst row hrow)
    | eq =>
      rw [← Std.LawfulEqOrd.eq_of_compare hcompare] at hfirst
      exact List.pairwise_cons.mpr ⟨hfirst, hrest⟩
    | gt =>
      refine List.pairwise_cons.mpr ⟨fun row hrow => ?_, ih hrest⟩
      rcases (mem_place hrest).mp hrow with rfl | ⟨hrow, -⟩
      · exact Std.OrientedCmp.gt_iff_lt.mp hcompare
      · exact hfirst row hrow

/-! ## What a change of a table does -/

variable {table changed : Table α ι} {item row : α} {id : ι}

theorem checkSlug_ok (h : table.checkSlug item = .ok ()) : table.slugTaken item = false := by
  rw [checkSlug] at h
  split at h
  · cases h
  · exact Bool.eq_false_iff.mpr ‹_›

theorem assign_ok (h : table.assign item = .ok row) :
    row = item ∨ ∃ id, row = Resource.setId id item := by
  rw [assign] at h
  split at h
  · split at h
    · cases h
      exact Or.inr ⟨_, rfl⟩
    · cases h
  · split at h
    · cases h
    · cases h
      exact Or.inl rfl

/-- An inserted row is the item, with a new id if it had none, and no other row has its slug. -/
theorem insert_ok (h : table.insert item = .ok (row, changed)) :
    table.assign item = .ok row ∧ table.slugTaken row = false ∧
      changed = ⟨place row table.rows, some (raise (Resource.id row) table.highWater)⟩ := by
  obtain ⟨assigned, hassign, h⟩ := exists_of_bind_ok h
  obtain ⟨_, hslug, h⟩ := exists_of_bind_ok h
  cases h
  exact ⟨hassign, checkSlug_ok hslug, rfl⟩

/-- An updated row takes the place of one with its id, and no other row has its slug. -/
theorem update_ok (h : table.update item = .ok (row, changed)) :
    row = item ∧ (∃ old, table.find? (Resource.id item) = some old) ∧
      table.slugTaken item = false ∧
      changed = { table with rows := place item table.rows } := by
  rw [update] at h
  cases hfind : table.find? (Resource.id item) with
  | none =>
    rw [hfind] at h
    cases h
  | some old =>
    rw [hfind] at h
    obtain ⟨_, hslug, h⟩ := exists_of_bind_ok h
    cases h
    exact ⟨rfl, ⟨old, rfl⟩, checkSlug_ok hslug, rfl⟩

theorem delete_ok {done : Unit} (h : table.delete id = .ok (done, changed)) :
    changed = { table with rows := table.rows.filter fun row => Resource.id row ≠ id } := by
  rw [delete] at h
  split at h
  · cases h
  · cases h
    rfl

def without (ids : List ι) (table : Table α ι) : Table α ι :=
  { table with rows := table.rows.filter fun row => Resource.id row ∉ ids }

theorem mem_without {ids : List ι} :
    row ∈ (table.without ids).rows ↔ row ∈ table.rows ∧ Resource.id row ∉ ids := by
  rw [without, List.mem_filter, decide_eq_true_iff]

theorem without_nil (table : Table α ι) : table.without [] = table :=
  congrArg (Table.mk · _) (List.filter_eq_self.mpr fun _ _ => rfl)

theorem without_cons (id : ι) (ids : List ι) (table : Table α ι) :
    table.without (id :: ids) = (table.without [id]).without ids := by
  simp only [without, List.filter_filter]
  refine congrArg (Table.mk · _) (List.filter_congr fun row _ => ?_)
  simp [Bool.and_comm]

/-- The table with those of its rows that have a property. -/
def keep (p : α → Bool) (table : Table α ι) : Table α ι :=
  { table with rows := table.rows.filter p }

omit [Identity ι] [Resource α ι] in
theorem mem_keep {p : α → Bool} :
    row ∈ (table.keep p).rows ↔ row ∈ table.rows ∧ p row = true :=
  List.mem_filter

omit [Identity ι] [Resource α ι] in
theorem keep_congr {p q : α → Bool} (h : ∀ row ∈ table.rows, p row = q row) :
    table.keep p = table.keep q :=
  congrArg (Table.mk · _) (List.filter_congr h)

theorem without_singleton (id : ι) (table : Table α ι) :
    table.without [id] = table.keep fun row => Resource.id row ≠ id :=
  keep_congr fun row _ => by simp

/-- Without the ids of some of its rows, a table keeps all others. -/
theorem without_filter (h : Ascending table.rows) (p : α → Bool) :
    table.without ((table.rows.filter p).map Resource.id) = table.keep fun row => !p row := by
  refine keep_congr fun row hrow => ?_
  rw [decide_not]
  exact congrArg not (Bool.eq_iff_iff.mpr (decide_eq_true_iff.trans (h.id_mem_filter p hrow)))

/-- A deletion leaves the table without the id, whether a row had it or not. -/
theorem delete_cases (id : ι) (table : Table α ι) :
    table.delete id = .ok ((), table.without [id]) ∨
      table.delete id = .error (.notFound (Identity.text id)) ∧ table.without [id] = table := by
  rw [delete, without_singleton]
  cases hfind : table.find? id with
  | some row => exact Or.inl rfl
  | none =>
    refine Or.inr ⟨rfl, congrArg (Table.mk · _) (List.filter_eq_self.mpr fun row hrow => ?_)⟩
    simpa using List.find?_eq_none.mp hfind row hrow

theorem delete_of_mem (hrow : row ∈ table.rows) :
    table.delete (Resource.id row) = .ok ((), table.without [Resource.id row]) := by
  rcases delete_cases (Resource.id row) table with hdeleted | ⟨-, hsame⟩
  · exact hdeleted
  · -- The table would still have the row.
    have hkept : row ∈ (table.without [Resource.id row]).rows := by rwa [hsame]
    exact absurd List.mem_cons_self (mem_without.mp hkept).2

theorem Call.perform_ascending (call : Call α ι) (h : Ascending table.rows) :
    Ascending ((call.perform (store Lens.whole)).exec table).2.rows := by
  cases call with
  | insert item =>
    cases hinsert : table.insert item with
    | error e => simpa [perform, Lens.whole, hinsert] using h
    | ok result =>
      simpa [perform, Lens.whole, hinsert, (insert_ok hinsert).2.2] using place_ascending _ h
  | update item =>
    cases hupdate : table.update item with
    | error e => simpa [perform, Lens.whole, hupdate] using h
    | ok result =>
      simpa [perform, Lens.whole, hupdate, (update_ok hupdate).2.2.2] using place_ascending _ h
  | delete id =>
    cases hdelete : table.delete id with
    | error e => simpa [perform, Lens.whole, hdelete] using h
    | ok result =>
      simpa [perform, Lens.whole, hdelete, delete_ok hdelete, Ascending] using h.filter _

/-- Whatever the calls were, the rows of a table stand in the order of their ids. -/
theorem after_ascending (calls : List (Call α ι)) : Ascending (after calls).rows := by
  have hrun : ∀ table : Table α ι, Ascending table.rows → Ascending
      (calls.foldl (fun t call => ((call.perform (store Lens.whole)).exec t).2) table).rows := by
    induction calls with
    | nil => exact fun _ h => h
    | cons call rest ih => exact fun table h => ih _ (call.perform_ascending h)
  exact hrun empty List.Pairwise.nil

/-! ## Looking up by id -/

theorem filter_id {rows : List α} (h : (rows.map Resource.id).Nodup) (hrow : row ∈ rows) :
    rows.filter (fun other => Resource.id other = Resource.id row) = [row] := by
  obtain ⟨before, behind, rfl⟩ := List.append_of_mem hrow
  obtain ⟨-, hrest, hbefore⟩ := List.pairwise_append.mp (List.pairwise_map.mp h)
  have hbehind := (List.pairwise_cons.mp hrest).1
  have hnil : ∀ others : List α, (∀ other ∈ others, Resource.id other ≠ Resource.id row) →
      others.filter (fun other => Resource.id other = Resource.id row) = [] := by
    intro others hothers
    simpa [List.filter_eq_nil_iff] using hothers
  rw [List.filter_append, List.filter_cons_of_pos (by simp),
    hnil before fun other hother => hbefore other hother row List.mem_cons_self,
    hnil behind fun other hother => (hbehind other hother).symm, List.nil_append]

theorem run_byId {rows : List α} (h : (rows.map Resource.id).Nodup) (hrow : row ∈ rows) :
    (Query.byId (Resource.id row)).run rows = [row] := by
  have hselects : (Query.selects (some (Filter.idEq (Resource.id row))) : α → Bool) =
      fun other => decide (Resource.id other = Resource.id row) := by
    funext other
    rw [Bool.eq_iff_iff, Query.selects_some, Filter.isMatch_idEq, decide_eq_true_iff]
  simp only [Query.run, Query.byId, hselects, filter_id h hrow]
  rfl

/-! ## Rows changed in place -/

theorem Ascending.place_eq_map {rows : List α} (h : Ascending rows) (hrow : row ∈ rows)
    (hid : Resource.id item = Resource.id row) :
    place item rows =
      rows.map fun other => if Resource.id other = Resource.id row then item else other := by
  induction rows with
  | nil => exact absurd hrow List.not_mem_nil
  | cons first rest ih =>
    obtain ⟨hfirst, hrest⟩ := List.pairwise_cons.mp h
    have hrow' := List.mem_cons.mp hrow
    rw [place, hid]
    cases hcompare : compare (Resource.id row) (Resource.id first) with
    | lt =>
      rcases hrow' with rfl | hrow'
      · exact absurd rfl (ne_of_compare_lt hcompare)
      · have hgt := Std.OrientedCmp.gt_of_lt (hfirst row hrow')
        rw [hcompare] at hgt
        cases hgt
    | eq =>
      have hsame := Std.LawfulEqOrd.eq_of_compare hcompare
      have hothers : rest.map (fun other =>
          if Resource.id other = Resource.id row then item else other) = rest := by
        refine (List.map_congr_left fun other hother => ?_).trans (List.map_id rest)
        exact if_neg (hsame ▸ (ne_of_compare_lt (hfirst other hother)).symm)
      rw [List.map_cons, if_pos hsame.symm, hothers]
    | gt =>
      rcases hrow' with rfl | hrow'
      · rw [Std.ReflOrd.compare_self] at hcompare
        cases hcompare
      · rw [List.map_cons, if_neg (ne_of_compare_lt (hfirst row hrow')), ih hrest hrow']

/-- A row stands in the place of another one, and all else in the table is as it was. -/
def Replaced (old row : α) (table changed : Table α ι) : Prop :=
  ∃ before behind, table.rows = before ++ old :: behind ∧
    changed = { table with rows := before ++ row :: behind }

theorem update_replaced {old : α} (h : Ascending table.rows) (hold : old ∈ table.rows)
    (hid : Resource.id row = Resource.id old) (hupdate : table.update row = .ok (row, changed)) :
    Replaced old row table changed := by
  obtain ⟨before, behind, hrows⟩ := List.append_of_mem hold
  refine ⟨before, behind, hrows, ?_⟩
  rw [(update_ok hupdate).2.2.2, h.place_eq_map hold hid]
  rw [hrows] at h ⊢
  obtain ⟨-, hrest, hbefore⟩ := List.pairwise_append.mp h
  have hbehind := (List.pairwise_cons.mp hrest).1
  have hkept : ∀ others : List α, (∀ other ∈ others, Resource.id other ≠ Resource.id old) →
      others.map (fun other => if Resource.id other = Resource.id old then row else other) =
        others := fun others hothers =>
    (List.map_congr_left fun other hother => if_neg (hothers other hother)).trans (List.map_id _)
  rw [List.map_append, List.map_cons, if_pos rfl,
    hkept before fun other hother => ne_of_compare_lt (hbefore other hother old List.mem_cons_self),
    hkept behind fun other hother => (ne_of_compare_lt (hbehind other hother)).symm]

/-- The table with the rows of some ids changed by a function. -/
def touch (f : α → α) (ids : List ι) (table : Table α ι) : Table α ι :=
  { table with rows := table.rows.map fun row => if Resource.id row ∈ ids then f row else row }

theorem touch_nil (f : α → α) (table : Table α ι) : table.touch f [] = table := by
  simp [touch]

/-- With the ids of some of its rows, exactly these are changed. -/
theorem touch_filter (f : α → α) (h : Ascending table.rows) (p : α → Bool) :
    table.touch f ((table.rows.filter p).map Resource.id) =
      { table with rows := table.rows.map fun row => if p row then f row else row } := by
  refine congrArg (Table.mk · _) (List.map_congr_left fun row hrow => ?_)
  simp only [h.id_mem_filter p hrow]

theorem touch_append_of_eq {f : α → α} {ids : List ι} (h : Ascending table.rows)
    (hrow : row ∈ table.rows) (hf : f row = row) :
    table.touch f (ids ++ [Resource.id row]) = table.touch f ids := by
  have hrows : table.rows.map (fun other =>
        if Resource.id other ∈ ids ++ [Resource.id row] then f other else other) =
      table.rows.map fun other => if Resource.id other ∈ ids then f other else other := by
    refine List.map_congr_left fun other hother => ?_
    by_cases hid : Resource.id other = Resource.id row
    · rw [h.eq_of_id_eq hother hrow hid, hf]
      split <;> split <;> rfl
    · simp [hid]
  rw [touch, hrows, touch]

variable {f : α → α} (hf : ∀ row, Resource.id (f row) = Resource.id row)

include hf in
theorem touch_ascending {ids : List ι} (h : Ascending table.rows) :
    Ascending (table.touch f ids).rows := by
  refine List.pairwise_map.mpr (h.imp fun {a b} hab => ?_)
  have hid : ∀ row : α, Resource.id (if Resource.id row ∈ ids then f row else row) =
      Resource.id row := by
    intro row
    split
    · exact hf row
    · rfl
  rwa [hid a, hid b]

include hf in
/-- An update with what the function makes of one more row changes that row, or another row has its
slug. -/
theorem update_touch {ids : List ι} (h : Ascending table.rows) (hrow : row ∈ table.rows)
    (hnew : Resource.id row ∉ ids) :
    (table.touch f ids).update (f row) =
        .ok (f row, table.touch f (ids ++ [Resource.id row])) ∨
      (table.touch f ids).slugTaken (f row) = true ∧
        (table.touch f ids).update (f row) = .error (.conflict "slug" (Resource.slug (f row))) := by
  have hmem : row ∈ (table.touch f ids).rows :=
    List.mem_map.mpr ⟨row, hrow, if_neg hnew⟩
  have hfind : (table.touch f ids).find? (Resource.id (f row)) = some row := by
    rw [find?, hf, ← List.head?_filter, filter_id (touch_ascending hf h).nodup hmem]
    rfl
  have hplace : place (f row) (table.touch f ids).rows =
      (table.touch f (ids ++ [Resource.id row])).rows := by
    rw [(touch_ascending hf h).place_eq_map hmem (hf row), touch, List.map_map, touch]
    refine List.map_congr_left fun other hother => ?_
    by_cases hid : Resource.id other = Resource.id row
    · obtain rfl := h.eq_of_id_eq hother hrow hid
      simp [hnew]
    · by_cases hold : Resource.id other ∈ ids
      · simp [hold, hid, hf]
      · simp [hold, hid]
  rw [update, hfind]
  dsimp only
  rw [checkSlug]
  split
  · exact Or.inr ⟨‹_›, rfl⟩
  · rw [hplace]
    exact Or.inl rfl

end Table
end Repertory
